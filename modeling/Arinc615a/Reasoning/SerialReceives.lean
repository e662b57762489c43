import Arinc615a.Reasoning.DatagramSocket

/-!
# One receive at a time

A socket puts all its data in one buffer.  As long as a new receive is started only when the last
one has been handled, its handler finds a datagram as it has arrived, but for what did not fit.
-/

namespace Reasoning

namespace DatagramSocket

variable {ρ : Type} {capacity : Nat}

/-- The receives that wait, and those whose handlers will start another one. -/
def inFlight (socket : DatagramSocket ρ capacity) : Nat :=
  socket.receives + socket.queue.countP (· ≠ .operationAborted)

end DatagramSocket

/-- At most one receive is in flight, `handling` counted, and what is queued has arrived. -/
structure SerialReceives {ρ : Type} {capacity : Nat} (Sent : ρ → Bytes → Prop) (handling : Nat)
    (socket : DatagramSocket ρ capacity) : Prop where
  serial : socket.inFlight + handling ≤ 1
  arrived : ∀ bytesTransferred, .received bytesTransferred ∈ socket.queue →
    ∃ datagram, Sent socket.remote datagram ∧
      socket.data bytesTransferred = datagram.take capacity

namespace SerialReceives

open DatagramSocket

variable {ρ : Type} {capacity handling : Nat} {Sent Sent' : ρ → Bytes → Prop}
  {socket socket' : DatagramSocket ρ capacity}

theorem mono (h : SerialReceives Sent handling socket)
    (himp : ∀ remote datagram, Sent remote datagram → Sent' remote datagram) :
    SerialReceives Sent' handling socket where
  serial := h.serial
  arrived n hqueued := by
    obtain ⟨datagram, hsent, hdata⟩ := h.arrived n hqueued
    exact ⟨datagram, himp _ _ hsent, hdata⟩

/-- Nothing is in flight at a socket that has been created. -/
theorem created (remote : ρ) :
    SerialReceives Sent 0 ({ remote } : DatagramSocket ρ capacity) where
  serial := Nat.zero_le 1
  arrived _ hqueued := absurd hqueued (List.not_mem_nil)

theorem opened (h : SerialReceives Sent handling socket) (hopen : socket.open? = some socket') :
    SerialReceives Sent handling socket' := by
  unfold open? at hopen
  split at hopen
  · cases hopen
  · cases hopen
    exact ⟨h.serial, h.arrived⟩

theorem inFlight_of_aborted (socket : DatagramSocket ρ capacity) (isOpen : Bool) :
    ({ socket with
        isOpen := isOpen
        receives := 0
        queue := socket.queue ++ List.replicate socket.receives .operationAborted } :
      DatagramSocket ρ capacity).inFlight ≤ socket.inFlight := by
  have hnone : (List.replicate socket.receives ReceiveResult.operationAborted).countP
      (· ≠ .operationAborted) = 0 :=
    List.countP_eq_zero.mpr fun result hresult => by simp [List.eq_of_mem_replicate hresult]
  simp only [inFlight, List.countP_append, hnone]
  omega

/-- Receives that are aborted are not handled on. -/
theorem aborted (h : SerialReceives Sent handling socket) (isOpen : Bool) :
    SerialReceives Sent handling { socket with
      isOpen := isOpen
      receives := 0
      queue := socket.queue ++ List.replicate socket.receives .operationAborted } where
  serial := Nat.le_trans (Nat.add_le_add_right (inFlight_of_aborted socket isOpen) _) h.serial
  arrived n hqueued := by
    refine h.arrived n ((List.mem_append.mp hqueued).resolve_right fun haborted => ?_)
    cases List.eq_of_mem_replicate haborted

theorem closed (h : SerialReceives Sent handling socket) :
    SerialReceives Sent handling socket.close := h.aborted false

theorem cancelled (h : SerialReceives Sent handling socket)
    (hcancel : socket.cancel = some socket') : SerialReceives Sent handling socket' := by
  unfold cancel at hcancel
  split at hcancel
  case isTrue hopen =>
    cases hcancel
    exact h.aborted socket.isOpen
  case isFalse => cases hcancel

/-- The handler starts the next receive. -/
theorem receive (h : SerialReceives Sent 1 socket) : SerialReceives Sent 0 socket.receive := by
  have hserial := h.serial
  unfold DatagramSocket.receive
  split
  · refine ⟨?_, h.arrived⟩
    simp only [inFlight] at hserial ⊢
    omega
  · refine ⟨?_, fun n hqueued => h.arrived n ?_⟩
    · simp only [inFlight, List.countP_append] at hserial ⊢
      have herror : [ReceiveResult.error].countP (· ≠ .operationAborted) = 1 := rfl
      omega
    · exact (List.mem_append.mp hqueued).resolve_right (by simp)

/-- The first receive of a socket with nothing in flight. -/
theorem start (h : SerialReceives Sent 0 socket) (hidle : socket.inFlight = 0) :
    SerialReceives Sent 0 socket.receive :=
  receive ⟨Nat.le_of_eq (by rw [hidle]), h.arrived⟩

theorem not_received_of_waiting (h : SerialReceives Sent handling socket)
    (hwaiting : socket.receives ≠ 0) (n : Nat) : .received n ∉ socket.queue := by
  intro hqueued
  have hcounted : 0 < socket.queue.countP (· ≠ .operationAborted) :=
    List.countP_pos_iff.mpr ⟨_, hqueued, rfl⟩
  have hserial := h.serial
  unfold inFlight at hserial
  omega

theorem arrive {remote : ρ} {datagram : Bytes} (h : SerialReceives Sent handling socket)
    (hsent : Sent remote datagram) (harrive : socket.arrive remote datagram = some socket') :
    SerialReceives Sent handling socket' := by
  unfold DatagramSocket.arrive at harrive
  split at harrive
  case isTrue => cases harrive
  case isFalse hwaiting =>
    cases harrive
    refine ⟨?_, fun n hqueued => ⟨datagram, hsent, ?_⟩⟩
    · have hserial := h.serial
      have hone : [ReceiveResult.received (min datagram.length capacity)].countP
          (· ≠ .operationAborted) = 1 := rfl
      simp only [inFlight, List.countP_append] at hserial ⊢
      omega
    · -- nothing else is queued that the buffer is kept for
      have hlast := (List.mem_append.mp hqueued).resolve_left
        (h.not_received_of_waiting hwaiting n)
      cases List.mem_singleton.mp hlast
      exact socket.data_fill remote datagram

theorem fail (h : SerialReceives Sent handling socket) (hfail : socket.fail = some socket') :
    SerialReceives Sent handling socket' := by
  unfold DatagramSocket.fail at hfail
  split at hfail
  case isTrue => cases hfail
  case isFalse hwaiting =>
    cases hfail
    refine ⟨?_, fun n hqueued => h.arrived n ?_⟩
    · have hserial := h.serial
      have hone : [ReceiveResult.error].countP (· ≠ .operationAborted) = 1 := rfl
      simp only [inFlight, List.countP_append] at hserial ⊢
      omega
    · exact (List.mem_append.mp hqueued).resolve_right (by simp)

/-- A handler runs: unless its receive was aborted, it counts from now on. -/
theorem take {result : ReceiveResult} (h : SerialReceives Sent handling socket)
    (htake : socket.take result = some socket') :
    SerialReceives Sent (if result = .operationAborted then handling else handling + 1) socket' ∧
      (∀ n, result = .received n → ∃ datagram, Sent socket'.remote datagram ∧
        socket'.data n = datagram.take capacity) := by
  unfold DatagramSocket.take at htake
  split at htake
  case isFalse => cases htake
  case isTrue hqueued =>
    cases htake
    refine ⟨⟨?_, fun n hn => h.arrived n (List.mem_of_mem_erase hn)⟩, ?_⟩
    · have hserial := h.serial
      have hcount := (List.perm_cons_erase hqueued).countP_eq (· ≠ .operationAborted)
      rw [List.countP_cons] at hcount
      simp only [inFlight] at hserial ⊢
      by_cases haborted : result = .operationAborted
      · rw [if_pos haborted]
        omega
      · rw [if_pos (decide_eq_true haborted)] at hcount
        rw [if_neg haborted]
        omega
    · rintro n rfl
      exact h.arrived n hqueued

end SerialReceives

end Reasoning
