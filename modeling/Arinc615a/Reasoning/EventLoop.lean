import Mathlib.Data.List.Count

/-!
# An event loop

What surrounds a component that is driven by callbacks: a timer, whose handler is queued when the
timer expires or is cancelled, and the transfers under way, each of which completes once, at any
time and in any order.
-/

namespace Reasoning

/-- What a queued timer handler is called with. -/
inductive WaitResult where
  | expired
  | operationAborted
  | error
  deriving DecidableEq, Repr

/-- What a callback asks of the loop. -/
inductive Command (τ : Type) where
  | arm
  | cancel
  | launch (transfer : τ)
  | none
  deriving DecidableEq, Repr

structure EventLoop (τ : Type) where
  /-- A wait is pending: the timer is armed, and its handler not yet queued. -/
  armed : Bool := false
  queue : List WaitResult := []
  pending : List τ := []
  deriving DecidableEq, Repr

namespace EventLoop

variable {τ : Type}

/-- A pending wait is aborted; a handler that is queued stays queued. -/
def abortWait (loop : EventLoop τ) : EventLoop τ :=
  if loop.armed then
    { loop with armed := false, queue := loop.queue ++ [.operationAborted] }
  else loop

def perform (loop : EventLoop τ) : Command τ → EventLoop τ
  | .arm => { loop.abortWait with armed := true }
  | .cancel => loop.abortWait
  | .launch transfer => { loop with pending := transfer :: loop.pending }
  | .none => loop

def performAll (loop : EventLoop τ) (commands : List (Command τ)) : EventLoop τ :=
  commands.foldl perform loop

/-- The pending wait ends, and its handler is queued. -/
def elapse (loop : EventLoop τ) (result : WaitResult) : Option (EventLoop τ) :=
  if loop.armed && result ≠ .operationAborted then
    some { loop with armed := false, queue := loop.queue ++ [result] }
  else none

/-- Takes a queued timer handler. -/
def take (loop : EventLoop τ) (result : WaitResult) : Option (EventLoop τ) :=
  if result ∈ loop.queue then some { loop with queue := loop.queue.erase result } else none

/-- Takes a transfer that completes. -/
def complete [DecidableEq τ] (loop : EventLoop τ) (transfer : τ) : Option (EventLoop τ) :=
  if transfer ∈ loop.pending then some { loop with pending := loop.pending.erase transfer }
  else none

/-- The timer will call its handler: a wait is pending, or it has ended by itself and the handler
is queued. -/
def Waiting (loop : EventLoop τ) : Prop :=
  loop.armed = true ∨ .expired ∈ loop.queue ∨ .error ∈ loop.queue

instance (loop : EventLoop τ) : Decidable loop.Waiting :=
  inferInstanceAs (Decidable (_ ∨ _ ∨ _))

theorem elapse_eq_some {loop loop' : EventLoop τ} {result : WaitResult}
    (h : loop.elapse result = some loop') : loop'.pending = loop.pending := by
  unfold elapse at h
  split at h
  · cases h
    rfl
  · cases h

theorem take_eq_some {loop loop' : EventLoop τ} {result : WaitResult}
    (h : loop.take result = some loop') : loop'.pending = loop.pending := by
  unfold take at h
  split at h
  · cases h
    rfl
  · cases h

theorem complete_eq_some [DecidableEq τ] {loop loop' : EventLoop τ} {transfer : τ}
    (h : loop.complete transfer = some loop') :
    transfer ∈ loop.pending ∧ loop'.pending = loop.pending.erase transfer := by
  unfold complete at h
  split at h
  case isTrue hmem =>
    cases h
    exact ⟨hmem, rfl⟩
  case isFalse => cases h

theorem pending_perform (loop : EventLoop τ) (command : Command τ) :
    (loop.perform command).pending =
      match command with
      | .launch transfer => transfer :: loop.pending
      | _ => loop.pending := by
  cases command with
  | arm | cancel =>
    simp only [perform, abortWait]
    split <;> rfl
  | launch | none => rfl

/-- Each transfer that is launched is pending once more. -/
theorem count_pending_performAll [DecidableEq τ] (loop : EventLoop τ)
    (commands : List (Command τ)) (transfer : τ) :
    (loop.performAll commands).pending.count transfer =
      loop.pending.count transfer + commands.count (.launch transfer) := by
  unfold performAll
  induction commands generalizing loop with
  | nil => rfl
  | cons command commands ih =>
    rw [List.foldl_cons, ih, pending_perform]
    cases command with
    | launch launched =>
      -- a launched transfer adds one to its own count
      by_cases h : launched = transfer
      · simp [h]
        omega
      · simp [h]
    | arm | cancel | none => simp

/-- The commands queue no handler but those of aborted waits. -/
theorem mem_queue_performAll (loop : EventLoop τ) (commands : List (Command τ))
    {result : WaitResult} (h : result ≠ .operationAborted) :
    result ∈ (loop.performAll commands).queue ↔ result ∈ loop.queue := by
  have habort (loop : EventLoop τ) : result ∈ loop.abortWait.queue ↔ result ∈ loop.queue := by
    unfold abortWait
    split
    · simp [h]
    · exact Iff.rfl
  unfold performAll
  induction commands generalizing loop with
  | nil => exact Iff.rfl
  | cons command commands ih =>
    refine (ih (loop.perform command)).trans ?_
    cases command with
    | arm | cancel => exact habort loop
    | launch | none => exact Iff.rfl

/-- Only a cancellation ends the waiting. -/
theorem Waiting.perform {loop : EventLoop τ} (h : loop.Waiting) {command : Command τ}
    (hcancel : command ≠ .cancel) : (loop.perform command).Waiting := by
  cases command with
  | arm => exact .inl rfl
  | cancel => exact absurd rfl hcancel
  | launch | none => exact h

theorem Waiting.performAll {loop : EventLoop τ} (h : loop.Waiting) {commands : List (Command τ)}
    (hcancel : .cancel ∉ commands) : (loop.performAll commands).Waiting := by
  unfold EventLoop.performAll
  induction commands generalizing loop with
  | nil => exact h
  | cons command commands ih =>
    rw [List.mem_cons, not_or] at hcancel
    exact ih (h.perform (Ne.symm hcancel.1)) hcancel.2

/-- A timer that is armed on the way is still waiting at the end. -/
theorem waiting_of_arm (loop : EventLoop τ) {commands : List (Command τ)}
    (harm : .arm ∈ commands) (hcancel : .cancel ∉ commands) :
    (loop.performAll commands).Waiting := by
  obtain ⟨before, after, rfl⟩ := List.append_of_mem harm
  have hafter : Command.cancel ∉ after := fun hmem =>
    hcancel (List.mem_append_right _ (List.mem_cons_of_mem _ hmem))
  have harmed : ((loop.performAll before).perform .arm).Waiting := .inl rfl
  have hrest := harmed.performAll hafter
  simpa only [EventLoop.performAll, List.foldl_append, List.foldl_cons] using hrest

theorem waiting_elapse {loop loop' : EventLoop τ} {result : WaitResult}
    (h : loop.elapse result = some loop') : loop'.Waiting := by
  unfold elapse at h
  split at h
  case isTrue harmed =>
    cases h
    cases result with
    | expired => exact .inr (.inl (by simp))
    | error => exact .inr (.inr (by simp))
    | operationAborted => simp at harmed
  case isFalse => cases h

/-- The handler of a wait that was aborted is not what the timer is waiting for. -/
theorem waiting_take_aborted {loop loop' : EventLoop τ}
    (h : loop.take .operationAborted = some loop') : loop'.Waiting ↔ loop.Waiting := by
  unfold take at h
  split at h
  · cases h
    unfold Waiting
    simp only [List.mem_erase_of_ne (show WaitResult.expired ≠ .operationAborted by decide),
      List.mem_erase_of_ne (show WaitResult.error ≠ .operationAborted by decide)]
  · cases h

theorem waiting_complete [DecidableEq τ] {loop loop' : EventLoop τ} {transfer : τ}
    (h : loop.complete transfer = some loop') : loop'.Waiting ↔ loop.Waiting := by
  unfold complete at h
  split at h
  · cases h
    exact Iff.rfl
  · cases h

/-- A transfer is under way after the commands if it was before, or is launched by one of them. -/
theorem mem_pending_performAll [DecidableEq τ] (loop : EventLoop τ) (commands : List (Command τ))
    (transfer : τ) :
    transfer ∈ (loop.performAll commands).pending ↔
      transfer ∈ loop.pending ∨ .launch transfer ∈ commands := by
  rw [← List.count_pos_iff, count_pending_performAll, ← List.count_pos_iff, ← List.count_pos_iff]
  omega

end EventLoop

end Reasoning
