import Arinc615a.Host.Frame
import Arinc615a.Reasoning.Timer

/-!
# The timeout for the data loader

`triggerDlpTimeout` and `timerHandler` of `host/implementation/OperationImpl.cpp`, with the clock:
how long a target may be silent before the operation is finished.
-/

open Reasoning

namespace Arinc615a.Host

open Files Information Tftp

/-! ## What the timer is set to -/

/-- The timer is set as `triggerDlpTimeout` sets it. -/
def Triggers (dlpTimeout : Nat) (out : List Output) : Prop :=
  ∀ seconds, .timerStart seconds ∈ out → ∃ exceptionTime, seconds = max exceptionTime dlpTimeout

namespace Triggers

variable {dlpTimeout : Nat} {out out' : List Output}

theorem nil : Triggers dlpTimeout [] := fun _ h => absurd h List.not_mem_nil

theorem single {o : Output} (h : ∀ seconds, o ≠ .timerStart seconds) : Triggers dlpTimeout [o] :=
  fun seconds ho => absurd (List.mem_singleton.mp ho).symm (h seconds)

theorem append (h : Triggers dlpTimeout out) (h' : Triggers dlpTimeout out') :
    Triggers dlpTimeout (out ++ out') :=
  fun seconds ho => (List.mem_append.mp ho).elim (h seconds) (h' seconds)

end Triggers

namespace Operation

variable (lib : Library) (op : Operation)

theorem triggers_triggerDlpTimeout (exceptionTime : Nat) :
    Triggers op.dlpTimeout (op.triggerDlpTimeout exceptionTime).2 := by
  intro seconds h
  cases List.mem_singleton.mp h
  exact ⟨exceptionTime, rfl⟩

theorem triggers_finished (dlpTimeout : Nat) (status : StatusCode) (description : Text) :
    Triggers dlpTimeout (op.finished status description).2 := by
  intro seconds h
  simp [finished] at h

theorem triggers_abortInitialisation (dlpTimeout : Nat) :
    Triggers dlpTimeout op.abortInitialisation.2 := by
  unfold abortInitialisation
  split
  · exact .single (by simp)
  · exact .nil

theorem triggers_doAbort (dlpTimeout : Nat) (reason : AbortReason) :
    Triggers dlpTimeout (op.doAbort reason).2 := by
  unfold doAbort
  split
  · exact .nil
  · exact triggers_abortInitialisation _ _

theorem triggers_doTerminate (reason : AbortReason) :
    Triggers op.dlpTimeout (op.doTerminate reason).2 :=
  (op.triggers_abortInitialisation _).append (triggers_finished _ _ _ _)

theorem triggers_timerHandler (errorCode : WaitResult) :
    Triggers op.dlpTimeout (op.timerHandler errorCode).2 := by
  cases errorCode with
  | operationAborted => exact .nil
  | expired | error => exact op.triggers_finished _ _ _

theorem triggers_initialisationFileCompleted (status : TransferStatus) (data : Bytes) :
    Triggers op.dlpTimeout (op.initialisationFileCompleted lib status data).2 := by
  refine initialisationFileCompleted_elim (P := fun r => Triggers op.dlpTimeout r.2)
    (triggers_finished _ _ _ _) fun initFile => ?_
  refine Triggers.append (.single (by simp)) ?_
  unfold initialisationAnswered
  cases initFile.response.code with
  | operationAccepted => exact triggers_triggerDlpTimeout _ 0
  | operationDenied | operationNotSupported | operationDeferred => exact triggers_finished _ _ _ _

theorem triggers_statusReceived {progress : Operation → Operation}
    (hprogress : ∀ op, Kept op (progress op)) (status : Status) :
    Triggers op.dlpTimeout (statusReceived progress op status).2 := by
  have htrigger (exceptionTime : Nat) :
      Triggers op.dlpTimeout ((progress op).triggerDlpTimeout exceptionTime).2 := by
    rw [← (hprogress op).dlpTimeout]
    exact triggers_triggerDlpTimeout _ _
  unfold statusReceived
  cases status.code with
  | operationAccepted | operationInProgress | operationInProgressAdditionalInfo =>
    exact htrigger _
  | _ => exact op.triggers_finished _ _ _

theorem receiveStatus_call_ne {kind : OperationType} {data : Bytes} {received : ReceivedStatus}
    (h : receiveStatus lib kind data = some received) (seconds : Nat) :
    received.call ≠ .timerStart seconds := by
  cases kind <;>
    simp only [receiveStatus, receiveInformationStatus, receiveUploadStatus,
      receiveDownloadStatus, Option.map_eq_some_iff] at h <;>
    obtain ⟨_, -, rfl⟩ := h <;>
    simp

theorem triggers_statusFileReceived (kind : OperationType) {progress : Operation → Operation}
    (hprogress : ∀ op, Kept op (progress op)) (status : TransferStatus) (data : Bytes) :
    Triggers op.dlpTimeout
      (statusFileReceived (receiveStatus lib kind) progress op status data).2 := by
  unfold statusFileReceived
  split
  · exact op.triggers_finished _ _ _
  · split
    next received hreceive =>
      exact Triggers.append (.single (receiveStatus_call_ne lib hreceive))
        (triggers_statusReceived _ hprogress _)
    next => exact .nil

theorem triggers_statusFileCompleted (operation : Nat) (status : TransferStatus) (data : Bytes) :
    Triggers op.dlpTimeout (op.statusFileCompleted lib operation status data).2 := by
  have honward (kind : OperationType) : Triggers op.dlpTimeout
      (statusFileCompletedOnward (receiveStatus lib kind) op operation status data).2 := by
    have hreceived :=
      triggers_statusFileReceived lib (op.removeStatusFileOperation operation).1 kind .refl status
        data
    unfold statusFileCompletedOnward
    dsimp only
    split
    · exact Triggers.append (triggers_finished _ _ _ _) hreceived
    · exact Triggers.append .nil hreceived
  unfold Operation.statusFileCompleted
  cases op.kind with
  | information =>
    dsimp only [InformationOperation.statusFileCompleted]
    split
    · exact triggers_finished _ _ _ _
    · refine triggers_statusFileReceived lib (op.removeStatusFileOperation operation).1 .information
        (fun op => ?_) status data
      exact ⟨rfl, rfl, rfl, rfl, rfl, rfl, rfl⟩
  | upload => exact honward .upload
  | mediaDefinedDownload | operatorDefinedDownload => exact honward .mediaDefinedDownload

theorem triggers_listFileCompleted (checkValue : CheckValue) (status : TransferStatus)
    (data : Bytes) : Triggers op.dlpTimeout (op.listFileCompleted lib checkValue status data).2 := by
  have hfailed (op : Operation) :
      Triggers op.dlpTimeout (InformationOperation.listFileFailed op).2 := by
    unfold InformationOperation.listFileFailed
    split
    · exact op.triggers_doAbort _ _
    · exact op.triggers_finished _ _ _
  unfold Operation.listFileCompleted
  cases op.kind with
  | information =>
    dsimp only [InformationOperation.listFileCompleted]
    split
    · exact hfailed { op with listFileOperation := false }
    · split
      · refine Triggers.append (.single (by simp)) ?_
        dsimp only [emit]
        split
        · exact triggers_triggerDlpTimeout _ 0
        · exact triggers_finished _ _ _ _
      · exact hfailed { op with listFileOperation := false }
      · exact .nil
  | operatorDefinedDownload =>
    dsimp only [OperatorDefinedDownloadOperation.listFileCompleted]
    split
    · exact triggers_doAbort _ _ _
    · split
      · exact .single (by simp)
      · exact triggers_doAbort _ _ _
      · exact .nil
  | upload | mediaDefinedDownload => exact .nil

theorem triggers_tftpRequest (remote : Endpoint) (requestType : RequestType) (filename : Text)
    (options : Arinc615aOptions) :
    Triggers op.dlpTimeout (op.tftpRequest remote requestType filename options).2 := by
  have hstatus : Triggers op.dlpTimeout (op.statusFileRequest remote).2 :=
    statusFileRequest_elim (P := fun r => Triggers op.dlpTimeout r.2)
      (fun _ => Triggers.append (.single (by simp)) (triggers_triggerDlpTimeout _ 0))
      fun _ => .single (by simp)
  refine tftpRequest_elim (P := fun r => Triggers op.dlpTimeout r.2)
    (fun _ _ => .single (by simp)) (fun _ _ => .single (by simp)) hstatus (fun checkValue => ?_)
    fun handled hhandled => Triggers.append (.single (by simp)) hhandled
  refine Triggers.append ?_ (.single (by simp))
  split
  · exact .single (by simp)
  · exact .nil

theorem triggers_requestCompleted (status : TransferStatus) :
    Triggers op.dlpTimeout (op.requestCompleted status).2 := by
  by_cases hkind : op.kind = .information
  · unfold Operation.requestCompleted
    rw [hkind]
    exact .nil
  · rw [op.requestCompleted_of_kind hkind]
    split
    · exact op.triggers_doAbort _ _
    · exact .nil

theorem triggers_start (result : StartResult) : Triggers op.dlpTimeout (op.start result).2 := by
  rw [start_eq]
  cases result with
  | started | serverStartThrows | requestThrows =>
    intro seconds h
    simp [initialise] at h

end Operation

/-- Each callback sets the timer as `triggerDlpTimeout` does. -/
theorem World.triggers_step {lib : Library} {w w' : World} {event : Event}
    {out : List Observation} (hstep : w.step lib event = some (w', out)) {seconds : Nat}
    (h : .call (.timerStart seconds) ∈ out) :
    ∃ exceptionTime, seconds = max exceptionTime w.operation.dlpTimeout := by
  have hcalls : ∀ r : Reaction, Triggers w.operation.dlpTimeout r.2 →
      Observation.call (.timerStart seconds) ∈ r.2.map Observation.call →
        ∃ exceptionTime, seconds = max exceptionTime w.operation.dlpTimeout := by
    intro r htriggers hmem
    obtain ⟨o, ho, hcall⟩ := List.mem_map.mp hmem
    cases hcall
    exact htriggers seconds ho
  rcases step_cases hstep with ⟨result, rfl⟩ | ⟨v, r, hruns, hreact⟩
  · cases hstep
    exact hcalls _ (w.operation.triggers_start result) ((List.mem_cons.mp h).resolve_left (by simp))
  obtain ⟨-, rfl⟩ := react_eq hreact
  refine hcalls r ?_ h
  cases hruns with
  | abort reason => exact w.operation.triggers_doAbort _ reason
  | terminate reason => exact w.operation.triggers_doTerminate reason
  | send request reaction hsend =>
    rcases w.operation.send_cases lib hsend with ⟨-, rfl⟩ | ⟨-, fileType, filename, file, rfl⟩
    · exact .nil
    · intro seconds hmem
      simp at hmem
  | throws | timerElapses => exact .nil
  | tftpRequest remote requestType filename options =>
    exact w.operation.triggers_tftpRequest remote requestType filename options
  | deferred waitTime => exact .single (by simp)
  | completed transfer status data =>
    cases transfer with
    | initialisation =>
      exact w.operation.triggers_initialisationFileCompleted lib status data
    | status operation => exact w.operation.triggers_statusFileCompleted lib operation status data
    | list checkValue => exact w.operation.triggers_listFileCompleted lib checkValue status data
    | request => exact w.operation.triggers_requestCompleted status
  | timerHandler result => exact w.operation.triggers_timerHandler result

/-! ## The timer of an operation -/

/-- What becomes of the timer by itself. -/
def Event.ofTimer : Event → Bool
  | .timerElapses _ | .timerHandler _ => true
  | _ => false

namespace World

variable {lib : Library} {w w' : World} {event : Event} {out : List Observation}

theorem expired_react {v : World} {callback : Operation → Reaction}
    (h : v.react callback = (w', out)) :
    .expired ∈ w'.loop.queue ↔ .expired ∈ v.loop.queue := by
  cases h
  exact EventLoop.mem_queue_performAll _ _ (by decide)

/-- Setting the timer anew leaves a queued handler in the queue. -/
theorem expired_step_iff (htimer : event.ofTimer = false)
    (hstep : w.step lib event = some (w', out)) :
    .expired ∈ w'.loop.queue ↔ .expired ∈ w.loop.queue := by
  rcases step_cases hstep with ⟨result, rfl⟩ | ⟨v, r, hruns, hreact⟩
  · cases hstep
    exact EventLoop.mem_queue_performAll _ _ (by decide)
  refine (expired_react hreact).trans ?_
  cases hruns with
  | completed transfer status data loop hloop =>
    unfold EventLoop.complete at hloop
    split at hloop
    · cases hloop
      exact Iff.rfl
    · cases hloop
  | timerElapses | timerHandler => cases htimer
  | _ => exact Iff.rfl

theorem step_timerElapses {result : WaitResult}
    (hstep : w.step lib (.timerElapses result) = some (w', out)) :
    out = [] ∧ w'.loop.queue = w.loop.queue ++ [result] := by
  obtain ⟨loop, hloop, heq⟩ := Option.map_eq_some_iff.mp hstep
  cases heq
  unfold EventLoop.elapse at hloop
  split at hloop
  · cases hloop
    exact ⟨rfl, rfl⟩
  · cases hloop

theorem step_timerHandler {result : WaitResult}
    (hstep : w.step lib (.timerHandler result) = some (w', out)) :
    result ∈ w.loop.queue ∧ out = (w.operation.timerHandler result).2.map .call ∧
      (.expired ∈ w'.loop.queue → .expired ∈ w.loop.queue) := by
  obtain ⟨loop, hloop, hreact⟩ := Option.map_eq_some_iff.mp hstep
  unfold EventLoop.take at hloop
  split at hloop
  case isTrue hqueued =>
    cases hloop
    refine ⟨hqueued, (react_eq hreact).2, fun h => ?_⟩
    exact List.mem_of_mem_erase ((expired_react hreact).mp h)
  case isFalse => cases hloop

end World

/-- How an operation uses its timer.  Times are counted in ticks of the clock, and `second` is how
many make a second. -/
def timerUse (lib : Library) (second : Nat) : TimerUse (system lib) Nat where
  set?
    | .call (.timerStart seconds) => some (seconds * second)
    | _ => none
  elapses event := event = .timerElapses .expired
  Queued w := .expired ∈ w.loop.queue
  queued_of_step w event w' out hstep hqueued := by
    change w.step lib event = some (w', out) at hstep
    cases event with
    | timerElapses result =>
      rw [(World.step_timerElapses hstep).2, List.mem_append, List.mem_singleton] at hqueued
      rcases hqueued with hbefore | rfl
      · exact .inl hbefore
      · exact .inr rfl
    | timerHandler result => exact .inl ((World.step_timerHandler hstep).2.2 hqueued)
    | _ => exact .inl ((World.expired_step_iff rfl hstep).mp hqueued)
  quiet_elapses w event w' out hstep helapses := by
    change w.step lib event = some (w', out) at hstep
    rw [of_decide_eq_true helapses] at hstep
    exact (World.step_timerElapses hstep).1
  queued_set w event w' out o time hstep ho hset hqueued := by
    change w.step lib event = some (w', out) at hstep
    cases event with
    | timerElapses result =>
      rw [(World.step_timerElapses hstep).1] at ho
      cases ho
    | timerHandler result =>
      -- the handler itself does not set the timer
      rw [(World.step_timerHandler hstep).2.1] at ho
      cases result <;> simp [Operation.timerHandler, Operation.finished] at ho
      · rcases ho with rfl | rfl | rfl <;> cases hset
      · rcases ho with rfl | rfl | rfl <;> cases hset
    | _ => exact (World.expired_step_iff rfl hstep).mpr hqueued

/-- An operation with the clock. -/
abbrev clockedSystem (lib : Library) (second : Nat) :
    Reactive (Clocked World Nat) (Nat × Event) Observation :=
  (timerUse lib second).clocked

/-- `finished` is called with the reason DLP Timeout. -/
def TimesOut (event : Event) (out : List Observation) : Prop :=
  event = .timerHandler .expired ∧
    .call (.finished .operationAbortedByDlp (text "DLP Timeout")) ∈ out

/-- In no state that a run reaches, and at no time, can `finished` be called with the reason DLP
Timeout unless the time of the last call of `triggerDlpTimeout` has passed. -/
def TimeoutsDue (lib : Library) (second : Nat) (c : Clocked World Nat)
    (events : List (Nat × Event)) : Prop :=
  ∀ pre post c₁ out₁, events = pre ++ post →
    (clockedSystem lib second).run c pre = some (c₁, out₁) →
    ∀ t event c₂ out₂, (clockedSystem lib second).step c₁ (t, event) = some (c₂, out₂) →
      TimesOut event out₂ →
      ∃ called exceptionTime,
        c₁.timer = some (called, max exceptionTime c₁.state.operation.dlpTimeout * second) ∧
        called + max exceptionTime c₁.state.operation.dlpTimeout * second ≤ t

/-- The timer was set by `triggerDlpTimeout`. -/
def TimerTriggered (second : Nat) (c : Clocked World Nat) : Prop :=
  ∀ called time, c.timer = some (called, time) →
    ∃ exceptionTime, time = max exceptionTime c.state.operation.dlpTimeout * second

variable {lib : Library} {second : Nat} {c c' : Clocked World Nat} {e : Nat × Event}
  {events : List (Nat × Event)} {out : List Observation}

theorem timerTriggered_step (h : TimerTriggered second c)
    (hstep : (clockedSystem lib second).step c e = some (c', out)) : TimerTriggered second c' := by
  have hclocked := TimerUse.step_clocked hstep
  have hworld : c.state.step lib e.2 = some (c'.state, out) := hclocked.step
  intro called time htimer
  rw [(World.configured_step hworld).dlpTimeout]
  rw [hclocked.timer] at htimer
  cases hlast : (timerUse lib second).last? out with
  | none =>
    rw [hlast] at htimer
    exact h called time htimer
  | some set =>
    rw [hlast] at htimer
    cases htimer
    obtain ⟨o, ho, hset⟩ := (timerUse lib second).last?_eq_some hlast
    simp only [timerUse] at hset
    split at hset
    next seconds =>
      cases hset
      obtain ⟨exceptionTime, rfl⟩ := World.triggers_step hworld ho
      exact ⟨exceptionTime, rfl⟩
    next => cases hset

/-- A queued handler can run at once. -/
theorem step_expired (hqueued : .expired ∈ c.state.loop.queue) {t : Nat} (ht : c.now ≤ t) :
    ∃ c₂ out₂, (clockedSystem lib second).step c (t, .timerHandler .expired) = some (c₂, out₂) ∧
      TimesOut (.timerHandler .expired) out₂ := by
  have hstep : ∃ w, (system lib).step c.state (.timerHandler .expired) =
      some (w, (c.state.operation.timerHandler .expired).2.map .call) := by
    simp only [system, World.step, EventLoop.take, if_pos hqueued, Option.map_some]
    exact ⟨_, rfl⟩
  obtain ⟨w, hstep⟩ := hstep
  obtain ⟨c₂, hclocked⟩ :=
    (timerUse lib second).exists_step_clocked ht (by simp [timerUse]) hstep
  exact ⟨c₂, _, hclocked, rfl, List.mem_cons_self ..⟩

theorem timeoutsDue_iff (htriggered : TimerTriggered second c) :
    TimeoutsDue lib second c events ↔ ∀ pre post c₁ out₁, events = pre ++ post →
      (clockedSystem lib second).run c pre = some (c₁, out₁) → (timerUse lib second).Due c₁ := by
  constructor
  · intro h pre post c₁ out₁ hsplit hpre hqueued
    obtain ⟨c₂, out₂, hstep, htimesOut⟩ := step_expired hqueued (Nat.le_refl c₁.now)
    obtain ⟨called, exceptionTime, htimer, hpassed⟩ :=
      h pre post c₁ out₁ hsplit hpre c₁.now _ c₂ out₂ hstep htimesOut
    unfold Clocked.Passed
    rw [htimer]
    exact hpassed
  · rintro h pre post c₁ out₁ hsplit hpre t event c₂ out₂ hstep ⟨rfl, -⟩
    have hclocked := TimerUse.step_clocked hstep
    have hworld : c₁.state.step lib (.timerHandler .expired) = some (c₂.state, out₂) :=
      hclocked.step
    have hqueued := (World.step_timerHandler hworld).1
    have hpassed : c₁.Passed c₁.now := h pre post c₁ out₁ hsplit hpre hqueued
    have hset : TimerTriggered second c₁ := (clockedSystem lib second).run_invariant
      (fun _ _ _ _ h hstep => timerTriggered_step h hstep) htriggered hpre
    unfold Clocked.Passed at hpassed
    split at hpassed
    · exact hpassed.elim
    next called time htimer =>
      obtain ⟨exceptionTime, rfl⟩ := hset called time htimer
      exact ⟨called, exceptionTime, htimer, hpassed.trans hclocked.now_le⟩

/-- In every run of an operation: `finished` is not called with the reason DLP Timeout before the
time set last has passed, exactly if the timer is not set anew, for a time other than zero, while
the handler of an elapsed wait is still queued. -/
theorem hostOperation_timeouts_iff (lib : Library) (second : Nat) {kind : OperationType}
    {targetId : TargetId} {dlpTimeout : Nat} {portOption : Bool} {now : Nat}
    {events : List (Nat × Event)} {c' : Clocked World Nat} {out : List Observation}
    (hrun : (clockedSystem lib second).run
      { state := World.ofOperation kind targetId dlpTimeout portOption, now } events =
        some (c', out)) :
    TimeoutsDue lib second
        { state := World.ofOperation kind targetId dlpTimeout portOption, now } events ↔
      (clockedSystem lib second).Throughout (timerUse lib second).Undisturbed
        { state := World.ofOperation kind targetId dlpTimeout portOption, now } events := by
  -- the timer has not been set, and no handler is queued
  have hnever : TimerTriggered second
      { state := World.ofOperation kind targetId dlpTimeout portOption, now } :=
    fun _ _ h => nomatch h
  have hdue : (timerUse lib second).Due
      { state := World.ofOperation kind targetId dlpTimeout portOption, now } :=
    fun h => absurd h List.not_mem_nil
  rw [timeoutsDue_iff hnever]
  exact TimerUse.due_run_iff hdue hrun

/-- An upload that is accepted and then hears nothing. -/
theorem hostOperation_timeouts_silent :
    ∃ c' out, (clockedSystem { raw := .bigEndian, generateCheckValue := fun _ _ => {} } 1).run
        { state := World.ofOperation .upload (.ofText (text "ABCD_1")) 10 false, now := 0 }
        [(0, .start .started),
          (1, .completed .initialisation .successful [0, 0, 0, 9, 0x41, 0x34, 0, 1, 0]),
          (11, .timerElapses .expired)] = some (c', out) ∧
      (TimeoutsDue { raw := .bigEndian, generateCheckValue := fun _ _ => {} } 1
          { state := World.ofOperation .upload (.ofText (text "ABCD_1")) 10 false, now := 0 }
          [(0, .start .started),
            (1, .completed .initialisation .successful [0, 0, 0, 9, 0x41, 0x34, 0, 1, 0]),
            (11, .timerElapses .expired)] ↔
        (clockedSystem { raw := .bigEndian, generateCheckValue := fun _ _ => {} } 1).Throughout
          (timerUse { raw := .bigEndian, generateCheckValue := fun _ _ => {} } 1).Undisturbed
          { state := World.ofOperation .upload (.ofText (text "ABCD_1")) 10 false, now := 0 }
          [(0, .start .started),
            (1, .completed .initialisation .successful [0, 0, 0, 9, 0x41, 0x34, 0, 1, 0]),
            (11, .timerElapses .expired)]) :=
  ⟨_, _, rfl, hostOperation_timeouts_iff _ 1 rfl⟩

/-- A status file of an upload in progress completes at the moment the wait expires: the target has
just been given another ten seconds, and the operation is finished with a timeout. -/
theorem hostUpload_times_out_early :
    ∃ c' out, (clockedSystem { raw := .bigEndian, generateCheckValue := fun _ _ => {} } 1).run
        { state := World.ofOperation .upload (.ofText (text "ABCD_1")) 10 false, now := 0 }
        ([(0, .start .started),
          (1, .completed .initialisation .successful [0, 0, 0, 9, 0x41, 0x34, 0, 1, 0]),
          (9, .tftpRequest ⟨0, 0⟩ .write (text "ABCD_1.LUS") {}),
          (11, .timerElapses .expired),
          (11, .completed (.status 0) .successful
            [0, 0, 0, 20, 0x41, 0x34, 0, 2, 0, 0, 0, 0, 0, 0, 0, 0x30, 0x30, 0x30, 0, 0])] ++
          [(11, .timerHandler .expired)]) = some (c', out) ∧
      ¬TimeoutsDue { raw := .bigEndian, generateCheckValue := fun _ _ => {} } 1
        { state := World.ofOperation .upload (.ofText (text "ABCD_1")) 10 false, now := 0 }
        ([(0, .start .started),
          (1, .completed .initialisation .successful [0, 0, 0, 9, 0x41, 0x34, 0, 1, 0]),
          (9, .tftpRequest ⟨0, 0⟩ .write (text "ABCD_1.LUS") {}),
          (11, .timerElapses .expired),
          (11, .completed (.status 0) .successful
            [0, 0, 0, 20, 0x41, 0x34, 0, 2, 0, 0, 0, 0, 0, 0, 0, 0x30, 0x30, 0x30, 0, 0])] ++
          [(11, .timerHandler .expired)]) := by
  obtain ⟨c, out, hrun, hnow, htimer, hqueued⟩ : ∃ c out,
      (clockedSystem { raw := .bigEndian, generateCheckValue := fun _ _ => {} } 1).run
        { state := World.ofOperation .upload (.ofText (text "ABCD_1")) 10 false, now := 0 }
        [(0, .start .started),
          (1, .completed .initialisation .successful [0, 0, 0, 9, 0x41, 0x34, 0, 1, 0]),
          (9, .tftpRequest ⟨0, 0⟩ .write (text "ABCD_1.LUS") {}),
          (11, .timerElapses .expired),
          (11, .completed (.status 0) .successful
            [0, 0, 0, 20, 0x41, 0x34, 0, 2, 0, 0, 0, 0, 0, 0, 0, 0x30, 0x30, 0x30, 0, 0])] =
          some (c, out) ∧
        c.now = 11 ∧ c.timer = some (11, 10) ∧ .expired ∈ c.state.loop.queue :=
    (clockedSystem _ 1).exists_run_of_any (P := fun c _ => c.now = 11 ∧
      c.timer = some (11, 10) ∧ .expired ∈ c.state.loop.queue) (by decide +kernel)
  obtain ⟨c₂, out₂, hstep, htimesOut⟩ := step_expired hqueued hnow.le
  refine ⟨c₂, _, Reactive.run_append _ hrun (Reactive.run_cons_of_step _ hstep rfl), fun hdue => ?_⟩
  obtain ⟨called, exceptionTime, hset, hpassed⟩ :=
    hdue _ _ c out rfl hrun 11 _ c₂ out₂ hstep htimesOut
  obtain ⟨rfl, htime⟩ := Prod.mk.inj (Option.some.inj (htimer.symm.trans hset))
  rw [← htime] at hpassed
  exact absurd hpassed (by decide)

end Arinc615a.Host
