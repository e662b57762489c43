import Arinc615a.Tftp.ClientRuns

/-!
# Retries of a client operation

`tftp/clients/implementation/OperationImpl.cpp`: how often a client operation repeats its TFTP
operation.  The retries are counted in 16 bits, before they are compared with the permitted ones.
-/

open Reasoning

namespace Arinc615a.Tftp

/-- How a TFTP operation ends, as far as it matters for the retries. -/
inductive Ending where
  | successful
  /-- The server asks for another request after a time. -/
  | deferred (waitTime : Nat)
  /-- It is aborted, by the local instance or by the server. -/
  | aborted (status : TransferStatus)
  | failed
  deriving DecidableEq, Repr

namespace Ending

/-- An end that is neither a success nor a `WAIT`. -/
def isUnsuccessful : Ending → Bool
  | .successful => false
  | .deferred _ => false
  | .aborted _ => true
  | .failed => true

end Ending

def ending (handleAbort : Bool) (status : TransferStatus)
    (errorInformation : Option ErrorInformation) : Ending :=
  match status, errorInformation with
  | .successful, _ => .successful
  | .aborted, _ => .aborted .aborted
  | .requestError, some (errorCode, errorMessage) =>
    match errorMessageType (some (errorCode, errorMessage)) with
    | .abort =>
      if handleAbort then
        match decodeAbortMessage errorMessage with
        | .operationAbortedByDlp => .aborted .operationAbortedByDlp
        | .operationAbortedByOperator => .aborted .operationAbortedByOperator
        | _ => .failed
      else .failed
    | .wait =>
      match decodeWaitMessage errorMessage with
      | some waitTime => .deferred waitTime
      | none => .failed
    | .invalid => .failed
  | _, _ => .failed

/-- What an operation does at each end of its TFTP operation. -/
def ClientOperation.after (op : ClientOperation) : Ending → ClientOperation × ClientAction
  | .successful => (op, .completed .successful)
  | .deferred waitTime => (op, .deferred waitTime)
  | .aborted status => (op, .completed status)
  | .failed => op.retry

/-- Only the kind of the end decides how a client operation goes on. -/
theorem ClientOperation.handleCompletion_eq_after (op : ClientOperation) (status : TransferStatus)
    (errorInformation : Option ErrorInformation) :
    op.handleCompletion status errorInformation =
      op.after (ending op.handleAbort status errorInformation) := by
  cases status with
  | requestError =>
    cases errorInformation with
    | none => rfl
    | some information =>
      obtain ⟨errorCode, errorMessage⟩ := information
      simp only [handleCompletion, ending]
      cases errorMessageType (some (errorCode, errorMessage)) with
      | invalid => rfl
      | wait =>
        dsimp only
        cases decodeWaitMessage errorMessage with
        | none => rfl
        | some waitTime => rfl
      | abort =>
        dsimp only
        cases op.handleAbort with
        | false => rfl
        | true => cases decodeAbortMessage errorMessage <;> rfl
  | _ => rfl

/-- While the counter is below its last value, a failure is repeated as long as retries are
permitted. -/
theorem ClientOperation.retry_of_lt {op : ClientOperation} (h : op.retries.toNat < 65535) :
    op.retry.1.retries.toNat = op.retries.toNat + 1 ∧
      op.retry.2 = if op.dlpRetries.toNat ≤ op.retries.toNat then
        .completed .communicationError else .request := by
  have hnext : (op.retries + 1).toNat = op.retries.toNat + 1 := by
    rw [UInt16.toNat_add]
    exact Nat.mod_eq_of_lt (Nat.succ_lt_succ h)
  unfold retry
  dsimp only
  split
  next hlt =>
    rw [UInt16.lt_iff_toNat_lt, hnext] at hlt
    exact ⟨hnext, (if_pos (Nat.lt_succ_iff.mp hlt)).symm⟩
  next hlt =>
    rw [UInt16.lt_iff_toNat_lt, hnext] at hlt
    exact ⟨hnext, (if_neg fun hle => hlt (Nat.lt_succ_iff.mpr hle)).symm⟩

theorem ClientOperation.retry_keeps (op : ClientOperation) :
    op.retry.1.handleAbort = op.handleAbort ∧ op.retry.1.dlpRetries = op.dlpRetries := by
  unfold retry
  dsimp only
  split <;> exact ⟨rfl, rfl⟩

/-- If all values of the counter are permitted, every failure is repeated. -/
theorem ClientOperation.retry_of_max {op : ClientOperation} (h : op.dlpRetries = 65535) :
    op.retry = ({ op with retries := op.retries + 1 }, .request) := by
  unfold retry
  dsimp only
  rw [h, if_neg]
  rw [UInt16.lt_iff_toNat_lt]
  exact Nat.not_lt.mpr (Nat.le_of_lt_succ (op.retries + 1).toNat_lt)

namespace ClientWorld

/-! ## Steps -/

def Event.ending? (handleAbort : Bool) : Event → Option Ending
  | .transferCompletes _ status errorInformation => some (ending handleAbort status errorInformation)
  | _ => none

def Event.isUnsuccessful (handleAbort : Bool) (event : Event) : Bool :=
  (event.ending? handleAbort).any Ending.isUnsuccessful

def Event.isFailure (handleAbort : Bool) (event : Event) : Bool :=
  event.ending? handleAbort = some .failed

variable {w w' : ClientWorld} {event : Event} {out : List Observation}

theorem operation_cancelWait (w : ClientWorld) : w.cancelWait.operation = w.operation := by
  unfold cancelWait
  split <;> rfl

theorem operation_act (w : ClientWorld) (request : Nat) (action : ClientAction) :
    (w.act request action).1.operation = w.operation := by
  cases action with
  | completed status => rfl
  | deferred waitTime => exact operation_cancelWait w
  | request => rfl

/-- The end of a TFTP operation is handled as its kind says. -/
theorem step_of_ending {e : Ending} (hend : event.ending? w.operation.handleAbort = some e)
    (hstep : w.step event = some (w', out)) :
    w.held ≠ [] ∧ w'.operation = (w.operation.after e).1 ∧
      ∃ v request, out = (act v request (w.operation.after e).2).2 := by
  obtain ⟨r, hruns, rfl, rfl⟩ := step_cases hstep
  cases hruns with
  | transferCompletes request status errorInformation hmem =>
    have hheld : w.held ≠ [] := List.ne_nil_of_mem (a := request) (by simp [held, hmem])
    simp only [handleCompletion, ClientOperation.handleCompletion_eq_after, Option.some.inj hend]
    exact ⟨hheld, operation_act _ _ _, _, request, rfl⟩
  | _ => cases hend

/-- Only a request adds to the requests, and only it and the end of a TFTP operation change the
operation. -/
theorem step_frame (hrequest : event ≠ .request) (hstep : w.step event = some (w', out)) :
    w'.requests = w.requests ∧
      (event.ending? w.operation.handleAbort = none → w'.operation = w.operation) := by
  obtain ⟨r, hruns, rfl, rfl⟩ := step_cases hstep
  cases hruns with
  | request => exact absurd rfl hrequest
  | gracefulAbort | abort => exact ⟨requests_cancelWait w, fun _ => operation_cancelWait w⟩
  | transferCompletes request status errorInformation =>
    refine ⟨(passes_handleCompletion _ request status errorInformation).2, fun hend => ?_⟩
    cases hend
  | waitElapses => exact ⟨rfl, fun _ => rfl⟩
  | waitHandler request result =>
    refine ⟨(passes_handleWaitTimeout _ request result).2, fun _ => ?_⟩
    cases result <;> rfl

/-- Between requests, what is no longer held has been completed. -/
theorem length_held_step (hrequest : event ≠ .request) (hstep : w.step event = some (w', out)) :
    w'.held.length + (out.filterMap Observation.request?).length = w.held.length := by
  have hlength := (step_keeps hstep).2.length_eq
  rw [(step_frame hrequest hstep).1, Nat.sub_self, List.range'_zero, List.append_nil,
    List.length_append] at hlength
  exact hlength

/-! ## Runs -/

/-- How many TFTP operations have ended neither successfully nor with a `WAIT`. -/
def unsuccessful (handleAbort : Bool) (events : List Event) : Nat :=
  events.countP (Event.isUnsuccessful handleAbort)

def failures (handleAbort : Bool) (events : List Event) : Nat :=
  events.countP (Event.isFailure handleAbort)

variable {op : ClientOperation} {past events : List Event}

theorem unsuccessful_concat (handleAbort : Bool) (past : List Event) (event : Event) :
    unsuccessful handleAbort (past ++ [event]) =
      unsuccessful handleAbort past + if event.isUnsuccessful handleAbort then 1 else 0 := by
  rw [unsuccessful, List.countP_append, List.countP_singleton, unsuccessful]

theorem failures_concat (handleAbort : Bool) (past : List Event) (event : Event) :
    failures handleAbort (past ++ [event]) =
      failures handleAbort past + if event.isFailure handleAbort then 1 else 0 := by
  rw [failures, List.countP_append, List.countP_singleton, failures]

theorem failures_le_append (handleAbort : Bool) (past events : List Event) :
    failures handleAbort past ≤ failures handleAbort (past ++ events) :=
  (List.sublist_append_left past events).countP_le

/-- The counter does not come to its end, or is not the one that decides. -/
def Countable (op : ClientOperation) (events : List Event) : Prop :=
  op.dlpRetries ≠ 65535 ∨ failures op.handleAbort events ≤ 65535

theorem Countable.of_append (h : Countable op (past ++ events)) : Countable op past :=
  h.imp_right (Nat.le_trans (failures_le_append _ past events))

/-- How far an operation is that was set up as `op`; `past` are the events since its request. -/
structure Progress (op : ClientOperation) (past : List Event) (w : ClientWorld) : Prop where
  handleAbort : w.operation.handleAbort = op.handleAbort
  dlpRetries : w.operation.dlpRetries = op.dlpRetries
  held : w.held.length ≤ 1
  attempts : unsuccessful op.handleAbort past ≤ op.dlpRetries.toNat + 1
  /-- Until it is completed, all unsuccessful attempts are failures, and they are counted. -/
  counted : w.held ≠ [] →
    unsuccessful op.handleAbort past = failures op.handleAbort past ∧
      w.operation.retries.toNat = failures op.handleAbort past ∧
      failures op.handleAbort past ≤ op.dlpRetries.toNat

/-- A completion leaves nothing under way. -/
theorem Progress.held_of_completed (h : Progress op past w) (hrequest : event ≠ .request)
    {request : Nat} {status : TransferStatus}
    (hstep : w.step event = some (w', [.completed request status])) : w'.held = [] := by
  have hlength := length_held_step hrequest hstep
  have hone : ([Observation.completed request status].filterMap Observation.request?).length = 1 :=
    rfl
  have hheld := h.held
  exact List.length_eq_zero_iff.mp (by omega)

/-- The counter is below its last value when an attempt fails. -/
theorem Progress.retry (h : Progress op past w) (hheld : w.held ≠ [])
    (hfailure : event.ending? op.handleAbort = some .failed)
    (hcountable : Countable op (past ++ [event])) :
    w.operation.retry.1.retries.toNat = failures op.handleAbort past + 1 ∧
      w.operation.retry.2 = if op.dlpRetries.toNat ≤ failures op.handleAbort past then
        .completed .communicationError else .request := by
  obtain ⟨-, hretries, hpermitted⟩ := h.counted hheld
  have hlt : w.operation.retries.toNat < 65535 := by
    rw [hretries]
    rcases hcountable with hdlp | hfew
    · have hbound := op.dlpRetries.toNat_lt
      have hne : op.dlpRetries.toNat ≠ 65535 := fun heq => hdlp (UInt16.toNat_inj.mp heq)
      omega
    · rw [failures_concat, Event.isFailure, hfailure, if_pos (by simp)] at hfew
      exact hfew
  have hretry := ClientOperation.retry_of_lt hlt
  rwa [hretries, h.dlpRetries] at hretry

/-- Any end of an attempt that is still under way may come next. -/
theorem Progress.attempts_concat (h : Progress op past w) (hheld : w.held ≠ []) (event : Event) :
    unsuccessful op.handleAbort (past ++ [event]) ≤ op.dlpRetries.toNat + 1 := by
  obtain ⟨hequal, -, hpermitted⟩ := h.counted hheld
  rw [unsuccessful_concat, hequal]
  split
  · exact Nat.succ_le_succ hpermitted
  · exact Nat.le_succ_of_le hpermitted

/-- An event that counts as no attempt leaves the progress as it is, together with the
operation. -/
theorem Progress.of_same (h : Progress op past w)
    (hunsuccessful : event.isUnsuccessful op.handleAbort = false)
    (hfailure : event.isFailure op.handleAbort = false)
    (hoperation : w'.operation = w.operation) (hheld : w'.held.length ≤ 1)
    (hkept : w'.held ≠ [] → w.held ≠ []) : Progress op (past ++ [event]) w' := by
  have hsame : unsuccessful op.handleAbort (past ++ [event]) = unsuccessful op.handleAbort past := by
    rw [unsuccessful_concat, hunsuccessful]
    rfl
  have hfailures : failures op.handleAbort (past ++ [event]) = failures op.handleAbort past := by
    rw [failures_concat, hfailure]
    rfl
  refine ⟨hoperation ▸ h.handleAbort, hoperation ▸ h.dlpRetries, hheld, hsame ▸ h.attempts,
    fun hne => ?_⟩
  rw [hsame, hfailures, hoperation]
  exact h.counted (hkept hne)

/-- A failed attempt is counted, as long as the operation goes on. -/
theorem Progress.of_failed (h : Progress op past w) (hbefore : w.held ≠ [])
    (hend : event.ending? op.handleAbort = some .failed)
    (hcountable : Countable op (past ++ [event]))
    (hoperation : w'.operation = w.operation.retry.1) (hheld : w'.held.length ≤ 1)
    (hgoes : w'.held ≠ [] → w.operation.retry.2 ≠ .completed .communicationError) :
    Progress op (past ++ [event]) w' := by
  obtain ⟨hequal, hretries, hpermitted⟩ := h.counted hbefore
  obtain ⟨hnext, haction⟩ := h.retry hbefore hend hcountable
  obtain ⟨hhandleAbort, hdlpRetries⟩ := w.operation.retry_keeps
  have hunsuccessful : unsuccessful op.handleAbort (past ++ [event]) =
      failures op.handleAbort past + 1 := by
    rw [unsuccessful_concat, Event.isUnsuccessful, hend, hequal]
    rfl
  have hfailures : failures op.handleAbort (past ++ [event]) = failures op.handleAbort past + 1 := by
    rw [failures_concat, Event.isFailure, hend]
    rfl
  refine ⟨?_, ?_, hheld, h.attempts_concat hbefore event, fun hne => ?_⟩
  · rw [hoperation]
    exact hhandleAbort.trans h.handleAbort
  · rw [hoperation]
    exact hdlpRetries.trans h.dlpRetries
  · rw [hunsuccessful, hfailures, hoperation]
    refine ⟨rfl, hnext, ?_⟩
    -- the last permitted attempt would have completed the operation
    by_contra hlast
    rw [if_pos (Nat.lt_succ_iff.mp (Nat.not_le.mp hlast))] at haction
    exact hgoes hne haction

theorem Progress.step (h : Progress op past w) (hrequest : event ≠ .request)
    (hcountable : Countable op (past ++ [event])) (hstep : w.step event = some (w', out)) :
    Progress op (past ++ [event]) w' := by
  have hlength := length_held_step hrequest hstep
  have hheld : w'.held.length ≤ 1 := Nat.le_trans (Nat.le.intro hlength) h.held
  have hkept : w'.held ≠ [] → w.held ≠ [] := by
    intro hne hnil
    rw [hnil, List.length_nil, Nat.add_eq_zero_iff] at hlength
    exact hne (List.length_eq_zero_iff.mp hlength.1)
  cases hend : event.ending? op.handleAbort with
  | none =>
    have hsame := (step_frame hrequest hstep).2 (h.handleAbort ▸ hend)
    exact h.of_same (by simp [Event.isUnsuccessful, hend]) (by simp [Event.isFailure, hend]) hsame
      hheld hkept
  | some e =>
    obtain ⟨hbefore, hoperation, v, request, rfl⟩ := step_of_ending (h.handleAbort ▸ hend) hstep
    cases e with
    | successful | aborted =>
      exact ⟨hoperation ▸ h.handleAbort, hoperation ▸ h.dlpRetries, hheld,
        h.attempts_concat hbefore event,
        fun hne => absurd (h.held_of_completed hrequest hstep) hne⟩
    | deferred waitTime =>
      -- a wait leaves the operation as it is
      exact h.of_same (by rw [Event.isUnsuccessful, hend]; rfl)
        (by simp [Event.isFailure, hend]) hoperation hheld hkept
    | failed =>
      refine h.of_failed hbefore hend hcountable hoperation hheld fun hne haction => ?_
      simp only [ClientOperation.after, haction] at hstep
      exact hne (h.held_of_completed hrequest hstep)

/-- What is asked of the retries of an operation that has been requested: there are at most
`dlpRetries + 1` unsuccessful attempts, a `WAIT` leaves the counter as it is, and the failure of the
last permitted attempt is a communication error. -/
structure KeepsRetries (w : ClientWorld) (events : List Event) : Prop where
  attempts : unsuccessful w.operation.handleAbort events ≤ w.operation.dlpRetries.toNat + 1
  deferred : ∀ pre event post w₁ out₁ w₂ out₂ waitTime, events = pre ++ event :: post →
    clientSystem.run w pre = some (w₁, out₁) → w₁.step event = some (w₂, out₂) →
    event.ending? w.operation.handleAbort = some (.deferred waitTime) →
      w₂.operation.retries = w₁.operation.retries ∧ out₂ = [.waitStart waitTime, .deferred waitTime]
  exhausted : ∀ pre event post w₁ out₁ w₂ out₂, events = pre ++ event :: post →
    clientSystem.run w pre = some (w₁, out₁) → w₁.step event = some (w₂, out₂) →
    unsuccessful w.operation.handleAbort pre = w.operation.dlpRetries.toNat →
    event.ending? w.operation.handleAbort = some .failed →
      ∃ request, out₂ = [.completed request .communicationError]

/-- Nothing is under way when the operation is requested. -/
theorem progress_request (hidle : w.held = []) : Progress w.operation [] w.request.1 where
  handleAbort := rfl
  dlpRetries := rfl
  held := by
    have hheld : w.request.1.held = w.requests :: w.held := rfl
    rw [hheld, hidle]
    exact Nat.le_refl 1
  attempts := Nat.zero_le _
  counted _ := ⟨rfl, rfl, Nat.zero_le _⟩

theorem progress_run (hidle : w.held = []) (hevents : .request ∉ events)
    (hcountable : Countable w.operation events)
    (hrun : clientSystem.run w.request.1 events = some (w', out)) :
    Progress w.operation events w' := by
  have hinv := clientSystem.run_past
    (P := fun past v => Event.request ∉ past → Countable w.operation past →
      Progress w.operation past v)
    (fun past v event v' out h hstep hnone hcount => by
      rw [List.mem_append, not_or, List.mem_singleton] at hnone
      exact (h hnone.1 hcount.of_append).step (Ne.symm hnone.2) hcount hstep)
    (fun _ _ => progress_request hidle) hrun
  exact hinv hevents hcountable

/-- The failure that comes behind a number of others. -/
theorem exists_failure {handleAbort : Bool} {n : Nat} (h : n < failures handleAbort events) :
    ∃ pre event post, events = pre ++ event :: post ∧
      event.ending? handleAbort = some .failed ∧ failures handleAbort pre = n := by
  induction events generalizing n with
  | nil => exact absurd h (Nat.not_lt_zero n)
  | cons event events ih =>
    have hcons (tail : List Event) : failures handleAbort (event :: tail) =
        failures handleAbort tail + if event.isFailure handleAbort then 1 else 0 :=
      List.countP_cons
    rw [hcons] at h
    by_cases hfailure : event.isFailure handleAbort
    · rw [if_pos hfailure] at h
      cases n with
      | zero => exact ⟨[], event, events, rfl, of_decide_eq_true hfailure, rfl⟩
      | succ n =>
        obtain ⟨pre, later, post, rfl, hlater, hpre⟩ := ih (Nat.lt_of_succ_lt_succ h)
        refine ⟨event :: pre, later, post, rfl, hlater, ?_⟩
        rw [hcons, hpre, if_pos hfailure]
    · rw [if_neg hfailure] at h
      obtain ⟨pre, later, post, rfl, hlater, hpre⟩ := ih h
      refine ⟨event :: pre, later, post, rfl, hlater, ?_⟩
      rw [hcons, hpre, if_neg hfailure]
      rfl

theorem keepsRetries_of_countable (hidle : w.held = []) (hevents : .request ∉ events)
    (hcountable : Countable w.operation events)
    (hrun : clientSystem.run w.request.1 events = some (w', out)) :
    KeepsRetries w.request.1 events := by
  have hprogress : ∀ pre event post w₁ out₁, events = pre ++ event :: post →
      clientSystem.run w.request.1 pre = some (w₁, out₁) → Progress w.operation pre w₁ := by
    rintro pre event post w₁ out₁ rfl hpre
    rw [List.mem_append, not_or] at hevents
    exact progress_run hidle hevents.1 hcountable.of_append hpre
  refine ⟨(progress_run hidle hevents hcountable hrun).attempts, ?_, ?_⟩
  · intro pre event post w₁ out₁ w₂ out₂ waitTime hsplit hpre hstep hend
    have h := hprogress pre event post w₁ out₁ hsplit hpre
    obtain ⟨-, hoperation, v, request, rfl⟩ := step_of_ending (h.handleAbort ▸ hend) hstep
    rw [hoperation]
    exact ⟨rfl, rfl⟩
  · intro pre event post w₁ out₁ w₂ out₂ hsplit hpre hstep hlast hend
    have h := hprogress pre event post w₁ out₁ hsplit hpre
    obtain ⟨hheld, -, v, request, rfl⟩ := step_of_ending (h.handleAbort ▸ hend) hstep
    have hthis : Countable w.operation (pre ++ [event]) := by
      rw [hsplit, List.append_cons] at hcountable
      exact hcountable.of_append
    -- the failures so far are all the attempts that are permitted but one
    have hfailures : failures w.operation.handleAbort pre = w.operation.dlpRetries.toNat :=
      (h.counted hheld).1.symm.trans hlast
    obtain ⟨-, haction⟩ := h.retry hheld hend hthis
    rw [if_pos hfailures.ge] at haction
    exact ⟨request, by rw [ClientOperation.after, haction]; rfl⟩

/-- From every state in which nothing is under way: an operation that is requested keeps to its
retries, exactly if `dlpRetries` is not the last value of the counter, or no more of its TFTP
operations fail than can be counted. -/
theorem clientOperation_retries_iff (hidle : w.held = []) (hevents : .request ∉ events)
    (hrun : clientSystem.run w (.request :: events) = some (w', out)) :
    KeepsRetries w.request.1 events ↔
      w.operation.dlpRetries ≠ 65535 ∨ failures w.operation.handleAbort events ≤ 65535 := by
  obtain ⟨v, _, out', hrequest, hrest, -⟩ := clientSystem.run_cons hrun
  cases hrequest
  refine ⟨fun hkeeps => ?_, fun h => keepsRetries_of_countable hidle hevents h hrest⟩
  by_contra hnot
  rw [not_or, not_ne_iff, Nat.not_le] at hnot
  obtain ⟨hmax, hmany⟩ := hnot
  obtain ⟨pre, event, post, rfl, hend, hpre⟩ := exists_failure hmany
  obtain ⟨w₁, out₁, out₂, hbefore, hafter⟩ := clientSystem.run_cut hrest
  obtain ⟨w₂, out₃, out₄, hstep, -, -⟩ := clientSystem.run_cons hafter
  rw [List.mem_append, not_or] at hevents
  have hprogress := progress_run hidle hevents.1 (.inr hpre.le) hbefore
  obtain ⟨hheld, -, u, request, rfl⟩ := step_of_ending (hprogress.handleAbort ▸ hend) hstep
  have hlast : unsuccessful w.operation.handleAbort pre = w.operation.dlpRetries.toNat := by
    rw [(hprogress.counted hheld).1, hpre, hmax]
    rfl
  obtain ⟨number, hcompleted⟩ :=
    hkeeps.exhausted pre event post w₁ out₁ w₂ _ rfl hbefore hstep hlast hend
  -- the counter is back at zero, and the operation is repeated
  rw [ClientOperation.after, ClientOperation.retry_of_max (hprogress.dlpRetries.trans hmax)]
    at hcompleted
  cases hcompleted

/-- One retry, and two TFTP operations that fail with a wait between them. -/
theorem clientOperation_retries_waited :
    ∃ w' out, clientSystem.run { operation := { dlpRetries := 1 } } [.request,
        .transferCompletes 0 .communicationError none,
        .transferCompletes 0 .requestError (some (.notDefined, text "WAIT:5")),
        .waitElapses .expired, .waitHandler 0 .expired,
        .transferCompletes 0 .communicationError none] = some (w', out) ∧
      (KeepsRetries (request { operation := { dlpRetries := 1 } }).1 [
          .transferCompletes 0 .communicationError none,
          .transferCompletes 0 .requestError (some (.notDefined, text "WAIT:5")),
          .waitElapses .expired, .waitHandler 0 .expired,
          .transferCompletes 0 .communicationError none] ↔
        (1 : UInt16) ≠ 65535 ∨ failures false [
          .transferCompletes 0 .communicationError none,
          .transferCompletes 0 .requestError (some (.notDefined, text "WAIT:5")),
          .waitElapses .expired, .waitHandler 0 .expired,
          .transferCompletes 0 .communicationError none] ≤ 65535) :=
  ⟨_, _, rfl, clientOperation_retries_iff (w := { operation := { dlpRetries := 1 } }) rfl
    (by simp) rfl⟩

/-- An operation under way for which all values of the counter are permitted. -/
def persistent (retries : UInt16) : ClientWorld where
  operation := { dlpRetries := 65535, retries }
  current := true
  transfers := [0]
  requests := 1

/-- It repeats its failures for ever. -/
theorem run_failures (n : Nat) (retries : UInt16) :
    ∃ w' out, clientSystem.run (persistent retries)
      (List.replicate n (.transferCompletes 0 .communicationError none)) = some (w', out) := by
  induction n generalizing retries with
  | zero => exact ⟨_, _, rfl⟩
  | succ n ih =>
    obtain ⟨w', out, hrun⟩ := ih (retries + 1)
    have hstep : clientSystem.step (persistent retries)
        (.transferCompletes 0 .communicationError none) =
          some (persistent (retries + 1), [.tftpRequest]) := by
      simp only [clientSystem, step, handleCompletion, ClientOperation.handleCompletion]
      rw [ClientOperation.retry_of_max rfl]
      rfl
    exact ⟨w', _, clientSystem.run_cons_of_step hstep hrun⟩

/-- With 65535 retries a target that never answers is asked again and again. -/
theorem clientOperation_retries_endless :
    ∃ w' out, clientSystem.run { operation := { dlpRetries := 65535 } }
        (.request :: List.replicate 65537 (.transferCompletes 0 .communicationError none)) =
          some (w', out) ∧
      ¬KeepsRetries (request { operation := { dlpRetries := 65535 } }).1
        (List.replicate 65537 (.transferCompletes 0 .communicationError none)) := by
  obtain ⟨w', out, hrun⟩ := run_failures 65537 0
  refine ⟨w', _, clientSystem.run_cons_of_step rfl hrun, fun hkeeps => ?_⟩
  have hattempts := hkeeps.attempts
  have hfailure : Event.isUnsuccessful false (.transferCompletes 0 .communicationError none) :=
    rfl
  rw [unsuccessful, List.countP_replicate] at hattempts
  exact absurd ((if_pos hfailure).ge.trans hattempts) (by decide)

end ClientWorld

end Arinc615a.Tftp
