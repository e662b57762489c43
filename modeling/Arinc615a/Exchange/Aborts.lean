import Arinc615a.Exchange.World
import Arinc615a.Host.Aborts
import Arinc615a.Target.Aborts
import Arinc615a.Target.StatusTransfers
import Arinc615a.Tftp.Client

/-!
# Aborts between host and target

A host operation and a target operation, with the requests for status files on their way to the
host, and the aborts that the host answers with on their way to the target.  Every answer arrives
once, at any time.  What the host does besides is arbitrary, and so is the end of every status file
that is not answered with an abort.
-/

open Reasoning

namespace Arinc615a.Exchange

open Files Information Tftp

/-- An abort that the host has answered a status file with, and the first reason that had been
requested when it did. -/
structure AbortAnswer where
  transfer : Nat
  error : ErrorInformation
  reason : Host.AbortReason
  deriving DecidableEq

structure Session where
  host : Host.World
  target : Target.World
  /-- The status files that the target sends. -/
  transfers : Member Target.AnyStatus := {}
  /-- The client operation of a status file. -/
  client : ClientOperation
  requests : List (Nat × Text) := []
  answers : List AbortAnswer := []
  /-- The first reason requested since the last abort was answered, or since the last start. -/
  requested : Host.AbortReason := .noAbort
  /-- The reason that was pending at the last start, and has not been answered since. -/
  leftover : Host.AbortReason := .noAbort
  deriving DecidableEq

inductive SessionEvent where
  | host (event : Host.Event)
  | target (event : Numbered Target.Event)
  | statusRequest (transfer : Nat) (remote : Endpoint)
  | abortAnswer (transfer : Nat)
  deriving DecidableEq

/-- What is seen of both sides.  The calls in answer to a status file, and those when an abort
arrives, come with the reason. -/
inductive SessionObservation where
  | host (observation : Host.Observation)
  | target (observation : Target.Observation)
  | statusRequested (transfer : Nat) (calls : List Host.Output) (reason : Host.AbortReason)
  | abortAnswered (transfer : Nat) (calls : List Target.Output) (reason : Host.AbortReason)
  deriving DecidableEq

/-- The error that `abortOperation` of the TFTP server answers with. -/
def abortError : Host.Output → Option ErrorInformation
  | .abortOperation _ statusCode => some (.notDefined, abortMessage statusCode)
  | _ => none

/-- The requests of the status files that are started. -/
def startedRequests : List (Seen Target.Event Target.Observation) → List (Nat × Text)
  | .output (.call (.protocolFile _ _ filename _ _ (.status _))) :: .started number active :: seen =>
    (number, filename) :: startedRequests (.started number active :: seen)
  | _ :: seen => startedRequests seen
  | [] => []

/-- The end of a status file that only an abort can have. -/
def endsByAbort : Numbered Target.Event → Bool
  | .completion _ (.completed (.status _) status _) => (Target.reportedAbort status).isSome
  | _ => false

namespace Session

variable (lib : Library) (s : Session)

/-- What is known of the requested aborts when the host has taken a step. -/
def afterHost (event : Host.Event) (host : Host.World) (out : List Host.Observation) : Session :=
  if ((hostCalls out).filterMap abortError).isEmpty then
    match event with
    | .start _ =>
      { s with host := host, requested := .noAbort, leftover := s.host.operation.abortReason }
    | _ =>
      { s with host := host, requested :=
        s.requested.orElse (s.host.operation.requestedAbort lib event) }
  else { s with host := host, requested := .noAbort, leftover := .noAbort }

/-- The operation of the target and its status files after a step. -/
def afterTarget (target : Target.World) (transfers : Member Target.AnyStatus)
    (seen : List (Seen Target.Event Target.Observation)) : Session :=
  { s with
    target := target
    transfers := transfers
    requests := s.requests ++ startedRequests seen }

/-- The status file that an answer is for, if the target still holds its transfer. -/
def heard (transfer : Nat) : Option Target.AnyStatus :=
  if s.transfers.held = some transfer then s.transfers.active.lookup transfer else none

def step : SessionEvent → Option (Session × List SessionObservation)
  | .host event =>
    (s.host.step lib event).map fun (host, out) =>
      (s.afterHost lib event host out, out.map .host)
  | .target event =>
    if endsByAbort event then none
    else
      ((Target.statusTransfers lib).step (s.target, s.transfers) event).map
        fun ((target, transfers), seen) =>
          (s.afterTarget target transfers seen, (seen.filterMap Seen.output?).map .target)
  | .statusRequest transfer remote =>
    match s.requests.lookup transfer with
    | none => none
    | some filename =>
      let event := Host.Event.tftpRequest remote .write filename {}
      (s.host.step lib event).map fun (host, out) =>
        let s' := { s.afterHost lib event host out with
          requests := s.requests.erase (transfer, filename) }
        if s.host.operation.RequestsStatus remote .write filename then
          let errors := (hostCalls out).filterMap abortError
          ({ s' with answers :=
              s.answers ++ errors.map fun error => ⟨transfer, error, s.requested⟩ },
            [.statusRequested transfer (hostCalls out) s.requested])
        else (s', out.map .host)
  | .abortAnswer transfer =>
    match s.answers.find? (·.transfer = transfer) with
    | none => none
    | some answer =>
      let s := { s with answers := s.answers.erase answer }
      match s.heard transfer with
      -- the client operation is gone, and nobody hears of the answer
      | none => some (s, [.abortAnswered transfer [] answer.reason])
      | some sent =>
        match (s.client.handleCompletion .requestError (some answer.error)).2 with
        | .completed status =>
          ((Target.statusTransfers lib).step (s.target, s.transfers)
              (.completion transfer (.completed (.status sent) status []))).map
            fun ((target, transfers), seen) =>
              (s.afterTarget target transfers seen,
                [.abortAnswered transfer (targetCalls (seen.filterMap Seen.output?)) answer.reason])
        | .deferred _ | .request => none

end Session

def sessionSystem (lib : Library) : Reactive Session SessionEvent SessionObservation :=
  ⟨Session.step lib⟩

/-- What the handler of the target is told of an abort for a reason. -/
def abortRequestOf : Host.AbortReason → AbortRequest
  | .operator => .abortByOperator
  | .protocol | .noAbort => .abortByDlp

/-- A status file is answered with the first reason requested, if any, and is received otherwise;
the handler of the target is told of that reason once when the answer arrives, and of no other
abort. -/
def SessionObservation.Faithful : SessionObservation → Prop
  | .host o => ∀ remote statusCode, o ≠ .call (.abortOperation remote statusCode)
  | .target o => o.abortRequest? = none
  | .statusRequested _ calls reason =>
    if reason = .noAbort then
      ∃ id, calls.filter Host.Output.answersStatus = [.transferStart (.status id)]
    else
      ∃ remote, calls.filter Host.Output.answersStatus =
        [.abortOperation remote (Host.Operation.abortStatusCode reason)]
  | .abortAnswered _ calls reason =>
    reason ≠ .noAbort ∧
      calls.filterMap Target.Output.abortRequest? = [abortRequestOf reason]

namespace Session

/-- With an abort pending only the status files of the target are handled as such; a status file
finds no abort from before the run, unless one with the same reason has been requested since; and
the answer of the host finds the transfer that it is for. -/
def Undisturbed (s : Session) : SessionEvent → Prop
  | .host event =>
    event.RequestsStatus s.host.operation → s.host.operation.abortReason = .noAbort
  | .target _ => True
  | .statusRequest transfer remote =>
    ∀ filename, s.requests.lookup transfer = some filename →
      s.host.operation.RequestsStatus remote .write filename →
        s.leftover = .noAbort ∨ s.leftover = s.requested
  | .abortAnswer transfer => (s.heard transfer).isSome

/-! ## Steps of a session -/

/-- The pending reason is known from what has been requested, and every answer on its way tells of
the reason that it was given for. -/
structure Inv (s : Session) : Prop where
  pending : s.host.operation.abortReason = s.leftover.orElse s.requested
  handles : s.client.handleAbort = true
  answers : ∀ answer ∈ s.answers, answer.reason ≠ .noAbort ∧
    answer.error = (.notDefined, abortMessage (Host.Operation.abortStatusCode answer.reason))

variable {lib : Library} {s s' : Session} {host : Host.World} {out : List Host.Observation}

/-- The two reasons are told apart by their status codes. -/
theorem abortStatusCode_inj {a b : Host.AbortReason} (ha : a ≠ .noAbort) (hb : b ≠ .noAbort)
    (h : Host.Operation.abortStatusCode a = Host.Operation.abortStatusCode b) : a = b := by
  cases a <;> cases b <;> first | rfl | contradiction

theorem abortErrors_eq_nil (h : ∀ o, .call o ∈ out → o.answersStatus = false) :
    (hostCalls out).filterMap abortError = [] := by
  refine List.filterMap_eq_nil_iff.mpr fun o ho => ?_
  obtain ⟨observation, hmem, hcall⟩ := List.mem_filterMap.mp ho
  cases observation with
  | started => cases hcall
  | call output =>
    cases hcall
    have hsilent := h o hmem
    cases o with
    | abortOperation remote statusCode => cases hsilent
    | _ => rfl

/-- What is requested is added to what is known, if no status file is answered with an abort. -/
theorem pending_afterHost {event : Host.Event}
    (hpending : s.host.operation.abortReason = s.leftover.orElse s.requested)
    (hreason : host.operation.abortReason =
      s.host.operation.abortReason.orElse (s.host.operation.requestedAbort lib event))
    (hsilent : (hostCalls out).filterMap abortError = []) :
    (s.afterHost lib event host out).host.operation.abortReason =
      (s.afterHost lib event host out).leftover.orElse
        (s.afterHost lib event host out).requested := by
  unfold afterHost
  rw [hsilent, List.isEmpty_nil, if_pos rfl]
  cases event with
  | start result =>
    have hkept : host.operation.abortReason = s.host.operation.abortReason := by
      rw [hreason]
      exact Host.AbortReason.orElse_noAbort _
    simpa using hkept
  | _ =>
    dsimp only
    rw [hreason, hpending, Host.AbortReason.orElse_assoc]

theorem afterHost_eq (lib : Library) (s : Session) (event : Host.Event) (host : Host.World)
    (out : List Host.Observation) : ∃ requested leftover, s.afterHost lib event host out =
      { s with host := host, requested := requested, leftover := leftover } := by
  unfold afterHost
  split
  · split
    · exact ⟨_, _, rfl⟩
    · exact ⟨_, s.leftover, rfl⟩
  · exact ⟨_, _, rfl⟩

/-- A step of the host that answers no status file with an abort keeps the invariant. -/
theorem Inv.afterHost (hinv : s.Inv) {event : Host.Event}
    (hreason : host.operation.abortReason =
      s.host.operation.abortReason.orElse (s.host.operation.requestedAbort lib event))
    (hsilent : (hostCalls out).filterMap abortError = []) :
    (s.afterHost lib event host out).Inv := by
  have hpending := pending_afterHost hinv.pending hreason hsilent
  obtain ⟨requested, leftover, heq⟩ := afterHost_eq lib s event host out
  rw [heq] at hpending ⊢
  exact ⟨hpending, hinv.handles, hinv.answers⟩

theorem faithful_of_silent (h : ∀ o, .call o ∈ out → o.answersStatus = false) :
    ∀ o ∈ out.map SessionObservation.host, o.Faithful := by
  refine List.forall_mem_map.mpr fun o ho remote statusCode heq => ?_
  subst heq
  exact absurd (h _ ho) (by simp [Host.Output.answersStatus])

/-- Besides the status files of the target, no status file may be answered with an abort. -/
theorem host_spec (hinv : s.Inv) {event : Host.Event}
    (hstep : s.host.step lib event = some (host, out)) :
    ((∀ o ∈ out.map SessionObservation.host, o.Faithful) ↔
        (event.RequestsStatus s.host.operation → s.host.operation.abortReason = .noAbort)) ∧
      ((event.RequestsStatus s.host.operation → s.host.operation.abortReason = .noAbort) →
        (s.afterHost lib event host out).Inv) := by
  by_cases hstatus : event.RequestsStatus s.host.operation
  case neg =>
    obtain ⟨hreason, hsilent⟩ := Host.World.step_unanswering hstatus hstep
    exact ⟨iff_of_true (faithful_of_silent hsilent) fun h => absurd h hstatus,
      fun _ => hinv.afterHost hreason (abortErrors_eq_nil hsilent)⟩
  case pos =>
    simp only [hstatus, forall_const]
    cases event with
    | tftpRequest remote requestType filename options =>
      obtain ⟨hreason, first, hfirst, -, ⟨hpending, seconds, rfl⟩ | ⟨hnone, id, rfl⟩⟩ :=
        Host.World.step_requestsStatus hstatus hstep
      · refine ⟨iff_of_false (fun h => ?_) hpending, fun h => absurd h hpending⟩
        have hmem : Host.Output.abortOperation remote
            (Host.Operation.abortStatusCode s.host.operation.abortReason) ∈ first ++
              [Host.Output.abortOperation remote
                (Host.Operation.abortStatusCode s.host.operation.abortReason),
                Host.Output.timerStart seconds] :=
          List.mem_append_right first List.mem_cons_self
        exact h _ (List.mem_map_of_mem (List.mem_map_of_mem hmem)) remote _ rfl
      · have hnoAbort : ∀ o ∈ first ++ [.transferStart (.status id)], abortError o = none := by
          intro o ho
          rcases List.mem_append.mp ho with ho | ho
          · have hsilent := hfirst o ho
            cases o with
            | abortOperation remote statusCode => cases hsilent
            | _ => rfl
          · rw [List.mem_singleton.mp ho]
            rfl
        refine ⟨iff_of_true ?_ hnone, fun _ => hinv.afterHost ?_ ?_⟩
        · rw [List.map_map]
          refine List.forall_mem_map.mpr fun o ho remote statusCode heq => ?_
          cases heq
          cases hnoAbort _ ho
        · rw [hreason, hnone]
          rfl
        · rw [hostCalls_map]
          exact List.filterMap_eq_nil_iff.mpr hnoAbort
    | _ => cases hstatus

/-- A status file of the target is answered with the reason that is pending. -/
theorem statusRequested_faithful_iff (hinv : s.Inv) {remote : Endpoint} {filename : Text}
    (hstatus : s.host.operation.RequestsStatus remote .write filename)
    (hstep : s.host.step lib (.tftpRequest remote .write filename {}) = some (host, out))
    (transfer : Nat) :
    (SessionObservation.statusRequested transfer (hostCalls out) s.requested).Faithful ↔
      s.leftover = .noAbort ∨ s.leftover = s.requested := by
  obtain ⟨-, first, -, hwrite, ⟨hpending, seconds, rfl⟩ | ⟨hnone, id, rfl⟩⟩ :=
    Host.World.step_requestsStatus hstatus hstep
  · rw [hwrite rfl, hostCalls_map]
    have hfilter : ([Host.Output.abortOperation remote
        (Host.Operation.abortStatusCode s.host.operation.abortReason),
          .timerStart seconds]).filter Host.Output.answersStatus =
        [.abortOperation remote
          (Host.Operation.abortStatusCode s.host.operation.abortReason)] := rfl
    rw [hinv.pending] at hpending hfilter ⊢
    simp only [SessionObservation.Faithful, List.nil_append, hfilter]
    by_cases hrequested : s.requested = .noAbort
    · rw [hrequested, Host.AbortReason.orElse_noAbort] at hpending
      rw [if_pos hrequested, hrequested, or_self]
      refine iff_of_false ?_ hpending
      rintro ⟨id, hid⟩
      cases hid
    · rw [if_neg hrequested]
      constructor
      · rintro ⟨remote', heq⟩
        have hcode := (Host.Output.abortOperation.inj (List.cons.inj heq).1).2
        have hreason := abortStatusCode_inj hpending hrequested hcode
        unfold Host.AbortReason.orElse at hreason
        split at hreason
        case isTrue hleftover => exact .inl hleftover
        case isFalse => exact .inr hreason
      · rintro (hleftover | hleftover)
        · rw [hleftover]
          exact ⟨remote, rfl⟩
        · rw [hleftover, Host.AbortReason.orElse, if_neg hrequested]
          exact ⟨remote, rfl⟩
  · rw [hwrite rfl, hostCalls_map]
    rw [hinv.pending] at hnone
    unfold Host.AbortReason.orElse at hnone
    split at hnone
    case isTrue hleftover =>
      refine iff_of_true ?_ (.inl hleftover)
      rw [hnone]
      exact ⟨id, rfl⟩
    case isFalse hleftover => exact absurd hnone hleftover

/-- Such a status file is answered with a requested reason, and nothing is left over then. -/
theorem Inv.statusRequested (hinv : s.Inv) {remote : Endpoint} {filename : Text}
    (hstatus : s.host.operation.RequestsStatus remote .write filename)
    (hstep : s.host.step lib (.tftpRequest remote .write filename {}) = some (host, out))
    (hleftover : s.leftover = .noAbort ∨ s.leftover = s.requested) :
    (s.afterHost lib (.tftpRequest remote .write filename {}) host out).Inv ∧
      ∀ error ∈ (hostCalls out).filterMap abortError, s.requested ≠ .noAbort ∧
        error = (.notDefined, abortMessage (Host.Operation.abortStatusCode s.requested)) := by
  have hreason : s.host.operation.abortReason = s.requested := by
    rw [hinv.pending, Host.AbortReason.orElse]
    rcases hleftover with hnone | hsame
    · rw [if_pos hnone]
    · rw [hsame, ite_self]
  obtain ⟨hreset, first, -, hwrite, ⟨hpending, seconds, rfl⟩ | ⟨hnone, id, rfl⟩⟩ :=
    Host.World.step_requestsStatus hstatus hstep
  · rw [hwrite rfl]
    constructor
    · unfold Session.afterHost
      exact ⟨hreset, hinv.handles, hinv.answers⟩
    · rw [hreason, hostCalls_map]
      rw [hreason] at hpending
      exact List.forall_mem_singleton.mpr ⟨hpending, rfl⟩
  · rw [hwrite rfl]
    refine ⟨hinv.afterHost ?_ rfl, fun error herror => nomatch herror⟩
    rw [hreset, hnone]
    rfl

variable {target : Target.World} {transfers : Member Target.AnyStatus}
  {seen : List (Seen Target.Event Target.Observation)}

theorem Inv.afterTarget (hinv : s.Inv) : (s.afterTarget target transfers seen).Inv :=
  ⟨hinv.pending, hinv.handles, hinv.answers⟩

/-- The handler of the target is told of no abort by an event that is not the end of a status file
by one. -/
theorem target_spec {event : Numbered Target.Event} (hend : endsByAbort event = false)
    (hstep : (Target.statusTransfers lib).step (s.target, s.transfers) event =
      some ((target, transfers), seen)) :
    ∀ o ∈ (seen.filterMap Seen.output?).map SessionObservation.target, o.Faithful := by
  obtain ⟨event', hevent, hstep'⟩ := (Target.statusTransfers lib).step_sys hstep
  have hrequests := Target.World.step_abortRequests hstep'
  have hnone : event'.abortRequest? = none := by
    rcases hevent with rfl | ⟨number, rfl⟩
    · cases event' with
      | completed transfer status data =>
        cases transfer with
        -- the end of a status file has the number of its transfer
        | status sent => cases hstep
        | _ => rfl
      | _ => rfl
    · cases event' with
      | completed transfer status data =>
        cases transfer with
        | status sent => exact Option.not_isSome_iff_eq_none.mp (Bool.eq_false_iff.mp hend)
        | _ => rfl
      | _ => rfl
  rw [hnone] at hrequests
  exact List.forall_mem_map.mpr (List.filterMap_eq_nil_iff.mp hrequests)

/-- An answer that finds its transfer is handed to the handler of the target. -/
theorem abortAnswered_faithful (hinv : s.Inv) {transfer : Nat} {sent : Target.AnyStatus}
    {reason : Host.AbortReason} {status : TransferStatus} (hreason : reason ≠ .noAbort)
    (hcompleted : (s.client.handleCompletion .requestError
      (some (.notDefined, abortMessage (Host.Operation.abortStatusCode reason)))).2 =
        .completed status)
    (hstep : (Target.statusTransfers lib).step (s.target, s.transfers)
      (.completion transfer (.completed (.status sent) status [])) =
        some ((target, transfers), seen)) :
    (SessionObservation.abortAnswered transfer (targetCalls (seen.filterMap Seen.output?))
      reason).Faithful := by
  obtain ⟨hdlp, hoperator⟩ := ClientOperation.handleCompletion_abort hinv.handles
  have hstatus : Target.reportedAbort status = some (abortRequestOf reason) := by
    cases reason with
    | noAbort => exact absurd rfl hreason
    | operator =>
      rw [Host.Operation.abortStatusCode, hoperator] at hcompleted
      cases hcompleted
      rfl
    | protocol =>
      rw [Host.Operation.abortStatusCode, hdlp] at hcompleted
      cases hcompleted
      rfl
  obtain ⟨event', hevent, hstep'⟩ := (Target.statusTransfers lib).step_sys hstep
  rcases hevent with heq | ⟨number, heq⟩
  · cases heq
  · cases heq
    have hworld : s.target.step lib (.completed (.status sent) status []) =
        some (target, seen.filterMap Seen.output?) := hstep'
    have hrequests := Target.World.step_abortRequests hworld
    refine ⟨hreason, ?_⟩
    rw [targetCalls, List.filterMap_filterMap]
    refine (List.filterMap_congr fun o _ => ?_).trans (hrequests.trans ?_)
    · cases o with
      | started => rfl
      | call output => rfl
    · exact congrArg Option.toList hstatus

/-- A step is faithful exactly under its condition, and keeps the invariant then. -/
structure StepSpec (s : Session) (event : SessionEvent) (s' : Session)
    (out : List SessionObservation) : Prop where
  faithful : (∀ o ∈ out, o.Faithful) ↔ s.Undisturbed event
  inv : s.Undisturbed event → s'.Inv

theorem step_target (hinv : s.Inv) {event : Numbered Target.Event} {out : List SessionObservation}
    (hstep : s.step lib (.target event) = some (s', out)) : StepSpec s (.target event) s' out := by
  simp only [step] at hstep
  split at hstep
  · cases hstep
  case isFalse hend =>
    obtain ⟨⟨⟨target, transfers⟩, seen⟩, htarget, heq⟩ := Option.map_eq_some_iff.mp hstep
    cases heq
    exact ⟨iff_of_true (target_spec (Bool.eq_false_iff.mpr hend) htarget) trivial,
      fun _ => hinv.afterTarget⟩

theorem step_statusRequest (hinv : s.Inv) {transfer : Nat} {remote : Endpoint}
    {out : List SessionObservation}
    (hstep : s.step lib (.statusRequest transfer remote) = some (s', out)) :
    StepSpec s (.statusRequest transfer remote) s' out := by
  simp only [step] at hstep
  split at hstep
  · cases hstep
  case h_2 filename hlookup =>
    obtain ⟨⟨host, calls⟩, hhost, heq⟩ := Option.map_eq_some_iff.mp hstep
    have hcondition : s.Undisturbed (.statusRequest transfer remote) ↔
        (s.host.operation.RequestsStatus remote .write filename →
          s.leftover = .noAbort ∨ s.leftover = s.requested) := by
      simp [Undisturbed, hlookup]
    split at heq
    case isTrue hstatus =>
      cases heq
      refine ⟨?_, fun hundisturbed => ?_⟩
      · rw [hcondition, List.forall_mem_singleton,
          statusRequested_faithful_iff hinv hstatus hhost]
        simp [hstatus]
      · obtain ⟨hafter, herrors⟩ :=
          hinv.statusRequested hstatus hhost (hcondition.mp hundisturbed hstatus)
        refine ⟨hafter.pending, hafter.handles, List.forall_mem_append.mpr ⟨hinv.answers, ?_⟩⟩
        exact List.forall_mem_map.mpr herrors
    case isFalse hstatus =>
      -- the name is not one of a status file of this operation
      cases heq
      obtain ⟨hfaithful, hafter⟩ := host_spec hinv hhost
      have hother : (Host.Event.tftpRequest remote .write filename {}).RequestsStatus
          s.host.operation → s.host.operation.abortReason = .noAbort := fun h => absurd h hstatus
      refine ⟨iff_of_true (hfaithful.mpr hother) (hcondition.mpr fun h => absurd h hstatus),
        fun _ => ?_⟩
      exact ⟨(hafter hother).pending, (hafter hother).handles, (hafter hother).answers⟩

theorem Inv.erase (hinv : s.Inv) (answer : AbortAnswer) :
    Inv { s with answers := s.answers.erase answer } :=
  ⟨hinv.pending, hinv.handles, fun a ha => hinv.answers a (List.mem_of_mem_erase ha)⟩

theorem step_abortAnswer (hinv : s.Inv) {transfer : Nat} {out : List SessionObservation}
    (hstep : s.step lib (.abortAnswer transfer) = some (s', out)) :
    StepSpec s (.abortAnswer transfer) s' out := by
  simp only [step] at hstep
  split at hstep
  · cases hstep
  case h_2 answer hfind =>
    obtain ⟨hreason, herror⟩ := hinv.answers answer (List.mem_of_find?_eq_some hfind)
    split at hstep
    case h_1 hheard =>
      cases hstep
      have hgone : s.heard transfer = none := hheard
      refine ⟨iff_of_false (fun h => ?_) (by simp [Undisturbed, hgone]), fun _ => hinv.erase answer⟩
      exact absurd (h _ (List.mem_singleton_self _)).2 (by simp)
    case h_2 sent hheard =>
      have hheld : s.heard transfer = some sent := hheard
      rw [herror] at hstep
      split at hstep
      case h_1 status hcompleted =>
        obtain ⟨⟨⟨target, transfers⟩, seen⟩, htarget, heq⟩ := Option.map_eq_some_iff.mp hstep
        cases heq
        refine ⟨iff_of_true ?_ (by simp [Undisturbed, hheld]),
          fun _ => (hinv.erase answer).afterTarget⟩
        exact List.forall_mem_singleton.mpr
          (abortAnswered_faithful hinv hreason hcompleted htarget)
      · cases hstep
      · cases hstep

theorem step_spec (hinv : s.Inv) {event : SessionEvent} {out : List SessionObservation}
    (hstep : s.step lib event = some (s', out)) : StepSpec s event s' out := by
  cases event with
  | host event =>
    obtain ⟨⟨host, calls⟩, hhost, heq⟩ := Option.map_eq_some_iff.mp hstep
    cases heq
    obtain ⟨hfaithful, hafter⟩ := host_spec hinv hhost
    exact ⟨hfaithful, hafter⟩
  | target event => exact step_target hinv hstep
  | statusRequest transfer remote => exact step_statusRequest hinv hstep
  | abortAnswer transfer => exact step_abortAnswer hinv hstep

end Session

/-- A new operation of the host, and one of the target whose status files handle aborts. -/
def opened (kind : OperationType) (targetId : TargetId) (dlpTimeout : Nat) (portOption : Bool)
    (target : Target.Operation) (dlpRetries : UInt16) : Session where
  host := Host.World.ofOperation kind targetId dlpTimeout portOption
  target := { operation := target }
  client := { handleAbort := true, dlpRetries := dlpRetries }

theorem inv_opened (kind : OperationType) (targetId : TargetId) (dlpTimeout : Nat)
    (portOption : Bool) (target : Target.Operation) (dlpRetries : UInt16) :
    (opened kind targetId dlpTimeout portOption target dlpRetries).Inv :=
  ⟨rfl, rfl, List.forall_mem_nil _⟩

/-- In every run of a new operation of the host and an operation of the target: every status file
is answered with an abort exactly if one has been requested since the last answer or the last
start, and with the first reason then; it is not received as well; and the handler of the target is
told of each abort once, with that reason.  This is so exactly when requests that are not those of
the target for its status files find no abort pending, no status file finds an abort from before
the start, and the answers find the transfers that they are for. -/
theorem session_aborts_iff (lib : Library) (kind : OperationType) (targetId : TargetId)
    (dlpTimeout : Nat) (portOption : Bool) (target : Target.Operation) (dlpRetries : UInt16)
    {events : List SessionEvent} {s' : Session} {out : List SessionObservation}
    (hrun : (sessionSystem lib).run
      (opened kind targetId dlpTimeout portOption target dlpRetries) events = some (s', out)) :
    (∀ o ∈ out, o.Faithful) ↔
      (sessionSystem lib).Throughout Session.Undisturbed
        (opened kind targetId dlpTimeout portOption target dlpRetries) events :=
  (sessionSystem lib).forall_run_iff
    (fun _ _ _ _ hinv hstep => (Session.step_spec hinv hstep).faithful)
    (fun _ _ _ _ hinv hcondition hstep => (Session.step_spec hinv hstep).inv hcondition)
    (inv_opened kind targetId dlpTimeout portOption target dlpRetries) hrun

/-- The operator aborts an upload, and the handler of the target is told so. -/
theorem session_aborts_upload :
    ∃ s' out,
      (sessionSystem { raw := .bigEndian, generateCheckValue := fun _ _ => {} }).run
          (opened .upload (.ofText (text "ABCD_1")) 10 false
            { targetId := .ofText (text "ABCD_1"), protocolVersion := .arinc615a34,
              statusTransmissionRate := 1, hostPort := 59, statusV := .upload {} } 3)
          [.host (.start .started), .target (.event (.start ⟨1, 2⟩ none .started)),
            .target (.event (.completed .initialisation .successful [])),
            .target (.event (.timerElapses .expired)), .target (.event (.timerHandler .expired)),
            .host (.abort .operator), .statusRequest 0 ⟨1, 2⟩, .abortAnswer 0] =
        some (s', out) ∧
      .abortAnswered 0 [.abortRequest .abortByOperator] .operator ∈ out ∧
      ((∀ o ∈ out, o.Faithful) ↔
        (sessionSystem { raw := .bigEndian, generateCheckValue := fun _ _ => {} }).Throughout
          Session.Undisturbed
          (opened .upload (.ofText (text "ABCD_1")) 10 false
            { targetId := .ofText (text "ABCD_1"), protocolVersion := .arinc615a34,
              statusTransmissionRate := 1, hostPort := 59, statusV := .upload {} } 3)
          [.host (.start .started), .target (.event (.start ⟨1, 2⟩ none .started)),
            .target (.event (.completed .initialisation .successful [])),
            .target (.event (.timerElapses .expired)), .target (.event (.timerHandler .expired)),
            .host (.abort .operator), .statusRequest 0 ⟨1, 2⟩, .abortAnswer 0]) := by
  have hseen : ((sessionSystem { raw := .bigEndian, generateCheckValue := fun _ _ => {} }).run
      (opened .upload (.ofText (text "ABCD_1")) 10 false
        { targetId := .ofText (text "ABCD_1"), protocolVersion := .arinc615a34,
          statusTransmissionRate := 1, hostPort := 59, statusV := .upload {} } 3)
      [.host (.start .started), .target (.event (.start ⟨1, 2⟩ none .started)),
        .target (.event (.completed .initialisation .successful [])),
        .target (.event (.timerElapses .expired)), .target (.event (.timerHandler .expired)),
        .host (.abort .operator), .statusRequest 0 ⟨1, 2⟩, .abortAnswer 0]).map
      (fun r => decide (.abortAnswered 0 [.abortRequest .abortByOperator] .operator ∈ r.2)) =
        some true := by
    decide +kernel
  obtain ⟨⟨s', out⟩, hrun, hmem⟩ := Option.map_eq_some_iff.mp hseen
  exact ⟨s', out, hrun, of_decide_eq_true hmem, session_aborts_iff _ _ _ _ _ _ _ hrun⟩

/-- The operator aborts an information operation, and a read request for the status file takes the
abort: it is answered with two errors.  The status file of the target is then received as if no
abort had been requested. -/
theorem sessionInformation_abort_lost :
    ∃ s' out,
      (sessionSystem { raw := .bigEndian, generateCheckValue := fun _ _ => {} }).run
          (opened .information (.ofText (text "ABCD_1")) 10 false
            { targetId := .ofText (text "ABCD_1"), protocolVersion := .arinc615a34,
              statusTransmissionRate := 1, hostPort := 59, statusV := .information {} } 3)
          [.host (.start .started), .target (.event (.start ⟨1, 2⟩ none .started)),
            .target (.event (.completed .initialisation .successful [])),
            .target (.event (.timerElapses .expired)), .target (.event (.timerHandler .expired)),
            .host (.abort .operator),
            .host (.tftpRequest ⟨1, 2⟩ .read (text "ABCD_1.LCS") {}), .statusRequest 0 ⟨1, 2⟩] =
        some (s', out) ∧
      .host (.call (.errorOperation ⟨1, 2⟩ .illegalTftpOperation "Only WRQ allowed")) ∈ out ∧
      .host (.call (.abortOperation ⟨1, 2⟩ .operationAbortedByOperator)) ∈ out ∧
      .statusRequested 0 [.transferStart (.status 0)] .noAbort ∈ out ∧
      ¬∀ o ∈ out, o.Faithful := by
  have hseen : ((sessionSystem { raw := .bigEndian, generateCheckValue := fun _ _ => {} }).run
      (opened .information (.ofText (text "ABCD_1")) 10 false
        { targetId := .ofText (text "ABCD_1"), protocolVersion := .arinc615a34,
          statusTransmissionRate := 1, hostPort := 59, statusV := .information {} } 3)
      [.host (.start .started), .target (.event (.start ⟨1, 2⟩ none .started)),
        .target (.event (.completed .initialisation .successful [])),
        .target (.event (.timerElapses .expired)), .target (.event (.timerHandler .expired)),
        .host (.abort .operator),
        .host (.tftpRequest ⟨1, 2⟩ .read (text "ABCD_1.LCS") {}), .statusRequest 0 ⟨1, 2⟩]).map
      (fun r =>
        (decide (.host (.call (.errorOperation ⟨1, 2⟩ .illegalTftpOperation "Only WRQ allowed")) ∈
            r.2),
          decide (.host (.call (.abortOperation ⟨1, 2⟩ .operationAbortedByOperator)) ∈ r.2),
          decide (.statusRequested 0 [.transferStart (.status 0)] .noAbort ∈ r.2))) =
        some (true, true, true) := by
    decide +kernel
  obtain ⟨⟨s', out⟩, hrun, hmem⟩ := Option.map_eq_some_iff.mp hseen
  obtain ⟨herror, hmem⟩ := Prod.mk.inj hmem
  obtain ⟨habort, hreceived⟩ := Prod.mk.inj hmem
  have hanswered := of_decide_eq_true habort
  refine ⟨s', out, hrun, of_decide_eq_true herror, hanswered, of_decide_eq_true hreceived,
    fun h => ?_⟩
  exact h _ hanswered ⟨1, 2⟩ .operationAbortedByOperator rfl

end Arinc615a.Exchange
