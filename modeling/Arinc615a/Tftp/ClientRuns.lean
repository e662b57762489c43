import Arinc615a.Reasoning.EventLoop
import Arinc615a.Reasoning.Law
import Arinc615a.Reasoning.Tokens
import Arinc615a.Tftp.Client

/-!
# Runs of a client operation

`tftp/clients/implementation/OperationImpl.cpp` as a whole: a client operation repeats its TFTP
operation after failures and waits, until it completes or is aborted.
-/

open Reasoning

namespace Arinc615a.Tftp

/-- A client operation with its TFTP operations and its wait timer.  The numbers tell to which call
of `request` a TFTP operation or a wait goes back. -/
structure ClientWorld where
  operation : ClientOperation
  errorInformation : Option ErrorInformation := none
  /-- `operationV` is set. -/
  current : Bool := false
  /-- The TFTP operations under way. -/
  transfers : List Nat := []
  /-- The wait that is pending. -/
  wait : Option Nat := none
  /-- The wait handlers that are queued. -/
  waitHandlers : List (Nat × WaitResult) := []
  /-- The number of calls of `request`. -/
  requests : Nat := 0
  deriving DecidableEq

namespace ClientWorld

inductive Event where
  | request
  | gracefulAbort (errorCode : ErrorCode) (errorMessage : Text)
  | abort
  /-- A TFTP operation completes; the error information is that of `operationV`. -/
  | transferCompletes (request : Nat) (status : TransferStatus)
      (errorInformation : Option ErrorInformation)
  | waitElapses (result : WaitResult)
  | waitHandler (request : Nat) (result : WaitResult)
  deriving DecidableEq

/-- What is seen of a client operation: the calls of its interface, and what it calls. -/
inductive Observation where
  | requested
  | aborted
  | tftpRequest
  | tftpGracefulAbort (errorCode : ErrorCode) (errorMessage : Text)
  | tftpAbort
  | waitStart (waitTime : Nat)
  | deferred (waitTime : Nat)
  | completed (request : Nat) (status : TransferStatus)
  deriving DecidableEq, Repr

abbrev Reaction := ClientWorld × List Observation

/-- A TFTP operation is created and requested. -/
def tftpRequest (w : ClientWorld) (request : Nat) : Reaction :=
  ({ w with transfers := request :: w.transfers, current := true }, [.tftpRequest])

def request (w : ClientWorld) : Reaction :=
  let operation := { w.operation with retries := 0 }
  let (w, out) := { w with operation := operation, requests := w.requests + 1 }.tftpRequest
    w.requests
  (w, .requested :: out)

/-- `waitTimerV.cancel()`; handlers that are queued stay queued. -/
def cancelWait (w : ClientWorld) : ClientWorld :=
  match w.wait with
  | none => w
  | some request =>
    { w with wait := none, waitHandlers := w.waitHandlers ++ [(request, .operationAborted)] }

def gracefulAbort (w : ClientWorld) (errorCode : ErrorCode) (errorMessage : Text) : Reaction :=
  let w := w.cancelWait
  (w, if w.current then [.aborted, .tftpGracefulAbort errorCode errorMessage] else [.aborted])

def abort (w : ClientWorld) : Reaction :=
  let w := w.cancelWait
  (w, if w.current then [.aborted, .tftpAbort] else [.aborted])

/-- How `handleCompletion` ends. -/
def act (w : ClientWorld) (request : Nat) : ClientAction → Reaction
  | .completed status => (w, [.completed request status])
  | .deferred waitTime =>
    ({ w.cancelWait with wait := some request }, [.waitStart waitTime, .deferred waitTime])
  | .request => w.tftpRequest request

def handleCompletion (w : ClientWorld) (request : Nat) (status : TransferStatus)
    (errorInformation : Option ErrorInformation) : Reaction :=
  let (operation, action) := w.operation.handleCompletion status errorInformation
  { w with
    operation := operation
    errorInformation := if status = TransferStatus.successful then none else errorInformation
    current := false }.act request action

def handleWaitTimeout (w : ClientWorld) (request : Nat) (result : WaitResult) : Reaction :=
  match result with
  | .operationAborted => (w, [.completed request .operationAbortedByDlp])
  | .error => (w, [.completed request .operationAbortedByDlp])
  | .expired => w.tftpRequest request

/-- `none` means that the event cannot happen. -/
def step (w : ClientWorld) : Event → Option Reaction
  | .request => some w.request
  | .gracefulAbort errorCode errorMessage => some (w.gracefulAbort errorCode errorMessage)
  | .abort => some w.abort
  | .transferCompletes request status errorInformation =>
    -- `operationV` is read after a failure, so it has to be set then
    if request ∈ w.transfers ∧ (w.current = true ∨ status = .successful) then
      some ({ w with transfers := w.transfers.erase request }.handleCompletion request status
        errorInformation)
    else none
  | .waitElapses result =>
    match w.wait with
    | none => none
    | some request =>
      if result = .operationAborted then none
      else some ({ w with wait := none, waitHandlers := w.waitHandlers ++ [(request, result)] }, [])
  | .waitHandler request result =>
    if (request, result) ∈ w.waitHandlers then
      some ({ w with waitHandlers := w.waitHandlers.erase (request, result) }.handleWaitTimeout
        request result)
    else none

/-- What an event runs, where it can happen. -/
inductive Runs (w : ClientWorld) : Event → Reaction → Prop where
  | request : Runs w .request w.request
  | gracefulAbort (errorCode : ErrorCode) (errorMessage : Text) :
      Runs w (.gracefulAbort errorCode errorMessage) (w.gracefulAbort errorCode errorMessage)
  | abort : Runs w .abort w.abort
  | transferCompletes (request : Nat) (status : TransferStatus)
      (errorInformation : Option ErrorInformation) (hmem : request ∈ w.transfers) :
      Runs w (.transferCompletes request status errorInformation)
        ({ w with transfers := w.transfers.erase request }.handleCompletion request status
          errorInformation)
  | waitElapses (request : Nat) (result : WaitResult) (hwait : w.wait = some request) :
      Runs w (.waitElapses result)
        ({ w with wait := none, waitHandlers := w.waitHandlers ++ [(request, result)] }, [])
  | waitHandler (request : Nat) (result : WaitResult) (hmem : (request, result) ∈ w.waitHandlers) :
      Runs w (.waitHandler request result)
        ({ w with waitHandlers := w.waitHandlers.erase (request, result) }.handleWaitTimeout
          request result)

theorem step_cases {w w' : ClientWorld} {event : Event} {out : List Observation}
    (hstep : w.step event = some (w', out)) : ∃ r, Runs w event r ∧ w' = r.1 ∧ out = r.2 := by
  suffices h : ∀ r, w.step event = some r → Runs w event r from ⟨_, h _ hstep, rfl, rfl⟩
  intro r hr
  cases event with
  | request => exact Option.some.inj hr ▸ .request
  | gracefulAbort errorCode errorMessage =>
    exact Option.some.inj hr ▸ .gracefulAbort errorCode errorMessage
  | abort => exact Option.some.inj hr ▸ .abort
  | transferCompletes request status errorInformation =>
    simp only [step] at hr
    split at hr
    case isTrue h =>
      exact Option.some.inj hr ▸ .transferCompletes request status errorInformation h.1
    case isFalse => cases hr
  | waitElapses result =>
    simp only [step] at hr
    split at hr
    · cases hr
    next request hwait =>
      split at hr
      · cases hr
      · exact Option.some.inj hr ▸ .waitElapses request result hwait
  | waitHandler request result =>
    simp only [step] at hr
    split at hr
    case isTrue hmem => exact Option.some.inj hr ▸ .waitHandler request result hmem
    case isFalse => cases hr

end ClientWorld

def clientSystem : Reactive ClientWorld ClientWorld.Event ClientWorld.Observation :=
  ⟨ClientWorld.step⟩

namespace ClientWorld

/-! ## One completion for each request -/

/-- The requests that are not completed: each has a TFTP operation, a wait or a queued handler. -/
def held (w : ClientWorld) : List Nat :=
  w.transfers ++ w.wait.toList ++ w.waitHandlers.map Prod.fst

def Observation.request? : Observation → Option Nat
  | .completed request _ => some request
  | _ => none

variable {w : ClientWorld}

theorem perm_cancelWait (w : ClientWorld) : w.cancelWait.held.Perm w.held := by
  unfold cancelWait
  cases hwait : w.wait with
  | none => exact List.Perm.refl _
  | some request =>
    simp only [held, hwait, Option.toList_none, Option.toList_some, List.map_append, List.map_cons,
      List.map_nil, List.append_nil, List.append_assoc]
    exact List.perm_append_comm.append_left _

/-- A reaction that passes on one request: it is held again, or completed. -/
def Passes (w : ClientWorld) (request : Nat) (reaction : Reaction) : Prop :=
  (reaction.1.held ++ reaction.2.filterMap Observation.request?).Perm (request :: w.held) ∧
    reaction.1.requests = w.requests

theorem passes_tftpRequest (w : ClientWorld) (request : Nat) :
    Passes w request (w.tftpRequest request) := by
  refine ⟨?_, rfl⟩
  simp [tftpRequest, held, List.filterMap_cons, Observation.request?]

theorem requests_cancelWait (w : ClientWorld) : w.cancelWait.requests = w.requests := by
  unfold cancelWait
  split <;> rfl

theorem wait_cancelWait (w : ClientWorld) : w.cancelWait.wait = none := by
  unfold cancelWait
  split
  next h => exact h
  next => rfl

theorem passes_act (w : ClientWorld) (request : Nat) (action : ClientAction) :
    Passes w request (w.act request action) := by
  cases action with
  | completed status =>
    refine ⟨?_, rfl⟩
    simp only [act, List.filterMap_cons, Observation.request?, List.filterMap_nil]
    exact List.perm_append_comm
  | deferred waitTime =>
    refine ⟨?_, requests_cancelWait w⟩
    have hheld : (request :: w.cancelWait.held).Perm (request :: w.held) :=
      (perm_cancelWait w).cons _
    -- the new wait is one more, whatever was held before it
    refine List.Perm.trans ?_ hheld
    simp only [act, held, wait_cancelWait, List.filterMap_cons, Observation.request?,
      List.filterMap_nil, List.append_nil, Option.toList_none, Option.toList_some,
      List.append_assoc, List.singleton_append]
    exact List.perm_middle
  | request => exact passes_tftpRequest w request

theorem passes_handleCompletion (w : ClientWorld) (request : Nat) (status : TransferStatus)
    (errorInformation : Option ErrorInformation) :
    Passes w request (w.handleCompletion request status errorInformation) := by
  unfold handleCompletion
  exact passes_act _ request _

theorem passes_handleWaitTimeout (w : ClientWorld) (request : Nat) (result : WaitResult) :
    Passes w request (w.handleWaitTimeout request result) := by
  cases result with
  | expired => exact passes_tftpRequest w request
  | operationAborted => exact passes_act w request (.completed .operationAbortedByDlp)
  | error => exact passes_act w request (.completed .operationAbortedByDlp)

/-- Where the requests are after a step: those held before, and those that are new, are held or
completed. -/
def Keeps (w w' : ClientWorld) (out : List Observation) : Prop :=
  w.requests ≤ w'.requests ∧ (w'.held ++ out.filterMap Observation.request?).Perm
    (w.held ++ List.range' w.requests (w'.requests - w.requests))

/-- A step that takes a request from where it is held, and passes it on. -/
theorem Passes.keeps {v w' : ClientWorld} {request : Nat} {out : List Observation}
    (h : Passes v request (w', out)) (hheld : (request :: v.held).Perm w.held)
    (hrequests : v.requests = w.requests) : Keeps w w' out := by
  unfold Keeps
  obtain ⟨hperm, hnumber⟩ := h
  rw [hnumber, hrequests, Nat.sub_self]
  refine ⟨Nat.le_refl _, ?_⟩
  rw [List.range'_zero, List.append_nil]
  exact hperm.trans hheld

/-- A step that neither starts nor completes a request. -/
theorem keeps_of_perm {w' : ClientWorld} {out : List Observation} (hheld : w'.held.Perm w.held)
    (hrequests : w'.requests = w.requests) (hout : out.filterMap Observation.request? = []) :
    Keeps w w' out := by
  unfold Keeps
  rw [hrequests, Nat.sub_self, List.range'_zero, hout, List.append_nil, List.append_nil]
  exact ⟨Nat.le_refl _, hheld⟩

theorem keeps_request (w : ClientWorld) : Keeps w w.request.1 w.request.2 := by
  refine ⟨Nat.le_succ _, ?_⟩
  have hnew : w.request.1.requests - w.requests = 1 := Nat.add_sub_cancel_left w.requests 1
  rw [hnew, List.range'_one]
  simp only [request, tftpRequest, held, List.filterMap_cons, Observation.request?,
    List.filterMap_nil, List.append_nil]
  exact (List.perm_append_singleton ..).symm

theorem keeps_gracefulAbort (w : ClientWorld) (errorCode : ErrorCode) (errorMessage : Text) :
    Keeps w (w.gracefulAbort errorCode errorMessage).1
      (w.gracefulAbort errorCode errorMessage).2 := by
  refine keeps_of_perm (perm_cancelWait w) (requests_cancelWait w) ?_
  unfold gracefulAbort
  dsimp only
  split <;> rfl

theorem keeps_abort (w : ClientWorld) : Keeps w w.abort.1 w.abort.2 := by
  refine keeps_of_perm (perm_cancelWait w) (requests_cancelWait w) ?_
  unfold abort
  dsimp only
  split <;> rfl

theorem step_keeps {event : Event} {w' : ClientWorld} {out : List Observation}
    (hstep : w.step event = some (w', out)) : Keeps w w' out := by
  obtain ⟨r, hruns, rfl, rfl⟩ := step_cases hstep
  cases hruns with
  | request => exact keeps_request w
  | gracefulAbort errorCode errorMessage => exact keeps_gracefulAbort w errorCode errorMessage
  | abort => exact keeps_abort w
  | transferCompletes request status errorInformation hmem =>
    refine (passes_handleCompletion _ request status errorInformation).keeps ?_ rfl
    have herase := List.perm_cons_erase hmem
    exact ((herase.append_right w.wait.toList).append_right _).symm
  | waitElapses request result hwait =>
    refine keeps_of_perm ?_ rfl rfl
    simp only [held, hwait, Option.toList_none, Option.toList_some, List.map_append,
      List.map_cons, List.map_nil, List.append_nil, List.append_assoc]
    exact List.perm_append_comm.append_left _
  | waitHandler request result hmem =>
    refine (passes_handleWaitTimeout _ request result).keeps ?_ rfl
    have herase := (List.perm_cons_erase hmem).map Prod.fst
    exact List.perm_middle.symm.trans (herase.symm.append_left _)

/-- The calls of `request` are the tokens, and a completion gives one back. -/
def tokens : Tokens clientSystem where
  held := held
  issued := requests
  spent := Observation.request?
  issued_le _ _ _ _ hstep := (step_keeps hstep).1
  perm _ _ _ _ hstep := (step_keeps hstep).2

/-- Each call of `request` is completed at most once. -/
def CompletesOnce (w : ClientWorld) (out : List Observation) : Prop :=
  (out.filterMap Observation.request?).Nodup ∧
    ∀ request ∈ out.filterMap Observation.request?, request < w.requests

/-! ## No TFTP request behind an abort -/

/-- Between an abort and the next `request` a TFTP request is out of place. -/
def Observation.mark : Observation → Mark
  | .requested => .start
  | .aborted => .finish
  | .tftpRequest => .activity
  | _ => .neutral

end ClientWorld

namespace ClientOperation

/-- The error of the TFTP server is an abort or a wait that the operation handles. -/
def Answered (op : ClientOperation) : Option ErrorInformation → Prop
  | none => False
  | some (errorCode, errorMessage) =>
    match errorMessageType (some (errorCode, errorMessage)) with
    | .abort => op.handleAbort = true ∧
      (decodeAbortMessage errorMessage = .operationAbortedByDlp ∨
        decodeAbortMessage errorMessage = .operationAbortedByOperator)
    | .wait => (decodeWaitMessage errorMessage).isSome
    | .invalid => False

/-- A TFTP operation that has failed is repeated: it was not aborted, the server has not answered,
and there are retries left. -/
def Repeats (op : ClientOperation) (status : TransferStatus)
    (errorInformation : Option ErrorInformation) : Prop :=
  status ≠ .successful ∧ status ≠ .aborted ∧
    ¬(status = .requestError ∧ op.Answered errorInformation) ∧
    ¬op.dlpRetries < op.retries + 1

theorem retry_eq_request_iff (op : ClientOperation) :
    op.retry.2 = .request ↔ ¬op.dlpRetries < op.retries + 1 := by
  unfold retry
  dsimp only
  split
  next h => simp [h]
  next h => simp [h]

theorem handleCompletion_eq_request_iff (op : ClientOperation) (status : TransferStatus)
    (errorInformation : Option ErrorInformation) :
    (op.handleCompletion status errorInformation).2 = .request ↔
      op.Repeats status errorInformation := by
  unfold Repeats
  cases status with
  | successful => simp [handleCompletion]
  | aborted => simp [handleCompletion]
  | requestError =>
    cases errorInformation with
    | none => simp [handleCompletion, Answered, errorMessageType, retry_eq_request_iff]
    | some information =>
      obtain ⟨errorCode, errorMessage⟩ := information
      simp only [handleCompletion, Answered]
      cases errorMessageType (some (errorCode, errorMessage)) with
      | invalid => simp [retry_eq_request_iff]
      | wait => cases h : decodeWaitMessage errorMessage <;> simp [h, retry_eq_request_iff]
      | abort =>
        cases op.handleAbort with
        | false => simp [retry_eq_request_iff]
        | true =>
          cases h : decodeAbortMessage errorMessage <;> simp [h, retry_eq_request_iff]
  | _ => simp [handleCompletion, retry_eq_request_iff]

end ClientOperation

namespace ClientWorld

/-- What may happen to an aborted operation: no TFTP operation ends in a way that is repeated, and
no wait runs off. -/
def Harmless (w : ClientWorld) : Event → Prop
  | .transferCompletes _ status errorInformation =>
    ¬w.operation.Repeats status errorInformation
  | .waitHandler _ result => result ≠ .expired
  | _ => True

variable {w : ClientWorld}

theorem rests_act_iff (w : ClientWorld) (request : Nat) (action : ClientAction) (closed : Bool) :
    (Mark.restLaw Observation.mark).Obeyed closed (w.act request action).2 ↔
      (closed = true → action ≠ .request) := by
  cases action with
  | completed status => simp [act, Mark.restLaw, Observation.mark]
  | deferred waitTime => simp [act, Mark.restLaw, Observation.mark]
  | request => simp [act, tftpRequest, Mark.restLaw, Observation.mark]

theorem rests_handleCompletion_iff (w : ClientWorld) (request : Nat) (status : TransferStatus)
    (errorInformation : Option ErrorInformation) (closed : Bool) :
    (Mark.restLaw Observation.mark).Obeyed closed
        (w.handleCompletion request status errorInformation).2 ↔
      (closed = true → ¬w.operation.Repeats status errorInformation) := by
  unfold handleCompletion
  rw [← ClientOperation.handleCompletion_eq_request_iff]
  exact rests_act_iff _ request _ closed

theorem rests_handleWaitTimeout_iff (w : ClientWorld) (request : Nat) (result : WaitResult)
    (closed : Bool) :
    (Mark.restLaw Observation.mark).Obeyed closed (w.handleWaitTimeout request result).2 ↔
      (closed = true → result ≠ .expired) := by
  cases result <;> simp [handleWaitTimeout, tftpRequest, Mark.restLaw, Observation.mark]

/-- What is seen of the calls that cannot be out of place. -/
theorem rests_of_harmless {closed : Bool} {out : List Observation} {Harmless : Prop}
    (hout : (Mark.restLaw Observation.mark).Obeyed closed out) (h : Harmless) :
    (Mark.restLaw Observation.mark).Obeyed closed out ↔ (closed = true → Harmless) :=
  iff_of_true hout fun _ => h

theorem rests_step_iff {event : Event} {w' : ClientWorld} {out : List Observation} (closed : Bool)
    (hstep : w.step event = some (w', out)) :
    (Mark.restLaw Observation.mark).Obeyed closed out ↔ (closed = true → Harmless w event) := by
  obtain ⟨r, hruns, rfl, rfl⟩ := step_cases hstep
  cases hruns with
  | request =>
    refine rests_of_harmless ?_ trivial
    simp [request, tftpRequest, Mark.restLaw, Observation.mark, Mark.next]
  | gracefulAbort errorCode errorMessage =>
    refine rests_of_harmless ?_ trivial
    refine Mark.rest_of_forall _ ?_ closed
    unfold gracefulAbort
    dsimp only
    split <;> simp [Observation.mark]
  | abort =>
    refine rests_of_harmless ?_ trivial
    refine Mark.rest_of_forall _ ?_ closed
    unfold abort
    dsimp only
    split <;> simp [Observation.mark]
  | transferCompletes request status errorInformation =>
    exact rests_handleCompletion_iff _ request status errorInformation closed
  | waitElapses => exact rests_of_harmless trivial trivial
  | waitHandler request result => exact rests_handleWaitTimeout_iff _ request result closed

/-- A client operation completes at most once for each request, and issues no TFTP request once it
is aborted, exactly if after an abort no wait runs off and no TFTP operation ends in a way that is
repeated. -/
theorem clientOperation_abort_iff {operation : ClientOperation} {w' : ClientWorld}
    {events : List Event} {out : List Observation}
    (hrun : clientSystem.run { operation } events = some (w', out)) :
    (CompletesOnce w' out ∧ Mark.AtRest Observation.mark out) ↔
      clientSystem.HarmlessRun Observation.mark Harmless { operation } events := by
  have honce : CompletesOnce w' out := tokens.spent_run rfl rfl hrun
  rw [and_iff_right honce]
  exact Reactive.atRest_run_iff (fun _ closed _ _ _ hstep => rests_step_iff closed hstep) hrun

/-- The operation is aborted while it waits to repeat its transfer. -/
theorem clientOperation_abort_waited :
    ∃ w' out, clientSystem.run { operation := { dlpRetries := 3 } } [.request,
        .transferCompletes 0 .requestError (some (.notDefined, text "WAIT:5")), .abort,
        .waitHandler 0 .operationAborted] = some (w', out) ∧
      ((CompletesOnce w' out ∧ Mark.AtRest Observation.mark out) ↔
        clientSystem.HarmlessRun Observation.mark Harmless { operation := { dlpRetries := 3 } }
          [.request, .transferCompletes 0 .requestError (some (.notDefined, text "WAIT:5")),
            .abort, .waitHandler 0 .operationAborted]) := by
  obtain ⟨⟨w', out⟩, hrun⟩ : ∃ r, clientSystem.run { operation := { dlpRetries := 3 } } [.request,
      .transferCompletes 0 .requestError (some (.notDefined, text "WAIT:5")), .abort,
      .waitHandler 0 .operationAborted] = some r := ⟨_, rfl⟩
  exact ⟨w', out, hrun, clientOperation_abort_iff hrun⟩

/-- The wait has run off when the operation is aborted: the transfer is requested again. -/
theorem clientOperation_abort_requestsAgain :
    ∃ w' out, clientSystem.run { operation := { dlpRetries := 3 } } [.request,
        .transferCompletes 0 .requestError (some (.notDefined, text "WAIT:5")),
        .waitElapses .expired, .abort, .waitHandler 0 .expired] = some (w', out) ∧
      ¬(CompletesOnce w' out ∧ Mark.AtRest Observation.mark out) := by
  refine ⟨_, _, rfl, fun h => ?_⟩
  exact h.2 [.requested, .tftpRequest, .waitStart 5, .deferred 5, .aborted] .tftpRequest [] rfl
    ⟨[.requested, .tftpRequest, .waitStart 5, .deferred 5], .aborted, [], rfl, rfl,
      List.forall_mem_nil _⟩ rfl

end ClientWorld

end Arinc615a.Tftp
