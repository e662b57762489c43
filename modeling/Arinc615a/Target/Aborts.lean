import Arinc615a.Target.World

/-!
# Abort requests

`abortRequest` of the handler is called when a status file has been answered with an abort, and at
no other time.
-/

open Reasoning

namespace Arinc615a.Target

open Files Information Tftp

def Output.abortRequest? : Output → Option AbortRequest
  | .abortRequest request => some request
  | _ => none

def Observation.abortRequest? : Observation → Option AbortRequest
  | .started => none
  | .call output => output.abortRequest?

/-- The abort that the client of a status file reports. -/
def reportedAbort : TransferStatus → Option AbortRequest
  | .operationAbortedByDlp => some .abortByDlp
  | .operationAbortedByOperator => some .abortByOperator
  | _ => none

/-- The abort requests of a callback. -/
abbrev abortRequests (r : Reaction) : List AbortRequest := r.2.filterMap Output.abortRequest?

namespace Operation

variable (lib : Library) (op : Operation)

theorem abortRequests_andThen (r : Reaction) (f : Operation → Reaction) :
    abortRequests (r.andThen f) = abortRequests r ++ abortRequests (f r.1) :=
  List.filterMap_append

theorem abortRequests_statusFile : abortRequests (op.statusFile lib) = [] := by
  unfold statusFile
  dsimp only
  split
  · rfl
  · rfl

theorem abortRequests_forceStatusTransmission :
    abortRequests (op.forceStatusTransmission lib) = [] := by
  unfold forceStatusTransmission
  split
  · exact op.abortRequests_statusFile lib
  · rfl

theorem abortRequests_inProgress (order : ArgumentOrder) (immediateTransmission : Bool)
    (estimatedTime : Int16) (description : Text) :
    abortRequests (op.inProgress lib order immediateTransmission estimatedTime description) =
      [] := by
  unfold inProgress
  dsimp only
  split
  · exact abortRequests_forceStatusTransmission lib _
  · rfl

theorem abortRequests_statusSent (sentStatus : Status) :
    abortRequests (op.statusSent lib sentStatus) = [] := by
  unfold statusSent
  split
  · split
    · exact op.abortRequests_inProgress lib _ _ _ _
    · rfl
  all_goals rfl

/-- The abort that ends the transfer of a status file is handed to the handler. -/
theorem abortRequests_statusFileCompleted (sentStatus : AnyStatus) (status : TransferStatus) :
    abortRequests (op.statusFileCompleted lib sentStatus status) =
      (reportedAbort status).toList := by
  unfold statusFileCompleted
  cases status with
  | successful =>
    rw [abortRequests_andThen]
    exact abortRequests_statusSent lib _ _
  | _ => rfl

theorem abortRequests_complete (transfer : Transfer) (status : TransferStatus) (data : Bytes) :
    abortRequests (World.complete lib transfer status data op) =
      match transfer with
      | .status _ => (reportedAbort status).toList
      | _ => [] := by
  cases transfer with
  | initialisation =>
    dsimp only [World.complete, sendInitFileComplete]
    split
    · rfl
    · rfl
  | status sent => exact op.abortRequests_statusFileCompleted lib sent status
  | list =>
    exact listCompleted_elim (P := fun r => abortRequests r = [])
      (fun _ => abortRequests_forceStatusTransmission lib _) rfl (abortRequests_statusFile lib _) rfl
  | request =>
    exact requestCompleted_elim (P := fun r => abortRequests r = [])
      (fun _ _ => abortRequests_forceStatusTransmission lib _) (fun _ => rfl) (fun _ _ => rfl)
      (fun _ => rfl) rfl

theorem abortRequests_start (hostAddress : Endpoint) (port : Option UInt16)
    (result : StartResult) : abortRequests (op.start lib hostAddress port result) = [] := by
  exact start_elim (P := fun r => abortRequests r = []) (fun _ => rfl) fun _ _ => rfl

theorem abortRequests_call {call : Call} {r : Reaction} (h : op.call lib call = some r) :
    abortRequests r = [] := by
  cases called_of_call h with
  | accepted => exact abortRequests_forceStatusTransmission lib _
  | inProgress => exact op.abortRequests_inProgress lib _ _ _ _
  | finished => exact abortRequests_forceStatusTransmission lib _
  | targetInformation hlist | downloadingList hlist =>
    cases hlist with
    | thrown | sent => rfl
  | ratio | edit => rfl

theorem abortRequests_tftpRequest (remote : Endpoint) (requestType : RequestType)
    (filename : Text) : abortRequests (op.tftpRequest remote requestType filename) = [] := by
  exact tftpRequest_elim (P := fun r => abortRequests r = []) (fun _ _ => rfl) rfl

end Operation

/-- The abort that an event tells of. -/
def Event.abortRequest? : Event → Option AbortRequest
  | .completed (.status _) status _ => reportedAbort status
  | _ => none

/-- The handler is told of the aborts that status files are answered with, and of no others. -/
theorem World.step_abortRequests {lib : Library} {w w' : World} {event : Event}
    {out : List Observation} (hstep : w.step lib event = some (w', out)) :
    out.filterMap Observation.abortRequest? = event.abortRequest?.toList := by
  rcases step_cases hstep with ⟨hostAddress, port, result, rfl⟩ | ⟨v, r, hruns, hreact⟩
  · cases hstep
    have hstart := w.operation.abortRequests_start lib hostAddress port result
    rw [List.filterMap_cons_none rfl]
    exact (List.filterMap_map ..).trans hstart
  obtain ⟨-, rfl⟩ := react_eq hreact
  refine (List.filterMap_map ..).trans ?_
  show abortRequests r = _
  cases hruns with
  | call call reaction hcall => exact w.operation.abortRequests_call lib hcall
  | tftpRequest remote requestType filename =>
    exact w.operation.abortRequests_tftpRequest remote requestType filename
  | completed transfer status data =>
    rw [Operation.abortRequests_complete]
    cases transfer with
    | status sent => rfl
    | _ => rfl
  | timerElapses => rfl
  | timerHandler result =>
    cases result with
    | operationAborted => rfl
    | expired | error => exact w.operation.abortRequests_statusFile lib

end Arinc615a.Target
