import Arinc615a.Target.World

/-!
# What the target callbacks leave as it is

The identifier, the protocol version, the rate of the status and the class of an operation are set
when it is created, and never again.
-/

open Reasoning

namespace Arinc615a.Target

open Files Information Tftp

structure Fixed (op op' : Operation) : Prop where
  targetId : op'.targetId = op.targetId
  protocolVersion : op'.protocolVersion = op.protocolVersion
  statusTransmissionRate : op'.statusTransmissionRate = op.statusTransmissionRate
  kind : op'.statusV.kind = op.statusV.kind

namespace Fixed

theorem refl (op : Operation) : Fixed op op := ⟨rfl, rfl, rfl, rfl⟩

theorem trans {op op' op'' : Operation} (h : Fixed op op') (h' : Fixed op' op'') :
    Fixed op op'' where
  targetId := h'.targetId.trans h.targetId
  protocolVersion := h'.protocolVersion.trans h.protocolVersion
  statusTransmissionRate := h'.statusTransmissionRate.trans h.statusTransmissionRate
  kind := h'.kind.trans h.kind

end Fixed

namespace AnyStatus

/-- The changes of loads and files keep the class. -/
theorem kind_edit {statusV statusV' : AnyStatus} {call : Call}
    (h : statusV.edit call = some statusV') : statusV'.kind = statusV.kind := by
  have hupload : ∀ {f : UploadStatus → UploadStatus}, statusV.modifyUpload f = some statusV' →
      statusV'.kind = statusV.kind := by
    intro f hf
    cases statusV <;> cases hf
    rfl
  have hdownload : ∀ {f : DownloadStatus → DownloadStatus},
      statusV.modifyDownload f = some statusV' → statusV'.kind = statusV.kind := by
    intro f hf
    cases statusV <;> cases hf <;> rfl
  unfold edit at h
  split at h
  · split at h
    · exact hupload h
    · exact hdownload h
  · exact hupload h
  · exact hupload h
  · exact hupload h
  · exact hupload h
  · exact hdownload h
  · exact hdownload h
  · exact hdownload h
  · exact hdownload h
  · cases h

end AnyStatus

namespace Operation

variable (lib : Library) (op : Operation)

theorem fixed_status (code : StatusCode) (description : Text) (estimatedTime : Int16) :
    Fixed op (op.status code description estimatedTime) :=
  ⟨rfl, rfl, rfl, AnyStatus.kind_modify _ _⟩

theorem fixed_forceAccepted : Fixed op op.forceAccepted := by
  unfold forceAccepted
  split
  · exact ⟨rfl, rfl, rfl, AnyStatus.kind_modify _ _⟩
  · exact .refl op

theorem fixed_statusFile : Fixed op (op.statusFile lib).1 := by
  unfold statusFile
  dsimp only
  split
  · exact op.fixed_forceAccepted
  · exact op.fixed_forceAccepted.trans ⟨rfl, rfl, rfl, AnyStatus.kind_modify _ _⟩

theorem fixed_forceStatusTransmission : Fixed op (op.forceStatusTransmission lib).1 := by
  unfold forceStatusTransmission
  split
  · exact op.fixed_statusFile lib
  · exact .refl op

theorem fixed_inProgress (order : ArgumentOrder) (immediateTransmission : Bool)
    (estimatedTime : Int16) (description : Text) :
    Fixed op (op.inProgress lib order immediateTransmission estimatedTime description).1 := by
  have hstatus := op.fixed_status (inProgressCode order description) description estimatedTime
  unfold inProgress
  split
  · exact hstatus.trans (fixed_forceStatusTransmission lib _)
  · exact hstatus

theorem fixed_finished (finalStatus : FinalStatus) (description : Text) :
    Fixed op (op.finished lib finalStatus description).1 :=
  (op.fixed_status _ _ _).trans (fixed_forceStatusTransmission lib _)

theorem fixed_statusSent (sentStatus : Status) : Fixed op (op.statusSent lib sentStatus).1 := by
  unfold statusSent
  split
  · split
    · exact op.fixed_inProgress lib _ _ _ _
    · exact .refl op
  all_goals exact .refl op

theorem fixed_start (hostAddress : Endpoint) (port : Option UInt16) (result : StartResult) :
    Fixed op (op.start lib hostAddress port result).1 := by
  have hfixed (hostPort : UInt16) :
      Fixed op { op with hostAddress := hostAddress.address, hostPort := hostPort } :=
    ⟨rfl, rfl, rfl, rfl⟩
  exact start_elim (P := fun r => Fixed op r.1) hfixed fun hostPort _ => hfixed hostPort

theorem fixed_call {call : Call} {r : Reaction} (h : op.call lib call = some r) :
    Fixed op r.1 := by
  cases called_of_call h with
  | accepted => exact (op.fixed_status _ _ _).trans (fixed_forceStatusTransmission lib _)
  | inProgress => exact op.fixed_inProgress lib _ _ _ _
  | finished => exact op.fixed_finished lib _ _
  | targetInformation hlist | downloadingList hlist =>
    cases hlist with
    | thrown | sent => exact .refl op
  | ratio hedit | edit hedit => exact ⟨rfl, rfl, rfl, AnyStatus.kind_edit hedit⟩

/-- A request does not change the operation. -/
theorem tftpRequest_same (remote : Endpoint) (requestType : RequestType) (filename : Text) :
    (op.tftpRequest remote requestType filename).1 = op := by
  exact tftpRequest_elim (P := fun r => r.1 = op) (fun _ _ => rfl) rfl

theorem fixed_complete (transfer : Transfer) (status : TransferStatus) (data : Bytes) :
    Fixed op (World.complete lib transfer status data op).1 := by
  cases transfer with
  | initialisation =>
    dsimp only [World.complete, sendInitFileComplete]
    split <;> exact .refl op
  | status sent =>
    dsimp only [World.complete, statusFileCompleted]
    split
    · exact op.fixed_statusSent lib _
    all_goals exact .refl op
  | list =>
    exact listCompleted_elim (P := fun r => Fixed op r.1) (fun _ => op.fixed_finished lib _ _)
      (.refl op) ((op.fixed_status _ _ _).trans (fixed_statusFile lib _)) (.refl op)
  | request =>
    exact requestCompleted_elim (P := fun r => Fixed op r.1)
      (fun _ _ => op.fixed_finished lib _ _) (fun _ => .refl op) (fun _ _ => .refl op)
      (fun _ => .refl op) (.refl op)

end Operation

/-- One step leaves it all as it is. -/
theorem World.fixed_step {lib : Library} {w w' : World} {event : Event}
    {out : List Observation} (h : w.step lib event = some (w', out)) :
    Fixed w.operation w'.operation := by
  rcases step_cases h with ⟨hostAddress, port, result, rfl⟩ | ⟨v, r, hruns, hreact⟩
  · cases h
    exact w.operation.fixed_start lib hostAddress port result
  obtain ⟨hoperation, -⟩ := react_eq hreact
  rw [hoperation]
  cases hruns with
  | call call reaction hcall => exact w.operation.fixed_call lib hcall
  | tftpRequest remote requestType filename =>
    rw [Operation.tftpRequest_same]
    exact .refl _
  | completed transfer status data => exact w.operation.fixed_complete lib transfer status data
  | timerElapses => exact .refl _
  | timerHandler result =>
    cases result with
    | operationAborted => exact .refl _
    | expired | error => exact w.operation.fixed_statusFile lib

end Arinc615a.Target
