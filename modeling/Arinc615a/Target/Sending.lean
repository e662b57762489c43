import Arinc615a.Target.FinalCode

/-!
# What a target callback sends

Each callback sends at most one status file, and it is known beforehand whether it does; and no
callback cancels the timer but one that calls `finished`.
-/

open Reasoning

namespace Arinc615a.Target

open Files Information Tftp

/-- The timer is cancelled only behind a call of `finished`. -/
abbrev CancelsFinished (out : List Output) : Prop := Mark.WithFinish Output.mark .timerCancel out

/-- A callback sends one status file under a condition, and otherwise none. -/
structure Sends (p : Prop) (r : Reaction) : Prop where
  one : p → ∃ file, statusFiles r.2 = [file]
  none : ¬p → statusFiles r.2 = []
  cancels : CancelsFinished r.2

namespace Sends

variable {p q : Prop} {op : Operation} {r : Reaction}

theorem still : Sends False (op, []) := ⟨False.elim, fun _ => rfl, .nil⟩

theorem emit {o : Output} (ho : o.statusFile? = .none) (hcancel : o ≠ .timerCancel) :
    Sends False (op.emit o) :=
  ⟨False.elim, fun _ => by simp [Operation.emit, statusFiles, ho], .single hcancel⟩

theorem congr (h : Sends p r) (hpq : p ↔ q) : Sends q r :=
  ⟨fun hq => h.one (hpq.mpr hq), fun hq => h.none fun hp => hq (hpq.mp hp), h.cancels⟩

/-- At most one of two parts of a callback sends. -/
theorem andThen {f : Operation → Reaction} (h : Sends False r) (h' : Sends p (f r.1)) :
    Sends p (r.andThen f) := by
  have hall : statusFiles (r.andThen f).2 = statusFiles (f r.1).2 := by
    show List.filterMap _ (r.2 ++ (f r.1).2) = _
    rw [List.filterMap_append, show List.filterMap _ r.2 = [] from h.none id, List.nil_append]
    rfl
  exact ⟨fun hp => hall ▸ h'.one hp, fun hp => hall ▸ h'.none hp, h.cancels.append h'.cancels⟩

end Sends

namespace Operation

variable (lib : Library) (op : Operation)

theorem sends_finalise (finalStatus : FinalStatus) (description : Text) :
    Sends False (op.finalise finalStatus description) :=
  ⟨False.elim, fun _ => rfl, fun _ => ⟨_, List.mem_cons_self .., rfl⟩⟩

/-- The status is sent unless it cannot be encoded. -/
theorem sends_statusFile : Sends (¬StatusThrows lib op) (op.statusFile lib) := by
  unfold statusFile StatusThrows
  dsimp only
  rw [protocolVersion_forceAccepted]
  cases op.forceAccepted.statusV.encode lib.raw op.protocolVersion with
  | error exception => exact (Sends.emit rfl (by simp)).congr (by simp)
  | ok file =>
    exact ⟨fun _ => ⟨(op.forceAccepted.statusV, file), rfl⟩, fun h => absurd (by simp) h,
      .append (.single (by simp)) (.single (by simp))⟩

theorem sends_forceStatusTransmission :
    Sends (op.statusV.kind = .information ∧ ¬StatusThrows lib op)
      (op.forceStatusTransmission lib) := by
  unfold forceStatusTransmission
  split
  case isTrue hinformation => exact (op.sends_statusFile lib).congr (by simp [hinformation])
  case isFalse hother => exact (Sends.emit rfl (by simp)).congr (by simp [hother])

/-- Setting a status and sending it at once, as only the information operation does. -/
theorem sends_forceStatus {code : StatusCode} (hcode : code ≠ .invalid) (description : Text)
    (estimatedTime : Int16) :
    Sends (op.statusV.kind = .information ∧ description.length ≤ 253)
      ((op.status code description estimatedTime).forceStatusTransmission lib) := by
  refine (sends_forceStatusTransmission lib _).congr ?_
  have hkind : (op.status code description estimatedTime).statusV.kind = op.statusV.kind := by
    simp [status]
  rw [hkind]
  refine and_congr_right fun hinformation => ?_
  rw [statusThrows_status lib hinformation hcode]
  exact Nat.not_lt

theorem sends_finished (finalStatus : FinalStatus) (description : Text) :
    Sends (op.statusV.kind = .information ∧ description.length ≤ 253)
      (op.finished lib finalStatus description) :=
  op.sends_forceStatus lib (statusCode_ne_invalid finalStatus) description 0

/-! ## Completions -/

theorem sends_sendInitFileComplete (transferStatus : TransferStatus) :
    Sends False (op.sendInitFileComplete transferStatus) := by
  unfold sendInitFileComplete
  split
  · exact op.sends_finalise _ _
  · exact Sends.andThen (.emit rfl (by simp)) (.emit rfl (by simp))

theorem sends_statusSent (sentStatus : Status) :
    Sends (op.statusV.kind = .information ∧ sentStatus.code = .operationAccepted)
      (op.statusSent lib sentStatus) := by
  unfold statusSent
  cases sentStatus.code with
  | operationAccepted =>
    dsimp only
    split
    case isTrue hinformation =>
      -- the status in progress has no description, and can always be sent
      exact (op.sends_forceStatus lib (by decide) [] (-1)).congr (by simp)
    case isFalse hother => exact (Sends.emit rfl (by simp)).congr (by simp [hother])
  | operationInProgress | operationInProgressAdditionalInfo =>
    exact (Sends.emit rfl (by simp)).congr (by simp)
  | _ => exact (op.sends_finalise _ _).congr (by simp)

/-- The information operation goes on with a status in progress when its accepted status is sent. -/
theorem sends_statusFileCompleted (sentStatus : AnyStatus) (transferStatus : TransferStatus) :
    Sends (transferStatus = .successful ∧ op.statusV.kind = .information ∧
        sentStatus.status.code = .operationAccepted)
      (op.statusFileCompleted lib sentStatus transferStatus) := by
  unfold statusFileCompleted
  cases transferStatus with
  | successful =>
    have hsent := op.sends_statusSent lib sentStatus.status
    refine (Sends.andThen (.emit rfl (by simp)) hsent).congr ?_
    simp
  | operationAbortedByDlp | operationAbortedByOperator =>
    exact (Sends.emit rfl (by simp)).congr (by simp)
  | _ => exact (op.sends_finalise _ _).congr (by simp)

/-- The information operation sends its status when the list is through, unless the list is the
end of it. -/
theorem sends_listCompleted (transferStatus : TransferStatus) :
    Sends (op.statusV.kind = .information ∧
        (transferStatus = .successful → op.statusV.status.code ≠ .invalid))
      (op.listCompleted lib transferStatus) := by
  unfold listCompleted
  cases hkind : op.statusV.kind with
  | information =>
    dsimp only [InformationOperation.targetInformationCompleted]
    split
    case isTrue hfailed =>
      refine (op.sends_finished lib _ _).congr (iff_of_true ⟨hkind, by decide⟩ ?_)
      exact ⟨rfl, fun h => absurd h hfailed⟩
    case isFalse hsent =>
      have hsuccessful : transferStatus = .successful := not_not.mp hsent
      split
      case isTrue hcode => exact (op.sends_finalise _ _).congr (by simp [hsuccessful, hcode])
      case isFalse hcode =>
        refine (sends_statusFile lib _).congr
          (iff_of_true (fun hthrows => ?_) ⟨rfl, fun _ => hcode⟩)
        -- the final status has no description
        exact absurd ((statusThrows_status lib hkind (by decide)).mp hthrows) (by decide)
  | operatorDefinedDownload =>
    dsimp only [OperatorDefinedDownloadOperation.downloadingListCompleted]
    split
    · exact (op.sends_finished lib _ _).congr (by simp [hkind])
    · exact Sends.still.congr (by simp)
  | upload | mediaDefinedDownload => exact Sends.still.congr (by simp)

/-- The operations that receive a request file send their status by the timer. -/
theorem sends_requestCompleted (transferStatus : TransferStatus) (rawFile : Bytes) :
    Sends False (op.requestCompleted lib transferStatus rawFile) := by
  refine requestCompleted_elim (fun hother description => ?_) (fun _ => .emit rfl (by simp))
    (fun _ _ => .emit rfl (by simp)) (fun _ => .emit rfl (by simp)) .still
  exact (op.sends_finished lib _ description).congr (by simp [hother])

theorem sends_statusTransmissionTimerHandler (errorCode : WaitResult) :
    Sends (errorCode ≠ .operationAborted ∧ ¬StatusThrows lib op)
      (op.statusTransmissionTimerHandler lib errorCode) := by
  cases errorCode with
  | operationAborted => exact Sends.still.congr (by simp)
  | expired | error => exact (op.sends_statusFile lib).congr (by simp)

/-! ## Calls and requests -/

theorem sends_start (hostAddress : Endpoint) (port : Option UInt16) (result : StartResult) :
    Sends False (op.start lib hostAddress port result) :=
  start_elim (fun _ => .still) fun _ _ => .emit rfl (by simp)

theorem sends_tftpRequest (remote : Endpoint) (requestType : RequestType) (filename : Text) :
    Sends False (op.tftpRequest remote requestType filename) :=
  tftpRequest_elim (fun _ _ => .emit rfl (by simp)) (.emit rfl (by simp))

/-- A call on the information operation that sends the status before it returns. -/
def SendsAtOnce (kind : OperationType) : Call → Prop
  | .accepted => kind = .information
  | .inProgress _ immediateTransmission _ description =>
    kind = .information ∧ immediateTransmission = true ∧ description.length ≤ 253
  | .finished _ description => kind = .information ∧ description.length ≤ 253
  | _ => False

/-- Calls on the loads and files, and on the list ratio leave the sending to the timer. -/
theorem not_sendsAtOnce_edit {statusV statusV' : AnyStatus} {kind : OperationType} {call : Call}
    (hedit : statusV.edit call = some statusV') : ¬SendsAtOnce kind call := by
  cases call with
  | accepted | inProgress | finished => cases hedit
  | _ => exact id

theorem sends_call {call : Call} {r : Reaction} (hcall : op.call lib call = some r) :
    Sends (SendsAtOnce op.statusV.kind call) r := by
  cases called_of_call hcall with
  | accepted => exact (op.sends_forceStatus lib (by decide) [] 0).congr (by simp [SendsAtOnce])
  | @inProgress order immediateTransmission estimatedTime description =>
    unfold inProgress
    cases immediateTransmission with
    | false => exact Sends.still.congr (by simp [SendsAtOnce])
    | true =>
      exact (op.sends_forceStatus lib (inProgressCode_ne_invalid order description) description
        estimatedTime).congr (by simp [SendsAtOnce])
  | finished => exact op.sends_finished lib _ _
  | targetInformation hlist | downloadingList hlist =>
    cases hlist with
    | thrown | sent => exact .emit rfl (by simp)
  | ratio hedit =>
    exact (Sends.emit rfl (by simp)).congr (iff_of_false (not_sendsAtOnce_edit hedit) id).symm
  | edit hedit => exact Sends.still.congr (iff_of_false (not_sendsAtOnce_edit hedit) id).symm

end Operation

end Arinc615a.Target
