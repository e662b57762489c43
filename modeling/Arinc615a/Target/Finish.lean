import Arinc615a.Target.World

/-!
# When a target operation finishes once

`finalise` informs the handler and cancels the timer, and keeps no note of it.  What the handler
still calls, the transfers that are under way and the timer handlers that are queued can each send
another status file, arm the timer or finish the operation again.
-/

open Reasoning

namespace Arinc615a.Target

open Files Information Tftp

/-- A timer that is armed and a status file that is sent are the activity of an operation. -/
def Output.mark : Output → Mark
  | .finished .. => .finish
  | .timerStart _ => .activity
  | .protocolFile _ _ _ _ _ (.status _) => .activity
  | _ => .neutral

def Observation.mark : Observation → Mark
  | .started => .start
  | .call output => output.mark

/-- The effect of the calls of a callback. -/
abbrev Behaves (e : Mark.Effect) (r : Reaction) : Prop := Mark.HasEffect Output.mark e r.2

theorem behaves_neutral (op : Operation) {o : Output} (hmark : o.mark = .neutral) :
    Behaves .calm (op.emit o) :=
  .single (by simp [hmark]) (by simp [hmark]) (by simp [hmark])

theorem behaves_activity (op : Operation) {o : Output} (hmark : o.mark = .activity) :
    Behaves .busy (op.emit o) :=
  .single (by simp [hmark]) (by simp [hmark]) (by simp [hmark])

/-- The status cannot be encoded, and `statusFile` throws. -/
def StatusThrows (lib : Library) (op : Operation) : Prop :=
  ∃ exception, op.forceAccepted.statusV.encode lib.raw op.protocolVersion = .error exception

/-- A description that the status file of an information operation cannot hold. -/
def TooLong (kind : OperationType) (description : Text) : Prop :=
  kind = .information ∧ 253 < description.length

namespace Operation

variable (lib : Library) (op : Operation)

theorem protocolVersion_forceAccepted : op.forceAccepted.protocolVersion = op.protocolVersion := by
  unfold forceAccepted
  split <;> rfl

theorem behaves_finalise (finalStatus : FinalStatus) (description : Text) :
    Behaves .finishing (op.finalise finalStatus description) := by
  have hfinish : Mark.HasEffect Output.mark .finishing [.finished finalStatus description] :=
    .single (by simp [Output.mark]) (by simp [Output.mark]) (by simp [Output.mark])
  have hcancel : Mark.HasEffect Output.mark .calm [.timerCancel] :=
    .single (by decide) (by decide) (by decide)
  exact hfinish.append_calm hcancel

/-- `statusFile` sends the status and arms the timer, unless it throws. -/
theorem behaves_statusFile :
    ∃ e, Behaves e (op.statusFile lib) ∧ e ≠ .finishing ∧ (e = .calm ↔ StatusThrows lib op) := by
  unfold statusFile StatusThrows
  dsimp only
  rw [protocolVersion_forceAccepted]
  cases op.forceAccepted.statusV.encode lib.raw op.protocolVersion with
  | error exception => exact ⟨.calm, behaves_neutral _ rfl, by decide, by simp⟩
  | ok file =>
    -- the file goes out, and then the timer is armed
    have hsend : Behaves .busy (op.forceAccepted.protocolFileOperation
        op.forceAccepted.statusV.fileType file {} (.status op.forceAccepted.statusV)) :=
      behaves_activity _ rfl
    have htimer : Behaves .busy
        (op.forceAccepted.incrementCounter.triggerStatusTransmissionTimer) :=
      behaves_activity _ rfl
    exact ⟨.busy, hsend.append (by decide) htimer, by decide, by simp⟩

theorem behaves_forceStatusTransmission :
    ∃ e, Behaves e (op.forceStatusTransmission lib) ∧ e ≠ .finishing ∧
      (e = .calm ↔ op.statusV.kind = .information ∧ StatusThrows lib op) := by
  unfold forceStatusTransmission
  split
  case isTrue hinformation =>
    obtain ⟨e, hbehaves, he, hcalm⟩ := op.behaves_statusFile lib
    exact ⟨e, hbehaves, he, by simp [hcalm, hinformation]⟩
  case isFalse hother =>
    exact ⟨.busy, behaves_activity _ rfl, by decide, by simp [hother]⟩

variable {op} {code : StatusCode} {description : Text} {estimatedTime : Int16}

/-- A status of an information operation that has just been set throws if its description is too
long for the file. -/
theorem statusThrows_status (hinformation : op.statusV.kind = .information)
    (hcode : code ≠ .invalid) :
    StatusThrows lib (op.status code description estimatedTime) ↔ 253 < description.length := by
  -- the code stands as it was set, so only the description can be refused
  have hset : (op.status code description estimatedTime).statusV.status.code ≠ .invalid := by
    simpa [status] using hcode
  unfold StatusThrows forceAccepted
  rw [if_neg hset]
  cases hstatus : op.statusV with
  | information s =>
    simp only [status, hstatus, AnyStatus.modify, AnyStatus.encode,
      InformationOperationStatusFile.encode, Status.set]
    rcases Nat.lt_or_ge 253 description.length with hlong | hshort
    · rw [stringEncode_long lib.raw hlong]
      simp [hlong, bind, Except.bind]
    · rw [stringEncode_short lib.raw hshort]
      simp [Nat.not_lt.mpr hshort, bind, Except.bind, pure, Except.pure]
  | upload | mediaDefinedDownload | operatorDefinedDownload =>
    rw [hstatus] at hinformation
    cases hinformation

/-- Setting a status and sending it. -/
theorem behaves_forceStatus (op : Operation) (hcode : code ≠ .invalid) (description : Text)
    (estimatedTime : Int16) :
    ∃ e, Behaves e ((op.status code description estimatedTime).forceStatusTransmission lib) ∧
      e ≠ .finishing ∧ (e = .calm ↔ TooLong op.statusV.kind description) := by
  obtain ⟨e, hbehaves, he, hcalm⟩ :=
    (op.status code description estimatedTime).behaves_forceStatusTransmission lib
  refine ⟨e, hbehaves, he, ?_⟩
  rw [hcalm]
  have hinformation : (op.status code description estimatedTime).statusV.kind =
      op.statusV.kind := by
    simp [status]
  rw [hinformation]
  -- the class matters twice: others send by the timer, which cannot throw
  exact and_congr_right fun h => statusThrows_status lib h hcode

theorem behaves_finished (op : Operation) (finalStatus : FinalStatus) (description : Text) :
    ∃ e, Behaves e (op.finished lib finalStatus description) ∧ e ≠ .finishing ∧
      (e = .calm ↔ TooLong op.statusV.kind description) :=
  behaves_forceStatus lib op (by cases finalStatus <;> decide) description 0

/-! ## Completions -/

theorem behaves_sendInitFileComplete (op : Operation) (transferStatus : TransferStatus) :
    ∃ e, Behaves e (op.sendInitFileComplete transferStatus) ∧ e ≠ .calm := by
  unfold sendInitFileComplete
  split
  · exact ⟨.finishing, op.behaves_finalise _ _, by decide⟩
  · have htimer : Behaves .busy op.triggerStatusTransmissionTimer := behaves_activity _ rfl
    exact ⟨.busy, htimer.append_calm (behaves_neutral op rfl), by decide⟩

theorem behaves_statusSent (op : Operation) (sentStatus : Status) :
    ∃ e, Behaves e (op.statusSent lib sentStatus) ∧ e ≠ .calm := by
  have htimer : Behaves .busy op.triggerStatusTransmissionTimer := behaves_activity _ rfl
  unfold statusSent
  cases sentStatus.code with
  | operationAccepted =>
    dsimp only
    split
    · -- the status in progress has no description, and can always be sent
      have hinProgress : StatusCode.operationInProgress ≠ .invalid := by decide
      obtain ⟨e, hbehaves, -, hcalm⟩ := behaves_forceStatus lib op hinProgress [] (-1)
      refine ⟨e, hbehaves, fun he => ?_⟩
      exact absurd (hcalm.mp he).2 (by decide)
    · exact ⟨.busy, htimer, by decide⟩
  | operationInProgress | operationInProgressAdditionalInfo => exact ⟨.busy, htimer, by decide⟩
  | _ => exact ⟨.finishing, op.behaves_finalise _ _, by decide⟩

theorem behaves_statusFileCompleted (op : Operation) (sentStatus : AnyStatus)
    (transferStatus : TransferStatus) :
    ∃ e, Behaves e (op.statusFileCompleted lib sentStatus transferStatus) ∧
      (e = .calm ↔ transferStatus = .operationAbortedByDlp ∨
        transferStatus = .operationAbortedByOperator) := by
  unfold statusFileCompleted
  cases transferStatus with
  | successful =>
    obtain ⟨e, hbehaves, he⟩ := behaves_statusSent lib op sentStatus.status
    have hcall : Behaves .calm (op.emit (.status sentStatus)) := behaves_neutral op rfl
    exact ⟨e, hcall.calm_append hbehaves, by simp [he]⟩
  | operationAbortedByDlp | operationAbortedByOperator =>
    exact ⟨.calm, behaves_neutral op rfl, by simp⟩
  | _ => exact ⟨.finishing, op.behaves_finalise _ _, by simp⟩

theorem behaves_targetInformationCompleted (op : Operation)
    (hinformation : op.statusV.kind = .information) (transferStatus : TransferStatus) :
    ∃ e, Behaves e (InformationOperation.targetInformationCompleted lib op transferStatus) ∧
      e ≠ .calm := by
  unfold InformationOperation.targetInformationCompleted
  split
  · obtain ⟨e, hbehaves, -, hcalm⟩ := behaves_finished lib op .abortedByTargetHardware
      (text "Target Information transmission failed")
    refine ⟨e, hbehaves, fun he => ?_⟩
    -- the description is a fixed text, short enough to be sent
    exact absurd (hcalm.mp he).2 (by decide)
  · split
    · exact ⟨.finishing, op.behaves_finalise _ _, by decide⟩
    · obtain ⟨e, hbehaves, -, hcalm⟩ := (op.status .operationCompleted).behaves_statusFile lib
      refine ⟨e, hbehaves, fun he => ?_⟩
      -- the final status is sent without a description
      have hlong := (statusThrows_status lib hinformation (by decide)).mp (hcalm.mp he)
      exact absurd hlong (by decide)

/-- The list of an information operation finishes it or is followed by a status file.  The list of
an operator defined download is followed by one when its transfer has failed. -/
def ListUnanswered (kind : OperationType) (transferStatus : TransferStatus) : Prop :=
  match kind with
  | .information => False
  | .operatorDefinedDownload => transferStatus = .successful
  | .upload | .mediaDefinedDownload => True

theorem behaves_listCompleted (op : Operation) (transferStatus : TransferStatus) :
    ∃ e, Behaves e (op.listCompleted lib transferStatus) ∧
      (e = .calm ↔ ListUnanswered op.statusV.kind transferStatus) := by
  unfold listCompleted ListUnanswered
  cases hkind : op.statusV.kind with
  | information =>
    obtain ⟨e, hbehaves, he⟩ := behaves_targetInformationCompleted lib op hkind transferStatus
    exact ⟨e, hbehaves, by simp [he]⟩
  | operatorDefinedDownload =>
    dsimp only [OperatorDefinedDownloadOperation.downloadingListCompleted]
    by_cases hsent : transferStatus = .successful
    · rw [if_neg (not_not.mpr hsent)]
      exact ⟨.calm, .none, by simp [hsent]⟩
    · rw [if_pos hsent]
      obtain ⟨e, hbehaves, -, hcalm⟩ := behaves_finished lib op .abortedByTargetHardware
        (text "Target Information transmission failed")
      exact ⟨e, hbehaves, by simp [hcalm, TooLong, hkind, hsent]⟩
  | upload | mediaDefinedDownload => exact ⟨.calm, .none, by simp⟩

/-- A request file that can be read and has the protocol version of the operation; one that ends
inside an unguarded integer is neither answered nor handed over. -/
def FileUsable {σ : Type} (decode : FileDecoder σ Unit) (empty : σ)
    (protocolVersion : σ → Arinc615aVersion) (version : Arinc615aVersion) (rawFile : Bytes) :
    Prop :=
  match decode empty rawFile with
  | .done _ file _ => protocolVersion file = version
  | .thrown (.exception _) _ => False
  | .thrown .overrun _ => True

theorem behaves_fileCompleted {σ : Type} {decode : FileDecoder σ Unit} {empty : σ}
    {protocolVersion : σ → Arinc615aVersion} {call : σ → Output} {failed version format : String}
    (op : Operation) (hother : op.statusV.kind ≠ .information)
    (hcall : ∀ file, (call file).mark = .neutral) (transferStatus : TransferStatus)
    (rawFile : Bytes) :
    ∃ e, Behaves e (fileCompleted decode empty protocolVersion call failed version format lib op
        transferStatus rawFile) ∧
      (e = .calm ↔ transferStatus = .successful ∧
        FileUsable decode empty protocolVersion op.protocolVersion rawFile) := by
  -- none of these operations sends its status at once, so no description is too long
  have hfinished : ∀ description, ∃ e,
      Behaves e (op.finished lib .abortedByTargetHardware description) ∧ e ≠ .calm := by
    intro description
    obtain ⟨e, hbehaves, -, hcalm⟩ := behaves_finished lib op .abortedByTargetHardware description
    exact ⟨e, hbehaves, fun he => absurd (hcalm.mp he).1 hother⟩
  unfold fileCompleted FileUsable
  split
  case isTrue hstatus =>
    obtain ⟨e, hbehaves, he⟩ := hfinished (text failed)
    exact ⟨e, hbehaves, by simp [he, hstatus]⟩
  case isFalse hstatus =>
    have hsuccessful : transferStatus = .successful := not_not.mp hstatus
    cases decode empty rawFile with
    | done _ file _ =>
      dsimp only
      split
      case isTrue hversion =>
        obtain ⟨e, hbehaves, he⟩ := hfinished (text version)
        exact ⟨e, hbehaves, by simp [he, hversion]⟩
      case isFalse hversion =>
        exact ⟨.calm, behaves_neutral op (hcall file), by simpa [hsuccessful] using hversion⟩
    | thrown failure _ =>
      cases failure with
      | exception _ =>
        obtain ⟨e, hbehaves, he⟩ := hfinished (text format)
        exact ⟨e, hbehaves, by simp [he]⟩
      | overrun => exact ⟨.calm, .none, by simp [hsuccessful]⟩

/-- The request file of an operation is handed over to the handler. -/
def RequestUsable (lib : Library) (kind : OperationType) (version : Arinc615aVersion)
    (transferStatus : TransferStatus) (rawFile : Bytes) : Prop :=
  match kind with
  | .information => True
  | .upload => transferStatus = .successful ∧
    FileUsable (UploadOperationRequestFile.decode lib.raw) {} (·.protocolVersion) version rawFile
  | .mediaDefinedDownload => transferStatus = .successful ∧
    FileUsable (DownloadOperationRequestFile.decode lib.raw) {} (·.protocolVersion) version rawFile
  | .operatorDefinedDownload => transferStatus = .successful ∧
    FileUsable (DownloadOperationAnswerFile.decode lib.raw) {} (·.protocolVersion) version rawFile

theorem behaves_requestCompleted (op : Operation) (transferStatus : TransferStatus)
    (rawFile : Bytes) :
    ∃ e, Behaves e (op.requestCompleted lib transferStatus rawFile) ∧
      (e = .calm ↔
        RequestUsable lib op.statusV.kind op.protocolVersion transferStatus rawFile) := by
  unfold requestCompleted RequestUsable
  cases hkind : op.statusV.kind with
  | information => exact ⟨.calm, .none, by simp⟩
  | upload | mediaDefinedDownload | operatorDefinedDownload =>
    have hother : op.statusV.kind ≠ .information := by
      rw [hkind]
      decide
    exact behaves_fileCompleted lib op hother (fun _ => rfl) transferStatus rawFile

/-! ## Calls and requests -/

theorem inProgressCode_ne_invalid (order : ArgumentOrder) (description : Text) :
    inProgressCode order description ≠ .invalid := by
  cases order with
  | codeFirst =>
    unfold inProgressCode
    dsimp only
    split <;> decide
  | moveFirst =>
    show StatusCode.operationInProgress ≠ .invalid
    decide

/-- A call of the handler after which no status file is sent, now or by the timer. -/
def SendsNothing (kind : OperationType) : Call → Prop
  | .accepted => False
  | .inProgress _ immediateTransmission _ description =>
    immediateTransmission = true → TooLong kind description
  | .inProgressRatio _ immediateTransmission _ _ _ => immediateTransmission = false
  | .finished _ description => TooLong kind description
  | _ => True

theorem sendsNothing_edit_iff {statusV statusV' : AnyStatus} {kind : OperationType} {call : Call}
    (hedit : statusV.edit call = some statusV') :
    SendsNothing kind call ↔ call.immediate = false := by
  cases call with
  | accepted | inProgress | finished => cases hedit
  | inProgressRatio => exact Iff.rfl
  | _ => exact iff_of_true trivial rfl

theorem behaves_call (op : Operation) {call : Call} {r : Reaction}
    (hcall : op.call lib call = some r) :
    ∃ e, Behaves e r ∧ e ≠ .finishing ∧ (e = .calm ↔ SendsNothing op.statusV.kind call) := by
  cases called_of_call hcall with
  | accepted =>
    have haccepted : StatusCode.operationAccepted ≠ .invalid := by decide
    obtain ⟨e, hbehaves, he, hcalm⟩ := behaves_forceStatus lib op haccepted [] 0
    exact ⟨e, hbehaves, he, by simp [hcalm, TooLong, SendsNothing]⟩
  | @inProgress order immediateTransmission estimatedTime description =>
    unfold inProgress
    cases immediateTransmission with
    | false => exact ⟨.calm, .none, by decide, by simp [SendsNothing]⟩
    | true =>
      obtain ⟨e, hbehaves, he, hcalm⟩ := behaves_forceStatus lib op
        (inProgressCode_ne_invalid order description) description estimatedTime
      exact ⟨e, hbehaves, he, by simp [hcalm, SendsNothing]⟩
  | finished => exact behaves_finished lib op _ _
  | targetInformation hlist | downloadingList hlist =>
    refine ⟨.calm, ?_, by decide, by simp [SendsNothing]⟩
    cases hlist with
    | thrown | sent => exact behaves_neutral op rfl
  | ratio hedit himmediate =>
    exact ⟨.busy, behaves_activity _ rfl, by decide,
      by simp [sendsNothing_edit_iff hedit, himmediate]⟩
  | edit hedit hlater =>
    -- the status is changed and nothing is called
    exact ⟨.calm, .none, by decide, by simp [sendsNothing_edit_iff hedit, hlater]⟩

theorem behaves_tftpRequest (op : Operation) (remote : Endpoint) (requestType : RequestType)
    (filename : Text) : Behaves .calm (op.tftpRequest remote requestType filename) :=
  tftpRequest_elim (fun _ _ => behaves_neutral op rfl) (behaves_neutral op rfl)

theorem behaves_start (op : Operation) (hostAddress : Endpoint) (port : Option UInt16)
    (result : StartResult) : Behaves .calm (op.start lib hostAddress port result) :=
  start_elim (fun _ => .none) fun _ _ => behaves_neutral _ rfl

theorem behaves_statusTransmissionTimerHandler (op : Operation) (errorCode : WaitResult) :
    ∃ e, Behaves e (op.statusTransmissionTimerHandler lib errorCode) ∧
      (e = .calm ↔ errorCode = .operationAborted ∨ StatusThrows lib op) := by
  cases errorCode with
  | operationAborted => exact ⟨.calm, .none, by simp⟩
  | expired | error =>
    obtain ⟨e, hbehaves, -, hcalm⟩ := op.behaves_statusFile lib
    exact ⟨e, hbehaves, by simp [hcalm]⟩

end Operation

/-! ## Steps -/

namespace World

/-- An event that neither finishes nor is active in a finished operation. -/
def Harmless (lib : Library) (w : World) : Event → Prop
  | .call call => Operation.SendsNothing w.operation.statusV.kind call
  | .completed .initialisation _ _ => False
  | .completed (.status _) transferStatus _ =>
    transferStatus = .operationAbortedByDlp ∨ transferStatus = .operationAbortedByOperator
  | .completed .list transferStatus _ =>
    Operation.ListUnanswered w.operation.statusV.kind transferStatus
  | .completed .request transferStatus rawFile =>
    Operation.RequestUsable lib w.operation.statusV.kind w.operation.protocolVersion transferStatus
      rawFile
  | .timerHandler result => result = .operationAborted ∨ StatusThrows lib w.operation
  | .start .. | .tftpRequest .. | .timerElapses _ => True

/-- A step other than a start has an effect, and is calm exactly when the event is harmless. -/
theorem step_effect {lib : Library} {w w' : World} {event : Event} {out : List Observation}
    (hstart : ∀ hostAddress port result, event ≠ .start hostAddress port result)
    (hstep : w.step lib event = some (w', out)) :
    ∃ e, Mark.HasEffect Observation.mark e out ∧ (e = .calm ↔ Harmless lib w event) := by
  rcases step_cases hstep with ⟨hostAddress, port, result, rfl⟩ | ⟨v, r, hruns, hreact⟩
  · exact absurd rfl (hstart hostAddress port result)
  -- the effect of a callback is that of its calls, whatever the loop does
  suffices heffect : ∃ e, Behaves e r ∧ (e = .calm ↔ Harmless lib w event) by
    obtain ⟨e, hbehaves, he⟩ := heffect
    cases hreact
    exact ⟨e, hbehaves.map Observation.call fun _ => rfl, he⟩
  cases hruns with
  | call call reaction hcall =>
    obtain ⟨e, hbehaves, -, he⟩ := w.operation.behaves_call lib hcall
    exact ⟨e, hbehaves, he⟩
  | tftpRequest remote requestType filename =>
    have hbehaves := w.operation.behaves_tftpRequest remote requestType filename
    exact ⟨.calm, hbehaves, by simp [Harmless]⟩
  | completed transfer status data =>
    cases transfer with
    | initialisation =>
      obtain ⟨e, hbehaves, he⟩ := w.operation.behaves_sendInitFileComplete status
      exact ⟨e, hbehaves, by simp [he, Harmless]⟩
    | status sent => exact Operation.behaves_statusFileCompleted lib w.operation sent status
    | list => exact Operation.behaves_listCompleted lib w.operation status
    | request => exact Operation.behaves_requestCompleted lib w.operation status data
  | timerElapses => exact ⟨.calm, .none, by simp [Harmless]⟩
  | timerHandler result => exact w.operation.behaves_statusTransmissionTimerHandler lib result

/-- A start is quiet in every state, and opens a new run. -/
theorem step_start {lib : Library} {w w' : World} {hostAddress : Endpoint} {port : Option UInt16}
    {result : Operation.StartResult} {out : List Observation}
    (hstep : w.step lib (.start hostAddress port result) = some (w', out)) (closed : Bool) :
    Mark.Quiet Observation.mark closed out := by
  have hbehaves := w.operation.behaves_start lib hostAddress port result
  have heffect : Mark.HasEffect Observation.mark .calm
      (((w.operation.start lib hostAddress port result).2).map .call) :=
    hbehaves.map Observation.call fun _ => rfl
  cases hstep
  exact ⟨fun _ => by simp [Observation.mark], heffect.quiet⟩

end World

theorem World.step_quiet {lib : Library} {w w' : World} {event : Event} {out : List Observation}
    (hstep : w.step lib event = some (w', out)) :
    Mark.Quiet Observation.mark false out ∧
      (Mark.Quiet Observation.mark true out ↔ World.Harmless lib w event) := by
  cases event with
  | start hostAddress port result =>
    exact ⟨step_start hstep false, iff_of_true (step_start hstep true) trivial⟩
  | _ =>
    obtain ⟨e, heffect, he⟩ := step_effect (by simp) hstep
    exact ⟨heffect.quiet, heffect.calm.trans he⟩

theorem finishSteps (lib : Library) :
    (system lib).FinishSteps Observation.mark (fun _ _ => True) (World.Harmless lib) where
  opened _ _ _ _ _ hstep := (World.step_quiet hstep).1
  closed _ _ _ _ _ hstep := (World.step_quiet hstep).2
  inv _ _ _ _ _ _ _ := trivial

end Arinc615a.Target
