import Arinc615a.Host.Frame
import Arinc615a.Host.Requests

/-!
# Pending aborts

`abortReasonV` holds the first reason that an abort is requested for, until a request for a status
file is answered with it.  An abort is requested by the user, or by the failed transfer of a list or
of the request file.
-/

open Reasoning

namespace Arinc615a.Host

open Files Information Tftp

/-- The first of two reasons. -/
def AbortReason.orElse (reason next : AbortReason) : AbortReason :=
  if reason = .noAbort then next else reason

namespace AbortReason

@[simp] theorem noAbort_orElse (reason : AbortReason) : noAbort.orElse reason = reason := rfl

@[simp] theorem orElse_noAbort (reason : AbortReason) : reason.orElse .noAbort = reason := by
  cases reason <;> rfl

theorem orElse_assoc (a b c : AbortReason) : (a.orElse b).orElse c = a.orElse (b.orElse c) := by
  cases a <;> rfl

end AbortReason

/-- The calls that answer a request for a status file. -/
def Output.answersStatus : Output → Bool
  | .abortOperation .. | .transferStart (.status _) => true
  | _ => false

/-- The file type of the status file. -/
def statusFileType : OperationType → ProtocolFileType
  | .information => .loadConfigurationStatus
  | .upload => .uploadStatus
  | .mediaDefinedDownload | .operatorDefinedDownload => .downloadStatus

namespace Operation

variable (lib : Library) (op : Operation)

/-- A request that is handled as a request for a status file.  The information operation does so
with read requests as well. -/
def RequestsStatus (remote : Endpoint) (requestType : RequestType) (filename : Text) : Prop :=
  op.checkRequest filename remote = none ∧
    (ProtocolFilename.ofText filename).fileTypeV = statusFileType op.kind ∧
    (requestType = .write ∨ op.kind = .information)

instance (remote : Endpoint) (requestType : RequestType) (filename : Text) :
    Decidable (op.RequestsStatus remote requestType filename) :=
  inferInstanceAs (Decidable (_ ∧ _ ∧ _))

/-- A list that has not been received, or that cannot be decoded. -/
def listUnusable (status : TransferStatus) (rawListFile : Bytes) : Bool :=
  status ≠ .successful ||
    match op.kind with
    | .information =>
      match LoadConfigurationListFile.decode lib.raw {} rawListFile with
      | .thrown (.exception _) _ => true
      | _ => false
    | .operatorDefinedDownload =>
      match DownloadOperationListFile.decode lib.raw {} rawListFile with
      | .thrown (.exception _) _ => true
      | _ => false
    | .upload | .mediaDefinedDownload => false

/-- A request file that has not been transmitted aborts the operation. -/
def requestAborts (status : TransferStatus) : AbortReason :=
  if status ≠ .successful ∧ op.kind ≠ .information then .protocol else .noAbort

/-- A list that cannot be used aborts the operation.  If no status file has been received before,
the information operation is finished instead. -/
def listAborts (status : TransferStatus) (rawListFile : Bytes) : AbortReason :=
  if op.listUnusable lib status rawListFile && (op.kind ≠ .information || op.waitForFinalStatus) then
    .protocol
  else .noAbort

/-- The reason that an event requests an abort for, if it does. -/
def requestedAbort : Event → AbortReason
  | .abort reason => reason
  | .completed .request status _ => op.requestAborts status
  | .completed (.list _) status data =>
    -- upload and media defined download never receive a list
    match op.kind with
    | .information | .operatorDefinedDownload => op.listAborts lib status data
    | .upload | .mediaDefinedDownload => .noAbort
  | _ => .noAbort

end Operation

/-- A callback that comes to a pending reason and does not answer a request for a status file. -/
structure Unanswering (r : Reaction) (reason : AbortReason) : Prop where
  reason : r.1.abortReason = reason
  silent : ∀ o ∈ r.2, o.answersStatus = false

namespace Unanswering

variable {reason : AbortReason} {op : Operation} {r : Reaction}

theorem still : Unanswering (op, []) op.abortReason := ⟨rfl, List.forall_mem_nil _⟩

theorem emit {o : Output} (ho : o.answersStatus = false) :
    Unanswering (op.emit o) op.abortReason :=
  ⟨rfl, List.forall_mem_singleton.mpr ho⟩

/-- No abort is requested. -/
theorem unrequested (h : Unanswering r reason) : Unanswering r (reason.orElse .noAbort) := by
  rwa [AbortReason.orElse_noAbort]

theorem andThen {f : Operation → Reaction} (h : ∀ o ∈ r.2, o.answersStatus = false)
    (h' : Unanswering (f r.1) reason) : Unanswering (r.andThen f) reason :=
  ⟨h'.reason, List.forall_mem_append.mpr ⟨h, h'.silent⟩⟩

end Unanswering

namespace Operation

variable (lib : Library) (op : Operation)

theorem unanswering_finished (status : StatusCode) (description : Text) :
    Unanswering (op.finished status description) op.abortReason :=
  ⟨rfl, by simp [Operation.finished, Output.answersStatus]⟩

theorem unanswering_abortInitialisation : Unanswering op.abortInitialisation op.abortReason := by
  unfold abortInitialisation
  split
  · exact .emit rfl
  · exact .still

theorem unanswering_doAbort (requested : AbortReason) :
    Unanswering (op.doAbort requested) (op.abortReason.orElse requested) := by
  unfold doAbort AbortReason.orElse
  by_cases hnone : op.abortReason = .noAbort
  · rw [if_neg (not_not.mpr hnone), if_pos hnone]
    exact unanswering_abortInitialisation _
  · rw [if_pos hnone, if_neg hnone]
    exact .still

theorem unanswering_doTerminate (requested : AbortReason) :
    Unanswering (op.doTerminate requested) op.abortReason := by
  have hreason := op.unanswering_abortInitialisation
  have hfinished := unanswering_finished op.abortInitialisation.1 (abortStatusCode requested)
    (text "Terminate Request")
  rw [hreason.reason] at hfinished
  exact .andThen hreason.silent hfinished

theorem unanswering_timerHandler (errorCode : WaitResult) :
    Unanswering (op.timerHandler errorCode) op.abortReason := by
  cases errorCode with
  | operationAborted => exact .still
  | expired | error => exact op.unanswering_finished _ _

theorem unanswering_start (result : StartResult) :
    Unanswering (op.start result) op.abortReason := by
  refine ⟨op.start_abortReason result, ?_⟩
  rw [start_eq]
  cases result with
  | started | serverStartThrows | requestThrows => simp [initialise, Output.answersStatus]

theorem unanswering_initialisationAnswered (initFile : InitializationFile) :
    Unanswering (op.initialisationAnswered initFile) op.abortReason := by
  unfold initialisationAnswered
  cases initFile.response.code with
  | operationAccepted => exact .emit rfl
  | operationDenied | operationNotSupported | operationDeferred => exact unanswering_finished _ _ _

theorem unanswering_initialisationFileCompleted (status : TransferStatus) (data : Bytes) :
    Unanswering (op.initialisationFileCompleted lib status data) op.abortReason := by
  refine initialisationFileCompleted_elim (P := fun r => Unanswering r op.abortReason)
    (unanswering_finished _ _ _) fun initFile => ?_
  have hanswered := unanswering_initialisationAnswered
    { op with initialisationOperation := false } initFile
  exact .andThen (List.forall_mem_singleton.mpr rfl) hanswered

theorem unanswering_statusReceived {progress : Operation → Operation}
    (hprogress : ∀ op, (progress op).abortReason = op.abortReason) (status : Status) :
    Unanswering (statusReceived progress op status) op.abortReason := by
  unfold statusReceived
  cases status.code with
  | operationAccepted | operationInProgress | operationInProgressAdditionalInfo =>
    exact ⟨hprogress op, List.forall_mem_singleton.mpr rfl⟩
  | _ => exact op.unanswering_finished _ _

theorem unanswering_statusFileReceived {receive : Bytes → Option ReceivedStatus}
    (hcall : ∀ data received, receive data = some received → received.call.mark = .activity)
    {progress : Operation → Operation}
    (hprogress : ∀ op, (progress op).abortReason = op.abortReason) (status : TransferStatus)
    (data : Bytes) :
    Unanswering (statusFileReceived receive progress op status data) op.abortReason := by
  unfold statusFileReceived
  split
  · exact op.unanswering_finished _ _
  · split
    case h_1 received hreceive =>
      have hsilent : received.call.answersStatus = false := by
        have hactivity := hcall data received hreceive
        cases hcalled : received.call with
        | abortOperation | transferStart => simp [hcalled, Output.mark] at hactivity
        | _ => rfl
      exact .andThen (List.forall_mem_singleton.mpr hsilent)
        (op.unanswering_statusReceived hprogress received.status)
    case h_2 => exact .still

theorem unanswering_statusFileCompleted (operation : Nat) (status : TransferStatus)
    (data : Bytes) :
    Unanswering (op.statusFileCompleted lib operation status data) op.abortReason := by
  have hcall : ∀ kind data received, receiveStatus lib kind data = some received →
      received.call.mark = .activity :=
    fun kind data received h => (receiveStatus_call lib h).2
  have honward : ∀ {receive : Bytes → Option ReceivedStatus},
      (∀ data received, receive data = some received → received.call.mark = .activity) →
      Unanswering (statusFileCompletedOnward receive op operation status data) op.abortReason := by
    intro receive hreceive
    have hrest := (op.removeStatusFileOperation operation).1.unanswering_statusFileReceived hreceive
      (fun op => show (id op).abortReason = op.abortReason from rfl) status data
    unfold statusFileCompletedOnward
    dsimp only
    split
    · exact .andThen (unanswering_finished _ _ _).silent hrest
    · exact .andThen (List.forall_mem_nil _) hrest
  unfold Operation.statusFileCompleted
  cases op.kind with
  | information =>
    dsimp only [InformationOperation.statusFileCompleted]
    split
    · exact unanswering_finished _ _ _
    · refine unanswering_statusFileReceived _ (hcall .information) (fun op => ?_) status data
      rfl
  | upload => exact honward (hcall .upload)
  | mediaDefinedDownload | operatorDefinedDownload => exact honward (hcall .mediaDefinedDownload)

theorem unanswering_requestCompleted (status : TransferStatus) :
    Unanswering (op.requestCompleted status)
      (op.abortReason.orElse (op.requestAborts status)) := by
  unfold requestAborts
  by_cases hkind : op.kind = .information
  · unfold Operation.requestCompleted
    rw [if_neg fun h => h.2 hkind, hkind, AbortReason.orElse_noAbort]
    exact .still
  · rw [op.requestCompleted_of_kind hkind]
    split
    case isTrue hfailed =>
      rw [if_pos ⟨hfailed, hkind⟩]
      exact op.unanswering_doAbort _
    case isFalse hsent =>
      rw [if_neg fun h => hsent h.1, AbortReason.orElse_noAbort]
      exact .still

/-- What a list that cannot be used comes to. -/
theorem unanswering_listFileFailed :
    Unanswering (InformationOperation.listFileFailed op)
      (op.abortReason.orElse (if op.waitForFinalStatus then .protocol else .noAbort)) := by
  unfold InformationOperation.listFileFailed
  cases op.waitForFinalStatus with
  | true => exact op.unanswering_doAbort .protocol
  | false =>
    simp only [Bool.false_eq_true, if_false, AbortReason.orElse_noAbort]
    exact op.unanswering_finished _ _

theorem unanswering_informationListFileCompleted (hkind : op.kind = .information)
    (checkValue : CheckValue) (status : TransferStatus) (data : Bytes) :
    Unanswering (InformationOperation.listFileCompleted lib op checkValue status data)
      (op.abortReason.orElse (op.listAborts lib status data)) := by
  have hfailed := unanswering_listFileFailed { op with listFileOperation := false }
  unfold InformationOperation.listFileCompleted listAborts listUnusable
  rw [hkind]
  dsimp only
  split
  case isTrue hstatus => simpa [hstatus, hkind] using hfailed
  case isFalse hstatus =>
    have hsuccessful : status = .successful := not_not.mp hstatus
    split
    case h_1 hdecode =>
      rw [hdecode]
      simp only [hsuccessful, ne_eq, not_true_eq_false, decide_false, Bool.or_self, Bool.false_and,
        Bool.false_eq_true, if_false, AbortReason.orElse_noAbort]
      refine .andThen (List.forall_mem_singleton.mpr rfl) ?_
      dsimp only [emit]
      split
      · exact .emit rfl
      · exact unanswering_finished _ _ _
    case h_2 hdecode => simpa [hdecode, hkind] using hfailed
    case h_3 hdecode =>
      rw [hdecode]
      simp only [hsuccessful, ne_eq, not_true_eq_false, decide_false, Bool.or_self, Bool.false_and,
        Bool.false_eq_true, if_false, AbortReason.orElse_noAbort]
      exact .still

theorem unanswering_operatorListFileCompleted (hkind : op.kind = .operatorDefinedDownload)
    (status : TransferStatus) (data : Bytes) :
    Unanswering (OperatorDefinedDownloadOperation.listFileCompleted lib op status data)
      (op.abortReason.orElse (op.listAborts lib status data)) := by
  have hfailed := unanswering_doAbort { op with listFileOperation := false } .protocol
  unfold OperatorDefinedDownloadOperation.listFileCompleted listAborts listUnusable
  rw [hkind]
  dsimp only
  split
  case isTrue hstatus => simpa [hstatus, hkind] using hfailed
  case isFalse hstatus =>
    have hsuccessful : status = .successful := not_not.mp hstatus
    split
    case h_1 hdecode =>
      rw [hdecode]
      simp only [hsuccessful, ne_eq, not_true_eq_false, decide_false, Bool.or_self, Bool.false_and,
        Bool.false_eq_true, if_false, AbortReason.orElse_noAbort]
      exact .emit rfl
    case h_2 hdecode => simpa [hdecode, hkind] using hfailed
    case h_3 hdecode =>
      rw [hdecode]
      simp only [hsuccessful, ne_eq, not_true_eq_false, decide_false, Bool.or_self, Bool.false_and,
        Bool.false_eq_true, if_false, AbortReason.orElse_noAbort]
      exact .still

theorem unanswering_listFileCompleted (checkValue : CheckValue) (status : TransferStatus)
    (data : Bytes) :
    Unanswering (op.listFileCompleted lib checkValue status data)
      (op.abortReason.orElse
        (op.requestedAbort lib (.completed (.list checkValue) status data))) := by
  unfold Operation.listFileCompleted
  simp only [requestedAbort]
  cases hkind : op.kind with
  | information => exact unanswering_informationListFileCompleted lib op hkind checkValue status data
  | operatorDefinedDownload => exact unanswering_operatorListFileCompleted lib op hkind status data
  | upload | mediaDefinedDownload =>
    simp only [AbortReason.orElse_noAbort]
    exact .still

/-! ## Requests -/

/-- A request for a status file is answered with the pending reason, which is reset, or received. -/
theorem statusFileRequest_cases (remote : Endpoint) :
    (op.abortReason ≠ .noAbort ∧
        op.statusFileRequest remote =
          ({ op with abortReason := .noAbort },
            [.abortOperation remote (abortStatusCode op.abortReason),
              .timerStart (max 0 op.dlpTimeout)])) ∨
      (op.abortReason = .noAbort ∧
        (op.statusFileRequest remote).1.abortReason = .noAbort ∧
        (op.statusFileRequest remote).2 =
          [.transferStart (.status op.nextStatusFileOperation)]) := by
  unfold statusFileRequest isAborted
  by_cases hnone : op.abortReason = .noAbort
  · rw [if_pos hnone]
    exact .inr ⟨hnone, hnone, rfl⟩
  · rw [if_neg hnone]
    exact .inl ⟨hnone, rfl⟩

variable {op}

theorem handling_eq_status_iff (kind : OperationType) (requestType : RequestType)
    (fileType : ProtocolFileType) (options : Arinc615aOptions) :
    handling kind requestType fileType options = .status ↔
      fileType = statusFileType kind ∧ (requestType = .write ∨ kind = .information) := by
  cases kind with
  | information => cases fileType <;> simp [handling, statusFileType]
  | upload | mediaDefinedDownload | operatorDefinedDownload =>
    cases requestType <;> cases fileType <;> simp [handling, statusFileType]

theorem readAnswer_silent (remote : Endpoint) (requestType : RequestType) :
    ∀ o ∈ op.readAnswer remote requestType, o.answersStatus = false := by
  intro o ho
  unfold readAnswer at ho
  split at ho
  · rw [List.mem_singleton.mp ho]
    rfl
  · cases ho

/-- The information operation answers a read request first; other status requests are write
requests. -/
theorem tftpRequest_requestsStatus {remote : Endpoint} {requestType : RequestType}
    {filename : Text} (h : op.RequestsStatus remote requestType filename)
    (options : Arinc615aOptions) :
    ∃ first : List Output, (∀ o ∈ first, o.answersStatus = false) ∧
      (requestType = .write → first = []) ∧
      op.tftpRequest remote requestType filename options =
        Reaction.andThen (op, first) fun op => op.statusFileRequest remote := by
  obtain ⟨hcheck, hstatus⟩ := h
  refine ⟨op.readAnswer remote requestType, readAnswer_silent remote requestType,
    fun hwrite => if_neg fun h => h.2 hwrite, ?_⟩
  rw [tftpRequest_unchecked hcheck, Reaction.andThen_mk,
    (handling_eq_status_iff op.kind requestType _ options).mpr hstatus]
  rfl

theorem unanswering_listTransfer (checkValue : CheckValue) :
    Unanswering ({ op with listFileOperation := true },
      (if op.listFileOperation then
        [.gracefulAbort (.list checkValue) "New list file received"] else []) ++
        [.transferStart (.list checkValue)]) op.abortReason := by
  refine ⟨rfl, List.forall_mem_append.mpr ⟨?_, List.forall_mem_singleton.mpr rfl⟩⟩
  split
  · exact List.forall_mem_singleton.mpr rfl
  · exact List.forall_mem_nil _

/-- All other requests leave a pending abort as it is. -/
theorem unanswering_tftpRequest {remote : Endpoint} {requestType : RequestType} {filename : Text}
    (h : ¬op.RequestsStatus remote requestType filename) (options : Arinc615aOptions) :
    Unanswering (op.tftpRequest remote requestType filename options) op.abortReason := by
  cases hcheck : op.checkRequest filename remote with
  | some answer =>
    rw [op.tftpRequest_checked hcheck, checkRequest_eq_some hcheck]
    exact .emit rfl
  | none =>
    rw [tftpRequest_unchecked hcheck]
    refine .andThen (readAnswer_silent remote requestType) ?_
    dsimp only
    cases hhandling :
        handling op.kind requestType (ProtocolFilename.ofText filename).fileTypeV options with
    | error | file => exact .emit rfl
    | status => exact absurd ⟨hcheck, (handling_eq_status_iff ..).mp hhandling⟩ h
    | list checkValue => exact unanswering_listTransfer checkValue

end Operation

/-! ## Steps -/

/-- A request that is handled as a request for a status file. -/
def Event.RequestsStatus (op : Operation) : Event → Prop
  | .tftpRequest remote requestType filename _ => op.RequestsStatus remote requestType filename
  | _ => False

namespace World

variable {lib : Library} {w w' : World} {out : List Observation}

theorem Runs.unanswering {v : World} {event : Event} {r : Reaction}
    (hruns : Runs lib w event v r) (hstatus : ¬event.RequestsStatus w.operation) :
    Unanswering r (w.operation.abortReason.orElse (w.operation.requestedAbort lib event)) := by
  cases hruns with
  | abort reason => exact w.operation.unanswering_doAbort reason
  | terminate reason => exact (w.operation.unanswering_doTerminate reason).unrequested
  | send request reaction hsend =>
    rcases w.operation.send_cases lib hsend with ⟨-, rfl⟩ | ⟨-, fileType, filename, file, rfl⟩
    · exact .unrequested .still
    · exact .unrequested ⟨rfl, by simp [Output.answersStatus]⟩
  | throws | timerElapses => exact .unrequested .still
  | tftpRequest remote requestType filename options =>
    exact (Operation.unanswering_tftpRequest hstatus options).unrequested
  | deferred waitTime => exact .unrequested (.emit rfl)
  | completed transfer status data =>
    cases transfer with
    | initialisation =>
      exact (w.operation.unanswering_initialisationFileCompleted lib status data).unrequested
    | status operation =>
      exact (w.operation.unanswering_statusFileCompleted lib operation status data).unrequested
    | list checkValue =>
      exact w.operation.unanswering_listFileCompleted lib checkValue status data
    | request => exact w.operation.unanswering_requestCompleted status
  | timerHandler result => exact (w.operation.unanswering_timerHandler result).unrequested

/-- Any other event adds the reason that it requests an abort for to the pending one. -/
theorem step_unanswering {event : Event} (hstatus : ¬event.RequestsStatus w.operation)
    (hstep : w.step lib event = some (w', out)) :
    w'.operation.abortReason =
        w.operation.abortReason.orElse (w.operation.requestedAbort lib event) ∧
      ∀ o, .call o ∈ out → o.answersStatus = false := by
  rcases step_cases hstep with ⟨result, rfl⟩ | ⟨v, r, hruns, hreact⟩
  · cases hstep
    obtain ⟨hreason, hsilent⟩ := (w.operation.unanswering_start result).unrequested
    refine ⟨hreason, fun o ho => hsilent o ?_⟩
    have hcalls : Observation.call o ∈ (w.operation.start result).2.map Observation.call :=
      List.mem_of_ne_of_mem (by simp) ho
    simpa using hcalls
  · obtain ⟨hreason, hsilent⟩ := hruns.unanswering hstatus
    obtain ⟨hoperation, rfl⟩ := react_eq hreact
    refine ⟨hoperation ▸ hreason, fun o ho => hsilent o ?_⟩
    simpa using ho

/-- A request for a status file is answered with the pending abort, which is reset, or received. -/
theorem step_requestsStatus {remote : Endpoint} {requestType : RequestType} {filename : Text}
    {options : Arinc615aOptions}
    (hstatus : w.operation.RequestsStatus remote requestType filename)
    (hstep : w.step lib (.tftpRequest remote requestType filename options) = some (w', out)) :
    w'.operation.abortReason = .noAbort ∧
      ∃ first : List Output, (∀ o ∈ first, o.answersStatus = false) ∧
        (requestType = .write → first = []) ∧
        ((w.operation.abortReason ≠ .noAbort ∧ ∃ seconds, out = (first ++
            [Output.abortOperation remote (Operation.abortStatusCode w.operation.abortReason),
              Output.timerStart seconds]).map .call) ∨
          (w.operation.abortReason = .noAbort ∧
            ∃ id, out = (first ++ [Output.transferStart (.status id)]).map .call)) := by
  obtain ⟨first, hsilent, hwrite, hrequest⟩ :=
    Operation.tftpRequest_requestsStatus hstatus options
  rcases step_cases hstep with ⟨result, hstart⟩ | ⟨v, r, hruns, hreact⟩
  · cases hstart
  obtain ⟨hoperation, hout⟩ := react_eq hreact
  cases hruns
  rw [hrequest] at hoperation hout
  rcases w.operation.statusFileRequest_cases remote with
    ⟨hpending, hanswer⟩ | ⟨hnone, hreason, hanswer⟩
  · rw [Reaction.andThen_mk, hanswer] at hoperation hout
    rw [hoperation]
    exact ⟨rfl, first, hsilent, hwrite, .inl ⟨hpending, _, hout⟩⟩
  · rw [Reaction.andThen_mk] at hoperation hout
    rw [hanswer] at hout
    rw [hoperation]
    exact ⟨hreason, first, hsilent, hwrite, .inr ⟨hnone, _, hout⟩⟩

end World

end Arinc615a.Host
