import Arinc615a.Host.Aborts

/-!
# Where the calls of a host operation come from

What a callback hands to the handler comes from the file that it is run with, the transfers it
starts come from the request, and the request files from the call of the user.  An operation
finishes as aborted by the data loader, or with what the user or the target says.
-/

open Reasoning

namespace Arinc615a.Host

open Files Information Tftp

/-- Calls that neither transfer a file nor hand one over, and do not finish. -/
def Output.bare : Output → Bool
  | .initialisationResponse _ | .informationStatus _ | .uploadStatus _ | .downloadStatus _
  | .targetInformation .. | .downloadingList _ | .finished .. | .transmitFile ..
  | .transferStart _ => false
  | _ => true

/-- Where the calls of a callback come from. -/
inductive Origin (lib : Library) (op : Operation) : Event → Output → Prop where
  | bare {event : Event} {o : Output} (h : o.bare = true) : Origin lib op event o
  | initialise (result : Operation.StartResult) :
    Origin lib op (.start result) (.transferStart .initialisation)
  | send (request : Operation.Request) :
    Origin lib op (.send request) (.transferStart .request)
  | loadList (loads : List UploadLoad) (data : Bytes) (hkind : op.kind = .upload)
      (h : UploadOperationRequestFile.encode lib.raw
        { protocolVersion := op.protocolVersion, loads } = .ok data) :
    Origin lib op (.send (.loadList loads))
      (.transmitFile .uploadRequest (op.protocolFilename .uploadRequest) data)
  | request (files : List Text) (userDefinedData data : Bytes)
      (hkind : op.kind = .mediaDefinedDownload)
      (h : DownloadOperationRequestFile.encode lib.raw
        { protocolVersion := op.protocolVersion, files, userDefinedData } = .ok data) :
    Origin lib op (.send (.request files userDefinedData))
      (.transmitFile .mediaDefinedDownloadRequest (op.protocolFilename .mediaDefinedDownloadRequest)
        data)
  | answer (files : List Text) (data : Bytes) (hkind : op.kind = .operatorDefinedDownload)
      (h : DownloadOperationAnswerFile.encode lib.raw
        { protocolVersion := op.protocolVersion, files } = .ok data) :
    Origin lib op (.send (.answer files))
      (.transmitFile .operatorDefinedDownloadAnswer
        (op.protocolFilename .operatorDefinedDownloadAnswer) data)
  | transfer (remote : Endpoint) (requestType : RequestType) (filename : Text)
      (options : Arinc615aOptions) (id : Nat)
      (h : Operation.handling op.kind requestType (ProtocolFilename.ofText filename).fileTypeV
        options = .status) :
    Origin lib op (.tftpRequest remote requestType filename options) (.transferStart (.status id))
  | listTransfer (remote : Endpoint) (requestType : RequestType) (filename : Text)
      (options : Arinc615aOptions) (checkValue : CheckValue)
      (h : Operation.handling op.kind requestType (ProtocolFilename.ofText filename).fileTypeV
        options = .list checkValue) :
    Origin lib op (.tftpRequest remote requestType filename options)
      (.transferStart (.list checkValue))
  | response (data rest : Bytes) (file : InitializationFile)
      (h : InitializationFile.decode lib.raw {} data = .done () file rest) :
    Origin lib op (.completed .initialisation .successful data)
      (.initialisationResponse file.response)
  | status (id : Nat) (data : Bytes) (received : ReceivedStatus) {o : Output}
      (h : Operation.receiveStatus lib op.kind data = some received) (ho : o = received.call) :
    Origin lib op (.completed (.status id) .successful data) o
  | targetInformation (checkValue : CheckValue) (data rest : Bytes) (file : LoadConfigurationListFile)
      (hkind : op.kind = .information)
      (h : LoadConfigurationListFile.decode lib.raw {} data = .done () file rest) :
    Origin lib op (.completed (.list checkValue) .successful data)
      (.targetInformation file.targetsHardware
        (lib.generateCheckValue checkValue.type data = checkValue))
  | downloadingList (checkValue : CheckValue) (data rest : Bytes) (file : DownloadOperationListFile)
      (hkind : op.kind = .operatorDefinedDownload)
      (h : DownloadOperationListFile.decode lib.raw {} data = .done () file rest) :
    Origin lib op (.completed (.list checkValue) .successful data) (.downloadingList file.files)
  | failed {event : Event} (description : Text) :
    Origin lib op event (.finished .operationAbortedByDlp description)
  | terminated (reason : AbortReason) (description : Text) :
    Origin lib op (.terminate reason) (.finished (Operation.abortStatusCode reason) description)
  | refused (data rest : Bytes) (file : InitializationFile)
      (h : InitializationFile.decode lib.raw {} data = .done () file rest)
      (hcode : file.response.code ≠ .operationAccepted) :
    Origin lib op (.completed .initialisation .successful data)
      (.finished (Operation.acceptanceStatusCode file.response.code) file.response.description)
  | final (id : Nat) (data : Bytes) (received : ReceivedStatus)
      (h : Operation.receiveStatus lib op.kind data = some received) :
    Origin lib op (.completed (.status id) .successful data)
      (.finished received.status.code received.status.description)
  | listed (checkValue : CheckValue) (data rest : Bytes) (file : LoadConfigurationListFile)
      (hkind : op.kind = .information)
      (h : LoadConfigurationListFile.decode lib.raw {} data = .done () file rest) :
    Origin lib op (.completed (.list checkValue) .successful data)
      (.finished .operationCompleted [])

/-- A status goes to one of the three status calls. -/
theorem Operation.receiveStatus_call_cases {lib : Library} {kind : OperationType} {data : Bytes}
    {received : ReceivedStatus} (h : receiveStatus lib kind data = some received) :
    (∃ status, received.call = .informationStatus status) ∨
      (∃ status, received.call = .uploadStatus status) ∨
        ∃ status, received.call = .downloadStatus status := by
  cases kind with
  | information =>
    obtain ⟨file, -, rfl⟩ := Option.map_eq_some_iff.mp h
    exact .inl ⟨_, rfl⟩
  | upload =>
    obtain ⟨file, -, rfl⟩ := Option.map_eq_some_iff.mp h
    exact .inr (.inl ⟨_, rfl⟩)
  | mediaDefinedDownload | operatorDefinedDownload =>
    obtain ⟨file, -, rfl⟩ := Option.map_eq_some_iff.mp h
    exact .inr (.inr ⟨_, rfl⟩)

/-- All calls of a callback come from its event. -/
def Comes (lib : Library) (op : Operation) (event : Event) (out : List Output) : Prop :=
  ∀ o ∈ out, Origin lib op event o

namespace Comes

variable {lib : Library} {op : Operation} {event : Event} {out out' : List Output}

theorem nil : Comes lib op event [] := List.forall_mem_nil _

theorem single {o : Output} (h : Origin lib op event o) : Comes lib op event [o] :=
  List.forall_mem_singleton.mpr h

theorem bare (h : out.all Output.bare = true) : Comes lib op event out :=
  fun o ho => .bare (List.all_eq_true.mp h o ho)

theorem append (h : Comes lib op event out) (h' : Comes lib op event out') :
    Comes lib op event (out ++ out') :=
  List.forall_mem_append.mpr ⟨h, h'⟩

theorem finished {code : StatusCode} {description : Text} (op' : Operation)
    (h : Origin lib op event (.finished code description)) :
    Comes lib op event (op'.finished code description).2 :=
  List.forall_mem_cons.mpr ⟨h, bare rfl⟩

end Comes

namespace Operation

variable (lib : Library) (op : Operation) {event : Event}

theorem comes_abortInitialisation (op' : Operation) :
    Comes lib op event op'.abortInitialisation.2 := by
  unfold abortInitialisation
  split
  · exact .bare rfl
  · exact .nil

theorem comes_doAbort (op' : Operation) (reason : AbortReason) :
    Comes lib op event (op'.doAbort reason).2 := by
  unfold doAbort
  split
  · exact .nil
  · exact comes_abortInitialisation lib op _

theorem comes_doTerminate (reason : AbortReason) :
    Comes lib op (.terminate reason) (op.doTerminate reason).2 :=
  (comes_abortInitialisation lib op op).append (.finished _ (.terminated reason _))

theorem comes_timerHandler (errorCode : WaitResult) :
    Comes lib op event (op.timerHandler errorCode).2 := by
  cases errorCode with
  | operationAborted => exact .nil
  | expired | error => exact .finished _ (.failed _)

theorem comes_start (result : StartResult) :
    Comes lib op (.start result) (op.start result).2 := by
  have hinitialise : ∀ (op' : Operation) fileType,
      Comes lib op (.start result) (op'.initialise fileType result).2 := by
    intro op' fileType
    cases result with
    | started =>
      exact List.forall_mem_cons.mpr ⟨.bare rfl, List.forall_mem_cons.mpr
        ⟨.bare rfl, Comes.single (.initialise _)⟩⟩
    | serverStartThrows | requestThrows => exact .bare rfl
  unfold Operation.start
  cases op.kind with
  | information | upload | mediaDefinedDownload | operatorDefinedDownload =>
    exact hinitialise _ _

theorem comes_initialisationFileCompleted (status : TransferStatus) (data : Bytes) :
    Comes lib op (.completed .initialisation status data)
      (op.initialisationFileCompleted lib status data).2 := by
  unfold initialisationFileCompleted
  dsimp only
  split
  · exact .finished _ (.failed _)
  next hsuccessful =>
    rw [not_not.mp hsuccessful]
    split
    next file rest hdecode =>
      refine Comes.append (.single (.response data rest file hdecode)) ?_
      unfold initialisationAnswered
      split
      · exact .bare rfl
      next hcode => exact .finished _ (.refused data rest file hdecode (by simp [hcode]))
      next hcode => exact .finished _ (.refused data rest file hdecode (by simp [hcode]))
      · exact .finished _ (.failed _)
    · exact .finished _ (.failed _)
    · exact .nil

theorem comes_statusReceived {progress : Operation → Operation} (op' : Operation) {status : Status}
    (h : Origin lib op event (.finished status.code status.description)) :
    Comes lib op event (statusReceived progress op' status).2 := by
  unfold statusReceived
  split
  · exact .finished _ h
  · exact .finished _ h
  · exact .finished _ h
  · exact .finished _ h
  · exact .finished _ h
  · exact .finished _ h
  · exact .bare rfl
  · exact .bare rfl
  · exact .bare rfl
  · exact .finished _ (.failed _)
  · exact .finished _ (.failed _)
  · exact .finished _ (.failed _)

theorem comes_statusFileReceived {receive : Bytes → Option ReceivedStatus}
    (hreceive : receive = receiveStatus lib op.kind) {progress : Operation → Operation}
    (op' : Operation) (id : Nat) (status : TransferStatus) (data : Bytes) :
    Comes lib op (.completed (.status id) status data)
      (statusFileReceived receive progress op' status data).2 := by
  subst hreceive
  unfold statusFileReceived
  split
  · exact .finished _ (.failed _)
  next hsuccessful =>
    rw [not_not.mp hsuccessful]
    split
    next received hstatus =>
      exact Comes.append (.single (.status id data received hstatus rfl))
        (comes_statusReceived lib op _ (.final id data received hstatus))
    · exact .nil

theorem comes_statusFileCompleted (id : Nat) (status : TransferStatus) (data : Bytes) :
    Comes lib op (.completed (.status id) status data)
      (op.statusFileCompleted lib id status data).2 := by
  have honward : Comes lib op (.completed (.status id) status data)
      (statusFileCompletedOnward (receiveStatus lib op.kind) op id status data).2 := by
    refine Comes.append ?_ (comes_statusFileReceived lib op rfl _ id status data)
    split
    · exact .finished _ (.failed _)
    · exact .nil
  unfold Operation.statusFileCompleted
  cases hkind : op.kind with
  | information =>
    dsimp only [InformationOperation.statusFileCompleted]
    split
    · exact .finished _ (.failed _)
    · exact comes_statusFileReceived lib op (by rw [hkind]; rfl) _ id status data
  | upload | mediaDefinedDownload | operatorDefinedDownload =>
    rw [hkind] at honward
    exact honward

theorem comes_listFileCompleted (checkValue : CheckValue) (status : TransferStatus)
    (data : Bytes) :
    Comes lib op (.completed (.list checkValue) status data)
      (op.listFileCompleted lib checkValue status data).2 := by
  have hfailed : ∀ op' : Operation, Comes lib op (.completed (.list checkValue) status data)
      (InformationOperation.listFileFailed op').2 := by
    intro op'
    unfold InformationOperation.listFileFailed
    split
    · exact comes_doAbort lib op _ _
    · exact .finished _ (.failed _)
  unfold Operation.listFileCompleted
  cases hkind : op.kind with
  | information =>
    dsimp only [InformationOperation.listFileCompleted]
    split
    · exact hfailed _
    next hsuccessful =>
      rw [not_not.mp hsuccessful] at hfailed ⊢
      split
      next file rest hdecode =>
        refine Comes.append (.single (.targetInformation checkValue data rest file hkind hdecode)) ?_
        dsimp only
        split
        · exact .bare rfl
        · exact .finished _ (.listed checkValue data rest file hkind hdecode)
      · exact hfailed _
      · exact .nil
  | operatorDefinedDownload =>
    dsimp only [OperatorDefinedDownloadOperation.listFileCompleted]
    split
    · exact comes_doAbort lib op _ _
    next hsuccessful =>
      rw [not_not.mp hsuccessful]
      split
      next file rest hdecode =>
        exact .single (.downloadingList checkValue data rest file hkind hdecode)
      · exact comes_doAbort lib op _ _
      · exact .nil
  | upload | mediaDefinedDownload => exact .nil

theorem comes_requestCompleted (status : TransferStatus) :
    Comes lib op event (op.requestCompleted status).2 := by
  have hcompleted : Comes lib op event
      (if status ≠ .successful then op.doAbort .protocol
        else ({ op with sent := true }, [])).2 := by
    split
    · exact comes_doAbort lib op _ _
    · exact .nil
  unfold Operation.requestCompleted
  cases op.kind with
  | information => exact .nil
  | upload | mediaDefinedDownload | operatorDefinedDownload => exact hcompleted

/-- The lists that are received for write requests. -/
theorem handling_write_eq_list {kind : OperationType} {fileType : ProtocolFileType}
    {options : Arinc615aOptions} {checkValue : CheckValue}
    (h : handling kind .write fileType options = .list checkValue) :
    (kind = .information ∧ fileType = .loadConfigurationList ∧ checkValue = options.checksum) ∨
      (kind = .operatorDefinedDownload ∧ fileType = .operatorDefinedDownloadList) := by
  cases kind with
  | information =>
    cases fileType <;> cases h
    exact .inl ⟨rfl, rfl, rfl⟩
  | operatorDefinedDownload =>
    cases fileType <;> cases h
    exact .inr ⟨rfl, rfl⟩
  | upload | mediaDefinedDownload => cases fileType <;> cases h

theorem comes_tftpRequest (remote : Endpoint) (requestType : RequestType) (filename : Text)
    (options : Arinc615aOptions) :
    Comes lib op (.tftpRequest remote requestType filename options)
      (op.tftpRequest remote requestType filename options).2 := by
  cases hcheck : op.checkRequest filename remote with
  | some answer =>
    rw [tftpRequest_checked hcheck, checkRequest_eq_some hcheck]
    exact .bare rfl
  | none =>
    rw [tftpRequest_unchecked hcheck]
    refine Comes.append ?_ ?_
    · unfold readAnswer
      split
      · exact .bare rfl
      · exact .nil
    · dsimp only
      cases hhandling :
          handling op.kind requestType (ProtocolFilename.ofText filename).fileTypeV options with
      | error | file => exact .bare rfl
      | status =>
        rcases op.statusFileRequest_cases remote with ⟨-, heq⟩ | ⟨-, -, heq⟩
        · rw [handle, heq]
          exact .bare rfl
        · rw [handle, heq]
          exact .single (.transfer remote requestType filename options _ hhandling)
      | list checkValue =>
        refine Comes.append ?_ (.single (.listTransfer remote requestType filename options _ hhandling))
        split
        · exact .bare rfl
        · exact .nil

theorem comes_send {request : Request} {r : Reaction} (h : op.send lib request = some (.ok r)) :
    Comes lib op (.send request) r.2 := by
  have htransmit : ∀ {transmit : Bytes → Output} {encoded : Except Arinc615aException Bytes},
      (∀ file, encoded = .ok file → Origin lib op (.send request) (transmit file)) →
      (if op.sent then Except.ok (op, []) else do
        let file ← encoded
        Except.ok (op, [transmit file, Output.transferStart .request])) = .ok r →
      Comes lib op (.send request) r.2 := by
    intro transmit encoded horigin heq
    split at heq
    · cases heq
      exact .nil
    · obtain ⟨file, hencoded, hfile⟩ := bind_eq_ok heq
      cases hfile
      exact Comes.append (.single (horigin file hencoded)) (.single (.send request))
  unfold send at h
  split at h
  next loads hkind =>
    exact htransmit (fun file hfile => .loadList loads file hkind hfile) (Option.some.inj h)
  next files userDefinedData hkind =>
    exact htransmit (fun file hfile => .request files userDefinedData file hkind hfile)
      (Option.some.inj h)
  next files hkind =>
    exact htransmit (fun file hfile => .answer files file hkind hfile) (Option.some.inj h)
  · cases h

end Operation

namespace World

/-- What a step calls comes from its event. -/
theorem comes_step {lib : Library} {w w' : World} {event : Event} {out : List Observation}
    (hstep : w.step lib event = some (w', out)) :
    ∀ o, .call o ∈ out → Origin lib w.operation event o := by
  rcases step_cases hstep with ⟨result, rfl⟩ | ⟨v, r, hruns, hreact⟩
  · cases hstep
    intro o ho
    obtain ⟨o', ho', heq⟩ := List.mem_map.mp ((List.mem_cons.mp ho).resolve_left (by simp))
    cases heq
    exact w.operation.comes_start lib result _ ho'
  obtain ⟨-, rfl⟩ := react_eq hreact
  intro o ho
  obtain ⟨o', ho', heq⟩ := List.mem_map.mp ho
  cases heq
  revert ho'
  refine (?_ : Comes lib w.operation event r.2) _
  cases hruns with
  | abort reason => exact w.operation.comes_doAbort lib _ reason
  | terminate reason => exact w.operation.comes_doTerminate lib reason
  | send request reaction hsend => exact w.operation.comes_send lib hsend
  | throws | timerElapses => exact .nil
  | tftpRequest remote requestType filename options =>
    exact w.operation.comes_tftpRequest lib remote requestType filename options
  | deferred waitTime => exact .bare rfl
  | completed transfer status data =>
    cases transfer with
    | initialisation => exact w.operation.comes_initialisationFileCompleted lib status data
    | status id => exact w.operation.comes_statusFileCompleted lib id status data
    | list checkValue => exact w.operation.comes_listFileCompleted lib checkValue status data
    | request => exact w.operation.comes_requestCompleted lib status
  | timerHandler result => exact w.operation.comes_timerHandler lib result

end World

end Arinc615a.Host
