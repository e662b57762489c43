import Arinc615a.Target.Operation

/-!
# The target operations

What `InformationOperationImpl.cpp`, `UploadOperationImpl.cpp`,
`MediaDefinedDownloadOperationImpl.cpp` and `OperatorDefinedDownloadOperationImpl.cpp` add to the
base: the entries of the status, the lists that are sent and the request files that are received.
-/

open Reasoning

namespace Arinc615a.Target

open Files Information Tftp

/-- Codes that the end of all loads or files does not change. -/
def entryFinal : StatusCode → Bool
  | .operationNotAccepted | .operationNotSupported | .operationCompleted
  | .operationAbortedByTargetHw | .operationAbortedByDlp | .operationAbortedByOperator
  | .loadPartNumberOrDownloadFileFailed => true
  | _ => false

namespace Operation

/-! ## What the operation classes have in common -/

/-- `inProgress` with a list ratio, of upload and downloads. -/
def inProgressRatio {σ : Type} (modify : (Status → Status) → σ → σ)
    (listRatio : Ratio → σ → σ) (order : ArgumentOrder) (estimatedTime : Int16)
    (description : Text) (ratio : Ratio) (statusV : σ) : σ :=
  listRatio ratio <| modify (fun status =>
    { status.set (inProgressCode order description) description with
      estimatedTime := estimatedTime }) statusV

/-- `requestFileCompleted` and `answerFileCompleted`: `failed`, `version` and `format` are the
descriptions of the final status, and `call` is the call to the handler. -/
def fileCompleted {σ : Type} (decode : FileDecoder σ Unit) (empty : σ)
    (protocolVersion : σ → Arinc615aVersion) (call : σ → Output)
    (failed version format : String) (lib : Library) (op : Operation)
    (transferStatus : TransferStatus) (rawFile : Bytes) : Reaction :=
  if transferStatus ≠ .successful then
    op.finished lib .abortedByTargetHardware (text failed)
  else match decode empty rawFile with
    | .done _ file _ =>
      -- the file has been read; its version must be the one that was announced
      if protocolVersion file ≠ op.protocolVersion then
        op.finished lib .abortedByTargetHardware (text version)
      else op.emit (call file)
    | .thrown (.exception _) _ => op.finished lib .abortedByTargetHardware (text format)
    | .thrown .overrun _ => (op, [])

/-- `tftpRequest` of the operations that receive a request file. -/
def fileRequest (fileType : ProtocolFileType) (wrongAddress : String) (op : Operation)
    (remote : Endpoint) (requestType : RequestType) (filename : Text) : Reaction :=
  if op.hostAddress ≠ remote.address then
    op.emit (.errorOperation remote .illegalTftpOperation wrongAddress)
  else if requestType ≠ .write then
    op.emit (.errorOperation remote .illegalTftpOperation "Only WRQ allowed")
  -- the target identifier of the name is not looked at
  else if (ProtocolFilename.ofText filename).fileTypeV ≠ fileType then
    op.emit (.errorOperation remote .fileNotFound "Wrong filename")
  else op.emit (.receiveFile remote)

end Operation

/-! ## Information operation -/

namespace InformationOperation

open Operation

/-- An exception of `encode` goes to the caller. -/
def targetInformation (lib : Library) (op : Operation) (targetsHardware : List TargetHardware)
    (checkValueType : CheckValueType) : Reaction :=
  match LoadConfigurationListFile.encode lib.raw
      { protocolVersion := op.protocolVersion, targetsHardware := targetsHardware } with
  | .error exception => op.emit (.thrown exception)
  | .ok rawFile =>
    op.protocolFileOperation .loadConfigurationList rawFile
      (lib.generateCheckValue checkValueType rawFile) .list

def targetInformationCompleted (lib : Library) (op : Operation)
    (transferStatus : TransferStatus) : Reaction :=
  if transferStatus ≠ .successful then
    op.finished lib .abortedByTargetHardware (text "Target Information transmission failed")
  -- no status has been set, so the host takes the list for the end
  else if op.statusV.status.code = .invalid then op.finalise
  else (op.status .operationCompleted).statusFile lib

def tftpRequest (op : Operation) (remote : Endpoint) : Reaction :=
  op.emit (.errorOperation remote .fileNotFound "RRQ/WRQ not expected")

end InformationOperation

/-! ## Upload operation -/

namespace UploadOperation

open Operation

def inProgress (order : ArgumentOrder) (estimatedTime : Int16) (description : Text)
    (listRatio : Ratio) (statusV : UploadStatus) : UploadStatus :=
  inProgressRatio (fun f status => { status with toStatus := f status.toStatus })
    (fun ratio status => { status with listRatio := ratio }) order estimatedTime description
    listRatio statusV

/-- The two argument form of `load` adds an entry in any case. -/
def loadAccepted (headerFilename partNumber : Text) (statusV : UploadStatus) : UploadStatus :=
  let load : UploadLoadStatus := { headerFilename := headerFilename, partNumber := partNumber }
  { statusV with loads := statusV.loads ++ [load.set .zero .operationAccepted []] }

def loadInProgress (order : ArgumentOrder) (headerFilename : Text) (ratio : Ratio)
    (description : Text) (statusV : UploadStatus) : UploadStatus :=
  statusV.load headerFilename fun load =>
    load.set ratio (inProgressCode order description) description

def loadFinished (headerFilename : Text) (finalStatus : FinalStatus) (description : Text)
    (statusV : UploadStatus) : UploadStatus :=
  statusV.load headerFilename fun load => load.set load.ratio finalStatus.statusCode description

def loadsFinished (finalStatus : FinalStatus) (description : Text) (statusV : UploadStatus) :
    UploadStatus :=
  { statusV with
    loads := statusV.loads.map fun load =>
      -- what has ended already keeps its code
      if entryFinal load.code then load
      else load.set load.ratio finalStatus.statusCode description }

def requestFileCompleted (lib : Library) : Operation → TransferStatus → Bytes → Reaction :=
  fileCompleted (UploadOperationRequestFile.decode lib.raw) {} (·.protocolVersion)
    (fun requestFile => .loadList requestFile.loads) "Request file transmission failed"
    "Request file protocol version invalid" "Request file format error" lib

def tftpRequest : Operation → Endpoint → RequestType → Text → Reaction :=
  fileRequest .uploadRequest "Request from this address isn't expected"

end UploadOperation

/-! ## Download operations -/

namespace DownloadOperation

open Operation

def inProgress (order : ArgumentOrder) (estimatedTime : Int16) (description : Text)
    (listRatio : Ratio) (statusV : DownloadStatus) : DownloadStatus :=
  inProgressRatio (fun f status => { status with toStatus := f status.toStatus })
    (fun ratio status => { status with listRatio := ratio }) order estimatedTime description
    listRatio statusV

/-- `std::move( filename )` selects the overload of `file` that adds an entry in any case. -/
def fileAccepted (filename : Text) (statusV : DownloadStatus) : DownloadStatus :=
  let file : DownloadFileStatus := { filename := filename }
  { statusV with files := statusV.files ++ [file.set .operationAccepted []] }

def fileInProgress (order : ArgumentOrder) (filename : Text) (description : Text)
    (statusV : DownloadStatus) : DownloadStatus :=
  statusV.file filename fun file => file.set (inProgressCode order description) description

def fileFinished (filename : Text) (finalStatus : FinalStatus) (description : Text)
    (statusV : DownloadStatus) : DownloadStatus :=
  statusV.file filename fun file => file.set finalStatus.statusCode description

def filesFinished (finalStatus : FinalStatus) (description : Text) (statusV : DownloadStatus) :
    DownloadStatus :=
  { statusV with
    files := statusV.files.map fun file =>
      if entryFinal file.code then file else file.set finalStatus.statusCode description }

end DownloadOperation

namespace MediaDefinedDownloadOperation

open Operation

def requestFileCompleted (lib : Library) : Operation → TransferStatus → Bytes → Reaction :=
  fileCompleted (DownloadOperationRequestFile.decode lib.raw) {} (·.protocolVersion)
    (fun requestFile => .downloadingRequest requestFile.files requestFile.userDefinedData)
    "Receive dowmload request file failed" "Request file protocol version invalid"
    "Request file format error" lib

def tftpRequest : Operation → Endpoint → RequestType → Text → Reaction :=
  fileRequest .mediaDefinedDownloadRequest "Request from this address not expected"

end MediaDefinedDownloadOperation

namespace OperatorDefinedDownloadOperation

open Operation

def downloadingList (lib : Library) (op : Operation) (files : List DownloadFileInformation) :
    Reaction :=
  match DownloadOperationListFile.encode lib.raw
      { protocolVersion := op.protocolVersion, files := files } with
  | .error exception => op.emit (.thrown exception)
  | .ok file => op.protocolFileOperation .operatorDefinedDownloadList file {} .list

def downloadingListCompleted (lib : Library) (op : Operation) (transferStatus : TransferStatus) :
    Reaction :=
  if transferStatus ≠ .successful then
    op.finished lib .abortedByTargetHardware (text "Target Information transmission failed")
  else (op, [])

def answerFileCompleted (lib : Library) : Operation → TransferStatus → Bytes → Reaction :=
  fileCompleted (DownloadOperationAnswerFile.decode lib.raw) {} (·.protocolVersion)
    (fun answerFile => .downloadingAnswer answerFile.files) "Receive download answer file failed"
    "Answer file protocol version invalid" "Answer file format error" lib

def tftpRequest : Operation → Endpoint → RequestType → Text → Reaction :=
  fileRequest .operatorDefinedDownloadAnswer "Request from this address not expected"

end OperatorDefinedDownloadOperation

/-! ## Dispatch -/

/-- The calls that the handler can make on an operation. -/
inductive Call where
  | accepted
  | inProgress (order : Operation.ArgumentOrder) (immediateTransmission : Bool)
      (estimatedTime : Int16) (description : Text)
  | inProgressRatio (order : Operation.ArgumentOrder) (immediateTransmission : Bool)
      (estimatedTime : Int16) (description : Text) (listRatio : Ratio)
  | finished (finalStatus : FinalStatus) (description : Text)
  | loadAccepted (headerFilename partNumber : Text)
  | loadInProgress (order : Operation.ArgumentOrder) (headerFilename : Text) (ratio : Ratio)
      (description : Text)
  | loadFinished (headerFilename : Text) (finalStatus : FinalStatus) (description : Text)
  | loadsFinished (finalStatus : FinalStatus) (description : Text)
  | fileAccepted (filename : Text)
  | fileInProgress (order : Operation.ArgumentOrder) (filename : Text) (description : Text)
  | fileFinished (filename : Text) (finalStatus : FinalStatus) (description : Text)
  | filesFinished (finalStatus : FinalStatus) (description : Text)
  | targetInformation (targetsHardware : List TargetHardware) (checkValueType : CheckValueType)
  | downloadingList (files : List DownloadFileInformation)
  deriving DecidableEq

/-- Whether a call on the list ratio asks for the status to be sent at once. -/
def Call.immediate : Call → Bool
  | .inProgressRatio _ immediateTransmission _ _ _ => immediateTransmission
  | _ => false

namespace AnyStatus

/-- Changes the status of an upload operation. -/
def modifyUpload (f : UploadStatus → UploadStatus) : AnyStatus → Option AnyStatus
  | .upload status => some (.upload (f status))
  | _ => none

/-- Changes the status of a download operation. -/
def modifyDownload (f : DownloadStatus → DownloadStatus) : AnyStatus → Option AnyStatus
  | .mediaDefinedDownload status => some (.mediaDefinedDownload (f status))
  | .operatorDefinedDownload status => some (.operatorDefinedDownload (f status))
  | _ => none

/-- The change of the status that a call on its loads or files, or on the list ratio makes.
`none` is a call that the class does not have. -/
def edit (statusV : AnyStatus) : Call → Option AnyStatus
  | .inProgressRatio order _ estimatedTime description listRatio =>
    match statusV with
    | .upload _ => statusV.modifyUpload
        (UploadOperation.inProgress order estimatedTime description listRatio)
    | _ => statusV.modifyDownload
        (DownloadOperation.inProgress order estimatedTime description listRatio)
  | .loadAccepted headerFilename partNumber =>
    statusV.modifyUpload (UploadOperation.loadAccepted headerFilename partNumber)
  | .loadInProgress order headerFilename ratio description =>
    statusV.modifyUpload (UploadOperation.loadInProgress order headerFilename ratio description)
  | .loadFinished headerFilename finalStatus description =>
    statusV.modifyUpload (UploadOperation.loadFinished headerFilename finalStatus description)
  | .loadsFinished finalStatus description =>
    statusV.modifyUpload (UploadOperation.loadsFinished finalStatus description)
  | .fileAccepted filename => statusV.modifyDownload (DownloadOperation.fileAccepted filename)
  | .fileInProgress order filename description =>
    statusV.modifyDownload (DownloadOperation.fileInProgress order filename description)
  | .fileFinished filename finalStatus description =>
    statusV.modifyDownload (DownloadOperation.fileFinished filename finalStatus description)
  | .filesFinished finalStatus description =>
    statusV.modifyDownload (DownloadOperation.filesFinished finalStatus description)
  | _ => none

end AnyStatus

namespace Operation

/-- `none` is a call that the class does not have. -/
def call (lib : Library) (op : Operation) : Call → Option Reaction
  | .accepted => some (op.accepted lib)
  | .inProgress order immediateTransmission estimatedTime description =>
    some (op.inProgress lib order immediateTransmission estimatedTime description)
  | .finished finalStatus description => some (op.finished lib finalStatus description)
  | .targetInformation targetsHardware checkValueType =>
    match op.statusV.kind with
    | .information =>
      some (InformationOperation.targetInformation lib op targetsHardware checkValueType)
    | _ => none
  | .downloadingList files =>
    match op.statusV.kind with
    | .operatorDefinedDownload =>
      some (OperatorDefinedDownloadOperation.downloadingList lib op files)
    | _ => none
  | .inProgressRatio order immediateTransmission estimatedTime description listRatio =>
    (op.statusV.edit (.inProgressRatio order immediateTransmission estimatedTime description
      listRatio)).map fun statusV =>
      let op := { op with statusV := statusV }
      -- upload and downloads send by the timer, here as in `forceStatusTransmission`
      if immediateTransmission then op.triggerStatusTransmission else (op, [])
  | entry => (op.statusV.edit entry).map fun statusV => ({ op with statusV := statusV }, [])

def tftpRequest (op : Operation) (remote : Endpoint) (requestType : RequestType)
    (filename : Text) : Reaction :=
  match op.statusV.kind with
  | .information => InformationOperation.tftpRequest op remote
  | .upload => UploadOperation.tftpRequest op remote requestType filename
  | .mediaDefinedDownload =>
    MediaDefinedDownloadOperation.tftpRequest op remote requestType filename
  | .operatorDefinedDownload =>
    OperatorDefinedDownloadOperation.tftpRequest op remote requestType filename

/-- Upload and media defined download never send a list. -/
def listCompleted (lib : Library) (op : Operation) (transferStatus : TransferStatus) : Reaction :=
  match op.statusV.kind with
  | .information => InformationOperation.targetInformationCompleted lib op transferStatus
  | .operatorDefinedDownload =>
    OperatorDefinedDownloadOperation.downloadingListCompleted lib op transferStatus
  | .upload | .mediaDefinedDownload => (op, [])

/-- The information operation never receives a request file. -/
def requestCompleted (lib : Library) (op : Operation) (transferStatus : TransferStatus)
    (rawFile : Bytes) : Reaction :=
  match op.statusV.kind with
  | .information => (op, [])
  | .upload => UploadOperation.requestFileCompleted lib op transferStatus rawFile
  | .mediaDefinedDownload =>
    MediaDefinedDownloadOperation.requestFileCompleted lib op transferStatus rawFile
  | .operatorDefinedDownload =>
    OperatorDefinedDownloadOperation.answerFileCompleted lib op transferStatus rawFile

/-! ## What the calls and requests do -/

/-- A list is sent, unless it cannot be encoded. -/
inductive ListSent (op : Operation) : Reaction → Prop where
  | thrown (exception : Arinc615aException) : ListSent op (op.emit (.thrown exception))
  | sent (fileType : ProtocolFileType) (data : Bytes) (checkValue : CheckValue) :
    ListSent op (op.protocolFileOperation fileType data checkValue .list)

/-- What `call` does on a call that the class has. -/
inductive Called (lib : Library) (op : Operation) : Call → Reaction → Prop where
  | accepted : Called lib op .accepted (op.accepted lib)
  | inProgress {order : ArgumentOrder} {immediateTransmission : Bool} {estimatedTime : Int16}
      {description : Text} :
    Called lib op (.inProgress order immediateTransmission estimatedTime description)
      (op.inProgress lib order immediateTransmission estimatedTime description)
  | finished {finalStatus : FinalStatus} {description : Text} :
    Called lib op (.finished finalStatus description) (op.finished lib finalStatus description)
  | targetInformation {targetsHardware : List TargetHardware} {checkValueType : CheckValueType}
      {r : Reaction} (h : ListSent op r) :
    Called lib op (.targetInformation targetsHardware checkValueType) r
  | downloadingList {files : List DownloadFileInformation} {r : Reaction} (h : ListSent op r) :
    Called lib op (.downloadingList files) r
  | ratio {call : Call} {statusV : AnyStatus} (h : op.statusV.edit call = some statusV)
      (hratio : call.immediate = true) :
    Called lib op call { op with statusV := statusV }.triggerStatusTransmission
  | edit {call : Call} {statusV : AnyStatus} (h : op.statusV.edit call = some statusV)
      (hlater : call.immediate = false) :
    Called lib op call ({ op with statusV := statusV }, [])

theorem called_of_call {lib : Library} {op : Operation} {call : Call} {r : Reaction}
    (h : op.call lib call = some r) : Called lib op call r := by
  cases call with
  | accepted =>
    cases h
    exact .accepted
  | inProgress =>
    cases h
    exact .inProgress
  | finished =>
    cases h
    exact .finished
  | targetInformation =>
    dsimp only [Operation.call] at h
    split at h
    · cases h
      unfold InformationOperation.targetInformation
      split
      · exact .targetInformation (.thrown _)
      · exact .targetInformation (.sent ..)
    · cases h
  | downloadingList =>
    dsimp only [Operation.call] at h
    split at h
    · cases h
      unfold OperatorDefinedDownloadOperation.downloadingList
      split
      · exact .downloadingList (.thrown _)
      · exact .downloadingList (.sent ..)
    · cases h
  | inProgressRatio order immediateTransmission =>
    obtain ⟨statusV, hedit, rfl⟩ := Option.map_eq_some_iff.mp h
    cases immediateTransmission with
    | true => exact .ratio hedit rfl
    | false => exact .edit hedit rfl
  | _ =>
    obtain ⟨statusV, hedit, rfl⟩ := Option.map_eq_some_iff.mp h
    exact .edit hedit rfl

/-- A request is answered with an error, or the file is received. -/
theorem tftpRequest_elim {P : Reaction → Prop} {op : Operation} {remote : Endpoint}
    {requestType : RequestType} {filename : Text}
    (herror : ∀ errorCode errorMessage,
      P (op.emit (.errorOperation remote errorCode errorMessage)))
    (hreceive : P (op.emit (.receiveFile remote))) :
    P (op.tftpRequest remote requestType filename) := by
  have hrequest : ∀ fileType wrongAddress,
      P (fileRequest fileType wrongAddress op remote requestType filename) := by
    intro fileType wrongAddress
    unfold fileRequest
    split
    · exact herror _ _
    · split
      · exact herror _ _
      · split
        · exact herror _ _
        · exact hreceive
  unfold tftpRequest
  cases op.statusV.kind with
  | information => exact herror _ _
  | upload | mediaDefinedDownload | operatorDefinedDownload => exact hrequest _ _

/-- A start changes the address of the host, and sends the initialisation file or does nothing. -/
theorem start_elim {lib : Library} {P : Reaction → Prop} {op : Operation} {hostAddress : Endpoint}
    {port : Option UInt16} {result : StartResult}
    (hnothing : ∀ hostPort,
      P ({ op with hostAddress := hostAddress.address, hostPort := hostPort }, []))
    (hsend : ∀ hostPort data,
      P ({ op with hostAddress := hostAddress.address, hostPort := hostPort }.emit
        (.sendInitFile hostAddress data port))) :
    P (op.start lib hostAddress port result) := by
  have hfile : ∀ hostPort,
      P ({ op with hostAddress := hostAddress.address, hostPort := hostPort }.sendInitFile lib
        hostAddress port result) := by
    intro hostPort
    unfold sendInitFile
    split
    · exact hnothing _
    · cases result with
      | started => exact hsend _ _
      | throws => exact hnothing _
  unfold Operation.start
  cases port with
  | none => exact hfile op.hostPort
  | some port => exact hfile port

/-! ## What the completions do -/

/-- The end of a list finishes the operation, sends its last status, or has no consequence. -/
theorem listCompleted_elim {lib : Library} {P : Reaction → Prop} {op : Operation}
    {transferStatus : TransferStatus}
    (hfinished : ∀ description, P (op.finished lib .abortedByTargetHardware description))
    (hfinalise : P op.finalise)
    (hstatus : P ((op.status .operationCompleted).statusFile lib)) (hnothing : P (op, [])) :
    P (op.listCompleted lib transferStatus) := by
  unfold listCompleted
  cases op.statusV.kind with
  | information =>
    dsimp only [InformationOperation.targetInformationCompleted]
    split
    · exact hfinished _
    · split
      · exact hfinalise
      · exact hstatus
  | operatorDefinedDownload =>
    dsimp only [OperatorDefinedDownloadOperation.downloadingListCompleted]
    split
    · exact hfinished _
    · exact hnothing
  | upload | mediaDefinedDownload => exact hnothing

theorem fileCompleted_elim {σ : Type} {decode : FileDecoder σ Unit} {empty : σ}
    {protocolVersion : σ → Arinc615aVersion} {call : σ → Output} {failed version format : String}
    {lib : Library} {P : Reaction → Prop} {op : Operation} {transferStatus : TransferStatus}
    {rawFile : Bytes}
    (hfinished : ∀ description, P (op.finished lib .abortedByTargetHardware description))
    (hcall : ∀ file, P (op.emit (call file))) (hnothing : P (op, [])) :
    P (fileCompleted decode empty protocolVersion call failed version format lib op transferStatus
      rawFile) := by
  unfold fileCompleted
  split
  · exact hfinished _
  · split
    · split
      · exact hfinished _
      · exact hcall _
    · exact hfinished _
    · exact hnothing

/-- A request file is handed to the handler, or finishes an operation that sends its status by the
timer. -/
theorem requestCompleted_elim {lib : Library} {P : Reaction → Prop} {op : Operation}
    {transferStatus : TransferStatus} {rawFile : Bytes}
    (hfinished : op.statusV.kind ≠ .information →
      ∀ description, P (op.finished lib .abortedByTargetHardware description))
    (hloads : ∀ loads, P (op.emit (.loadList loads)))
    (hfiles : ∀ files userDefinedData, P (op.emit (.downloadingRequest files userDefinedData)))
    (hanswer : ∀ files, P (op.emit (.downloadingAnswer files))) (hnothing : P (op, [])) :
    P (op.requestCompleted lib transferStatus rawFile) := by
  unfold requestCompleted
  cases hkind : op.statusV.kind with
  | information => exact hnothing
  | upload =>
    exact fileCompleted_elim (hfinished (by simp [hkind])) (fun _ => hloads _) hnothing
  | mediaDefinedDownload =>
    exact fileCompleted_elim (hfinished (by simp [hkind])) (fun _ => hfiles _ _) hnothing
  | operatorDefinedDownload =>
    exact fileCompleted_elim (hfinished (by simp [hkind])) (fun _ => hanswer _) hnothing

end Operation

end Arinc615a.Target
