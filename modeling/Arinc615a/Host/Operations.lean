import Arinc615a.Host.Operation

/-!
# The host operations

`InformationOperationImpl.cpp`, `UploadOperationImpl.cpp`, `DownloadOperationImpl.cpp` and the two
download operations derived from the last.
-/

open Reasoning

namespace Arinc615a.Host

open Files Information Tftp

/-! ## Status files -/

/-- A decoded status file: the call to the handler, and the status the operation looks at. -/
structure ReceivedStatus where
  call : Output
  status : Status

def receiveInformationStatus (lib : Library) (rawStatusFile : Bytes) : Option ReceivedStatus :=
  (InformationOperationStatusFile.decode lib.raw {} rawStatusFile).object?.map fun file =>
    { call := .informationStatus file.status, status := file.status }

def receiveUploadStatus (lib : Library) (rawStatusFile : Bytes) : Option ReceivedStatus :=
  (UploadOperationStatusFile.decode lib.raw {} rawStatusFile).object?.map fun file =>
    { call := .uploadStatus file.status, status := file.status.toStatus }

def receiveDownloadStatus (lib : Library) (rawStatusFile : Bytes) : Option ReceivedStatus :=
  (DownloadOperationStatusFile.decode lib.raw {} rawStatusFile).object?.map fun file =>
    { call := .downloadStatus file.status, status := file.status.toStatus }

namespace Operation

/-- `statusFileRequest` of all operations. -/
def statusFileRequest (op : Operation) (remote : Endpoint) : Reaction :=
  match op.isAborted remote with
  | some answer => answer
  | none =>
    let operation := op.nextStatusFileOperation
    ({ op with
        statusFileOperations := operation :: op.statusFileOperations
        nextStatusFileOperation := operation + 1 },
      [.transferStart (.status operation)])

/-- `std::list::remove`, with the number of removed elements. -/
def removeStatusFileOperation (op : Operation) (operation : Nat) : Operation × Nat :=
  ({ op with statusFileOperations := op.statusFileOperations.filter (· ≠ operation) },
    op.statusFileOperations.count operation)

/-- The switch over the status code.  `progress` is what the operation notes when it has not
finished. -/
def statusReceived (progress : Operation → Operation) (op : Operation) (status : Status) :
    Reaction :=
  match status.code with
  | .operationNotAccepted | .operationNotSupported | .operationCompleted
  | .operationAbortedByTargetHw | .operationAbortedByDlp | .operationAbortedByOperator =>
    op.finished status.code status.description
  | .operationAccepted => (progress op).triggerDlpTimeout
  -- the target asks for more time with its exception timer
  | .operationInProgress | .operationInProgressAdditionalInfo =>
    (progress op).triggerDlpTimeout status.exceptionTimer.toNat
  | .loadPartNumberOrDownloadFileFailed | .operationDeferred | .invalid =>
    op.finished .operationAbortedByDlp []

/-- What comes after the operation has been removed from the list. -/
def statusFileReceived (receive : Bytes → Option ReceivedStatus)
    (progress : Operation → Operation) (op : Operation) (status : TransferStatus)
    (rawStatusFile : Bytes) : Reaction :=
  if status ≠ .successful then
    op.finished .operationAbortedByDlp (text "Status file could not be received")
  else match receive rawStatusFile with
    | some received =>
      (op.emit received.call).andThen fun op => statusReceived progress op received.status
    -- the exception is logged, and the operation goes on without a status
    | none => (op, [])

/-- `statusFileCompleted` of upload and download: an unknown operation finishes the operation, and
the callback goes on. -/
def statusFileCompletedOnward (receive : Bytes → Option ReceivedStatus) (op : Operation)
    (operation : Nat) (status : TransferStatus) (rawStatusFile : Bytes) : Reaction :=
  let (op, removed) := op.removeStatusFileOperation operation
  let first : Reaction :=
    if removed ≠ 1 then
      op.finished .operationAbortedByDlp
        (text "Status file operation completed, which was not initiated")
    else (op, [])
  first.andThen fun op => statusFileReceived receive id op status rawStatusFile

end Operation

/-! ## Information operation -/

namespace InformationOperation

open Operation

def start (op : Operation) (result : StartResult) : Reaction :=
  initialise { op with waitForFinalStatus := false } .loadConfigurationInitialization result

def statusFileCompleted (lib : Library) (op : Operation) (operation : Nat)
    (status : TransferStatus) (rawStatusFile : Bytes) : Reaction :=
  let (op, removed) := op.removeStatusFileOperation operation
  if removed ≠ 1 then
    op.finished .operationAbortedByDlp
      (text "Status file operation completed, which was not initiated")
  else
    statusFileReceived (receiveInformationStatus lib)
      -- from now on a list does not end the operation
      (fun op => { op with waitForFinalStatus := true }) op status rawStatusFile

def listFileRequest (op : Operation) (clientArinc615aOptions : Arinc615aOptions) : Reaction :=
  let transfer := Transfer.list clientArinc615aOptions.checksum
  let abort : List Output :=
    if op.listFileOperation then [.gracefulAbort transfer "New list file received"] else []
  ({ op with listFileOperation := true }, abort ++ [.transferStart transfer])

/-- What a list that cannot be used leads to. -/
def listFileFailed (op : Operation) : Reaction :=
  if op.waitForFinalStatus then op.doAbort .protocol
  else op.finished .operationAbortedByDlp (text "Invalid Protocol file")

def listFileCompleted (lib : Library) (op : Operation) (checkValue : CheckValue)
    (status : TransferStatus) (rawListFile : Bytes) : Reaction :=
  let op := { op with listFileOperation := false }
  if status ≠ .successful then listFileFailed op
  else
    let integrityInformation :=
      lib.generateCheckValue checkValue.type rawListFile = checkValue
    match LoadConfigurationListFile.decode lib.raw {} rawListFile with
    | .done _ listFile _ =>
      (op.emit (.targetInformation listFile.targetsHardware integrityInformation)).andThen fun op =>
        -- unless a status was received before, the list is the end of the operation
        if op.waitForFinalStatus then op.triggerDlpTimeout
        else op.finished .operationCompleted []
    | .thrown (.exception _) _ => listFileFailed op
    | .thrown .overrun _ => (op, [])

def tftpRequest (op : Operation) (remote : Endpoint) (requestType : RequestType)
    (filename : Text) (clientArinc615aOptions : Arinc615aOptions) : Reaction :=
  match op.checkRequest filename remote with
  | some answer => answer
  | none =>
    -- a request that is not a write request is answered, and then handled all the same
    let first : Reaction :=
      if requestType ≠ .write then
        op.emit (.errorOperation remote .illegalTftpOperation "Only WRQ allowed")
      else (op, [])
    first.andThen fun op =>
      match (ProtocolFilename.ofText filename).fileTypeV with
      | .loadConfigurationList => listFileRequest op clientArinc615aOptions
      | .loadConfigurationStatus => op.statusFileRequest remote
      | _ => op.emit (.errorOperation remote .fileNotFound "Wrong filename")

end InformationOperation

/-! ## Upload operation -/

namespace UploadOperation

open Operation

def start (op : Operation) (result : StartResult) : Reaction :=
  initialise { op with sent := false } .uploadInitialization result

def statusFileCompleted (lib : Library) : Operation → Nat → TransferStatus → Bytes → Reaction :=
  statusFileCompletedOnward (receiveUploadStatus lib)

/-- An exception of `encode` goes to the caller. -/
def loadList (lib : Library) (op : Operation) (loads : List UploadLoad) :
    Except Arinc615aException Reaction :=
  if op.sent then .ok (op, [])
  else do
    let file ← UploadOperationRequestFile.encode lib.raw
      { protocolVersion := op.protocolVersion, loads := loads }
    .ok (op, [.transmitFile .uploadRequest (op.protocolFilename .uploadRequest) file,
      .transferStart .request])

def loadListCompleted (op : Operation) (status : TransferStatus) : Reaction :=
  if status ≠ .successful then op.doAbort .protocol else ({ op with sent := true }, [])

def tftpRequest (op : Operation) (remote : Endpoint) (requestType : RequestType)
    (filename : Text) (clientArinc615aOptions : Arinc615aOptions) : Reaction :=
  match op.checkRequest filename remote with
  | some answer => answer
  | none =>
    match requestType with
    | .read =>
      -- the target reads load files, whose names are left to the user
      op.emit (.fileRequest remote filename clientArinc615aOptions.partNumber
        clientArinc615aOptions.checksum)
    | .write =>
      match (ProtocolFilename.ofText filename).fileTypeV with
      | .uploadStatus => op.statusFileRequest remote
      | _ => op.emit (.errorOperation remote .fileNotFound "Wrong filename")

end UploadOperation

/-! ## Download operations -/

namespace DownloadOperation

open Operation

def statusFileCompleted (lib : Library) : Operation → Nat → TransferStatus → Bytes → Reaction :=
  statusFileCompletedOnward (receiveDownloadStatus lib)

end DownloadOperation

namespace MediaDefinedDownloadOperation

open Operation

def start (op : Operation) (result : StartResult) : Reaction :=
  initialise { op with sent := false } .mediaDefinedDownloadInitialization result

def request (lib : Library) (op : Operation) (files : List Text) (userDefinedData : Bytes) :
    Except Arinc615aException Reaction :=
  if op.sent then .ok (op, [])
  else do
    let file ← DownloadOperationRequestFile.encode lib.raw
      { protocolVersion := op.protocolVersion, files := files, userDefinedData := userDefinedData }
    .ok (op, [.transmitFile .mediaDefinedDownloadRequest
      (op.protocolFilename .mediaDefinedDownloadRequest) file, .transferStart .request])

def requestCompleted (op : Operation) (status : TransferStatus) : Reaction :=
  if status ≠ .successful then op.doAbort .protocol else ({ op with sent := true }, [])

def tftpRequest (op : Operation) (remote : Endpoint) (requestType : RequestType)
    (filename : Text) (clientArinc615aOptions : Arinc615aOptions) : Reaction :=
  match op.checkRequest filename remote with
  | some answer => answer
  | none =>
    match requestType with
    | .read => op.emit (.errorOperation remote .illegalTftpOperation "Unexpected read request")
    | .write =>
      match (ProtocolFilename.ofText filename).fileTypeV with
      -- any other name is taken for a file that the target delivers
      | .downloadStatus => op.statusFileRequest remote
      | _ =>
        op.emit (.fileRequest remote filename clientArinc615aOptions.partNumber
          clientArinc615aOptions.checksum)

end MediaDefinedDownloadOperation

namespace OperatorDefinedDownloadOperation

open Operation

def start (op : Operation) (result : StartResult) : Reaction :=
  initialise { op with sent := false } .operatorDefinedDownloadInitialization result

def answer (lib : Library) (op : Operation) (files : List Text) :
    Except Arinc615aException Reaction :=
  if op.sent then .ok (op, [])
  else do
    let file ← DownloadOperationAnswerFile.encode lib.raw
      { protocolVersion := op.protocolVersion, files := files }
    .ok (op, [.transmitFile .operatorDefinedDownloadAnswer
      (op.protocolFilename .operatorDefinedDownloadAnswer) file, .transferStart .request])

def answerCompleted (op : Operation) (status : TransferStatus) : Reaction :=
  if status ≠ .successful then op.doAbort .protocol else ({ op with sent := true }, [])

def listFileRequest (op : Operation) : Reaction :=
  let abort : List Output :=
    if op.listFileOperation then [.gracefulAbort (.list {}) "New list file received"] else []
  ({ op with listFileOperation := true }, abort ++ [.transferStart (.list {})])

def listFileCompleted (lib : Library) (op : Operation) (status : TransferStatus)
    (rawListFile : Bytes) : Reaction :=
  let op := { op with listFileOperation := false }
  if status ≠ .successful then op.doAbort .protocol
  else match DownloadOperationListFile.decode lib.raw {} rawListFile with
    | .done _ listFile _ => op.emit (.downloadingList listFile.files)
    | .thrown (.exception _) _ => op.doAbort .protocol
    | .thrown .overrun _ => (op, [])

def tftpRequest (op : Operation) (remote : Endpoint) (requestType : RequestType)
    (filename : Text) (clientArinc615aOptions : Arinc615aOptions) : Reaction :=
  match op.checkRequest filename remote with
  | some answer => answer
  | none =>
    match requestType with
    | .read => op.emit (.errorOperation remote .illegalTftpOperation "Unexpected read request")
    | .write =>
      match (ProtocolFilename.ofText filename).fileTypeV with
      | .downloadStatus => op.statusFileRequest remote
      | .operatorDefinedDownloadList => listFileRequest op
      | _ =>
        op.emit (.fileRequest remote filename clientArinc615aOptions.partNumber
          clientArinc615aOptions.checksum)

end OperatorDefinedDownloadOperation

/-! ## Dispatch -/

namespace Operation

def start (op : Operation) : StartResult → Reaction :=
  match op.kind with
  | .information => InformationOperation.start op
  | .upload => UploadOperation.start op
  | .mediaDefinedDownload => MediaDefinedDownloadOperation.start op
  | .operatorDefinedDownload => OperatorDefinedDownloadOperation.start op

def tftpRequest (op : Operation) :
    Endpoint → RequestType → Text → Arinc615aOptions → Reaction :=
  match op.kind with
  | .information => InformationOperation.tftpRequest op
  | .upload => UploadOperation.tftpRequest op
  | .mediaDefinedDownload => MediaDefinedDownloadOperation.tftpRequest op
  | .operatorDefinedDownload => OperatorDefinedDownloadOperation.tftpRequest op

def statusFileCompleted (lib : Library) (op : Operation) :
    Nat → TransferStatus → Bytes → Reaction :=
  match op.kind with
  | .information => InformationOperation.statusFileCompleted lib op
  | .upload => UploadOperation.statusFileCompleted lib op
  | .mediaDefinedDownload | .operatorDefinedDownload => DownloadOperation.statusFileCompleted lib op

/-- Upload and media defined download never start a list transfer. -/
def listFileCompleted (lib : Library) (op : Operation) (checkValue : CheckValue)
    (status : TransferStatus) (rawListFile : Bytes) : Reaction :=
  match op.kind with
  | .information => InformationOperation.listFileCompleted lib op checkValue status rawListFile
  | .operatorDefinedDownload =>
    OperatorDefinedDownloadOperation.listFileCompleted lib op status rawListFile
  | .upload | .mediaDefinedDownload => (op, [])

/-- The file that the user of an operation hands over for transmission. -/
inductive Request where
  | loadList (loads : List UploadLoad)
  | request (files : List Text) (userDefinedData : Bytes)
  | answer (files : List Text)
  deriving DecidableEq, Repr

/-- The call of the operation class.  `none` is a call that the class does not have. -/
def send (lib : Library) (op : Operation) (request : Request) :
    Option (Except Arinc615aException Reaction) :=
  match op.kind, request with
  | .upload, .loadList loads => some (UploadOperation.loadList lib op loads)
  | .mediaDefinedDownload, .request files userDefinedData =>
    some (MediaDefinedDownloadOperation.request lib op files userDefinedData)
  | .operatorDefinedDownload, .answer files =>
    some (OperatorDefinedDownloadOperation.answer lib op files)
  | _, _ => none

def requestCompleted (op : Operation) : TransferStatus → Reaction :=
  match op.kind with
  | .information => fun _ => (op, [])
  | .upload => UploadOperation.loadListCompleted op
  | .mediaDefinedDownload => MediaDefinedDownloadOperation.requestCompleted op
  | .operatorDefinedDownload => OperatorDefinedDownloadOperation.answerCompleted op

/-! ## What requests lead to -/

/-- A status file is received if no abort is pending. -/
theorem statusFileRequest_elim {P : Reaction → Prop} {op : Operation} {remote : Endpoint}
    (haborted : op.abortReason ≠ .noAbort →
      P ((op.emit (.abortOperation remote (abortStatusCode op.abortReason))).andThen fun op =>
        triggerDlpTimeout { op with abortReason := .noAbort }))
    (hreceived : op.abortReason = .noAbort → P ({ op with
        statusFileOperations := op.nextStatusFileOperation :: op.statusFileOperations
        nextStatusFileOperation := op.nextStatusFileOperation + 1 },
      [.transferStart (.status op.nextStatusFileOperation)])) :
    P (op.statusFileRequest remote) := by
  unfold statusFileRequest isAborted
  by_cases hnone : op.abortReason = .noAbort
  · rw [if_pos hnone]
    exact hreceived hnone
  · rw [if_neg hnone]
    exact haborted hnone

/-- The check has one answer. -/
theorem checkRequest_eq_some {op : Operation} {filename : Text} {remote : Endpoint}
    {answer : Reaction} (h : op.checkRequest filename remote = some answer) :
    answer =
      op.emit (.errorOperation remote .fileNotFound "Wrong target ID for protocol file") := by
  unfold checkRequest at h
  split at h
  · exact (Option.some.inj h).symm
  · cases h

/-- What a request that passes the check is handled as, in all four operations. -/
inductive Handling where
  | error (errorCode : ErrorCode) (errorMessage : String)
  | file
  | status
  | list (checkValue : CheckValue)

def handling (kind : OperationType) (requestType : RequestType) (fileType : ProtocolFileType)
    (options : Arinc615aOptions) : Handling :=
  match kind, requestType with
  | .information, _ =>
    match fileType with
    | .loadConfigurationList => .list options.checksum
    | .loadConfigurationStatus => .status
    | _ => .error .fileNotFound "Wrong filename"
  | .upload, .read => .file
  | .upload, .write =>
    match fileType with
    | .uploadStatus => .status
    | _ => .error .fileNotFound "Wrong filename"
  | .mediaDefinedDownload, .read | .operatorDefinedDownload, .read =>
    .error .illegalTftpOperation "Unexpected read request"
  | .mediaDefinedDownload, .write =>
    match fileType with
    | .downloadStatus => .status
    | _ => .file
  | .operatorDefinedDownload, .write =>
    match fileType with
    | .downloadStatus => .status
    | .operatorDefinedDownloadList => .list {}
    | _ => .file

def handle (op : Operation) (remote : Endpoint) (filename : Text) (options : Arinc615aOptions) :
    Handling → Reaction
  | .error errorCode errorMessage => op.emit (.errorOperation remote errorCode errorMessage)
  | .file => op.emit (.fileRequest remote filename options.partNumber options.checksum)
  | .status => op.statusFileRequest remote
  | .list checkValue =>
    ({ op with listFileOperation := true },
      (if op.listFileOperation then
        [.gracefulAbort (.list checkValue) "New list file received"] else []) ++
        [.transferStart (.list checkValue)])

/-- The information operation answers a read request, and handles it all the same. -/
def readAnswer (op : Operation) (remote : Endpoint) (requestType : RequestType) : List Output :=
  if op.kind = .information ∧ requestType ≠ .write then
    [.errorOperation remote .illegalTftpOperation "Only WRQ allowed"]
  else []

section

variable {op : Operation} {remote : Endpoint} {filename : Text}

/-- The check comes first in all four operations, and its answer is the end of it. -/
theorem tftpRequest_checked {answer : Reaction}
    (h : op.checkRequest filename remote = some answer) (requestType : RequestType)
    (options : Arinc615aOptions) :
    op.tftpRequest remote requestType filename options = answer := by
  unfold Operation.tftpRequest
  cases op.kind with
  | information =>
    dsimp only [InformationOperation.tftpRequest]
    rw [h]
  | upload =>
    dsimp only [UploadOperation.tftpRequest]
    rw [h]
  | mediaDefinedDownload =>
    dsimp only [MediaDefinedDownloadOperation.tftpRequest]
    rw [h]
  | operatorDefinedDownload =>
    dsimp only [OperatorDefinedDownloadOperation.tftpRequest]
    rw [h]

/-- A request that passes the check. -/
theorem tftpRequest_unchecked (h : op.checkRequest filename remote = none)
    (requestType : RequestType) (options : Arinc615aOptions) :
    op.tftpRequest remote requestType filename options =
      Reaction.andThen (op, op.readAnswer remote requestType) fun op' =>
        op'.handle remote filename options
          (handling op.kind requestType (ProtocolFilename.ofText filename).fileTypeV options) := by
  unfold Operation.tftpRequest readAnswer Reaction.andThen
  dsimp only
  cases hkind : op.kind with
  | information =>
    dsimp only [InformationOperation.tftpRequest, handling]
    rw [h]
    cases requestType with
    | read =>
      generalize (ProtocolFilename.ofText filename).fileTypeV = fileType
      cases fileType <;> rfl
    | write =>
      generalize (ProtocolFilename.ofText filename).fileTypeV = fileType
      cases fileType <;> rfl
  | upload =>
    dsimp only [UploadOperation.tftpRequest]
    rw [h]
    cases requestType with
    | read => rfl
    | write =>
      dsimp only [handling]
      generalize (ProtocolFilename.ofText filename).fileTypeV = fileType
      cases fileType <;> rfl
  | mediaDefinedDownload =>
    dsimp only [MediaDefinedDownloadOperation.tftpRequest]
    rw [h]
    cases requestType with
    | read => rfl
    | write =>
      dsimp only [handling]
      generalize (ProtocolFilename.ofText filename).fileTypeV = fileType
      cases fileType <;> rfl
  | operatorDefinedDownload =>
    dsimp only [OperatorDefinedDownloadOperation.tftpRequest]
    rw [h]
    cases requestType with
    | read => rfl
    | write =>
      dsimp only [handling]
      generalize (ProtocolFilename.ofText filename).fileTypeV = fileType
      cases fileType <;> rfl

end

section

variable {P : Reaction → Prop} {op : Operation} {remote : Endpoint} {filename : Text}
  (herror : ∀ errorCode errorMessage,
    P (op.emit (.errorOperation remote errorCode errorMessage)))
  (hfile : ∀ partNumber checksum,
    P (op.emit (.fileRequest remote filename partNumber checksum)))
  (hstatus : P (op.statusFileRequest remote))
  (hlist : ∀ checkValue, P ({ op with listFileOperation := true },
    (if op.listFileOperation then
      [.gracefulAbort (.list checkValue) "New list file received"] else []) ++
      [.transferStart (.list checkValue)]))

include herror hfile hstatus hlist

/-- A request is answered with an error, handed to the handler, or taken for a status file or a
list; with an error in front if the information operation gets a read request that passes the
check. -/
theorem exists_handled (requestType : RequestType) (options : Arinc615aOptions) :
    ∃ handled, P handled ∧ op.tftpRequest remote requestType filename options =
      if op.kind = .information ∧ requestType ≠ .write ∧ op.checkRequest filename remote = none then
        (op.emit (.errorOperation remote .illegalTftpOperation "Only WRQ allowed")).andThen
          fun _ => handled
      else handled := by
  cases hcheck : op.checkRequest filename remote with
  | some answer =>
    refine ⟨answer, checkRequest_eq_some hcheck ▸ herror _ _, ?_⟩
    rw [tftpRequest_checked hcheck, if_neg (by simp)]
  | none =>
    refine ⟨op.handle remote filename options
      (handling op.kind requestType (ProtocolFilename.ofText filename).fileTypeV options), ?_, ?_⟩
    · cases handling op.kind requestType (ProtocolFilename.ofText filename).fileTypeV options with
      | error => exact herror _ _
      | file => exact hfile _ _
      | status => exact hstatus
      | list checkValue => exact hlist checkValue
    · rw [tftpRequest_unchecked hcheck, readAnswer]
      by_cases hread : op.kind = .information ∧ requestType ≠ .write
      · rw [if_pos hread, if_pos ⟨hread.1, hread.2, rfl⟩]
        rfl
      · rw [if_neg hread, if_neg fun h => hread ⟨h.1, h.2.1⟩]
        rfl

theorem tftpRequest_elim {requestType : RequestType} {options : Arinc615aOptions}
    (hread : ∀ handled, P handled →
      P ((op.emit (.errorOperation remote .illegalTftpOperation "Only WRQ allowed")).andThen
        fun _ => handled)) :
    P (op.tftpRequest remote requestType filename options) := by
  obtain ⟨handled, hhandled, heq⟩ :=
    exists_handled herror hfile hstatus hlist requestType options
  rw [heq]
  split
  · exact hread handled hhandled
  · exact hhandled

end

end Operation

end Arinc615a.Host
