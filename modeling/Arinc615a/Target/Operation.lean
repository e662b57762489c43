import Arinc615a.Files.DownloadFiles
import Arinc615a.Files.InformationFiles
import Arinc615a.Files.InitializationFile
import Arinc615a.Files.UploadFiles
import Arinc615a.ProtocolFilename
import Arinc615a.Reasoning.EventLoop
import Arinc615a.Tftp

/-!
# Base of the target operations

`target/implementation/OperationImpl.cpp`, and the status handling that the operation classes
repeat.  A callback takes the operation to its next state and lists the calls it makes.
-/

open Reasoning

namespace Arinc615a.Target

open Files Information Tftp

/-- `statusV`, whose type tells the operation classes apart. -/
inductive AnyStatus where
  | information (status : InformationStatus)
  | upload (status : UploadStatus)
  | mediaDefinedDownload (status : DownloadStatus)
  | operatorDefinedDownload (status : DownloadStatus)
  deriving DecidableEq

namespace AnyStatus

def status : AnyStatus → Status
  | .information status => status
  | .upload status => status.toStatus
  | .mediaDefinedDownload status | .operatorDefinedDownload status => status.toStatus

/-- Changes the part of the status that all operations have. -/
def modify (f : Status → Status) : AnyStatus → AnyStatus
  -- of an information operation there is no more to it than the common part
  | .information status => .information (f status)
  | .upload status => .upload { status with toStatus := f status.toStatus }
  | .mediaDefinedDownload status =>
    .mediaDefinedDownload { status with toStatus := f status.toStatus }
  | .operatorDefinedDownload status =>
    .operatorDefinedDownload { status with toStatus := f status.toStatus }

@[simp] theorem status_modify (f : Status → Status) (s : AnyStatus) :
    (s.modify f).status = f s.status := by
  cases s <;> rfl

def kind : AnyStatus → OperationType
  | .information _ => .information
  | .upload _ => .upload
  | .mediaDefinedDownload _ => .mediaDefinedDownload
  | .operatorDefinedDownload _ => .operatorDefinedDownload

@[simp] theorem kind_modify (f : Status → Status) (s : AnyStatus) :
    (s.modify f).kind = s.kind := by
  cases s <;> rfl

/-- The status that a new operation has. -/
def ofKind : OperationType → AnyStatus
  | .information => .information {}
  | .upload => .upload {}
  | .mediaDefinedDownload => .mediaDefinedDownload {}
  | .operatorDefinedDownload => .operatorDefinedDownload {}

/-- The file type of the status file. -/
def fileType : AnyStatus → ProtocolFileType
  | .information _ => .loadConfigurationStatus
  | .upload _ => .uploadStatus
  | .mediaDefinedDownload _ | .operatorDefinedDownload _ => .downloadStatus

/-- The content of the status file. -/
def encode (raw : RawDataCodec) (protocolVersion : Arinc615aVersion) :
    AnyStatus → Except Arinc615aException Bytes
  | .information status => InformationOperationStatusFile.encode raw { protocolVersion, status }
  | .upload status => UploadOperationStatusFile.encode raw { protocolVersion, status }
  | .mediaDefinedDownload status | .operatorDefinedDownload status =>
    DownloadOperationStatusFile.encode raw { protocolVersion, status }

end AnyStatus

/-- A file transfer, with what its completion handler is bound to. -/
inductive Transfer where
  | initialisation
  | status (sent : AnyStatus)
  | list
  | request
  deriving DecidableEq

/-- The calls a callback makes.  An exception that leaves the callback is the last of them. -/
inductive Output where
  | initialised
  | status (sent : AnyStatus)
  | abortRequest (request : AbortRequest)
  | finished (finalStatus : FinalStatus) (description : Text)
  | loadList (loads : List UploadLoad)
  | downloadingRequest (files : List Text) (userDefinedData : Bytes)
  | downloadingAnswer (files : List Text)
  | timerStart (seconds : Nat)
  | timerCancel
  | errorOperation (remote : Endpoint) (errorCode : ErrorCode) (errorMessage : String)
  | sendInitFile (remote : Endpoint) (data : Bytes) (port : Option UInt16)
  | protocolFile (remote : Endpoint) (fileType : ProtocolFileType) (filename : Text) (data : Bytes)
      (checkValue : CheckValue) (transfer : Transfer)
  | receiveFile (remote : Endpoint)
  | thrown (exception : Arinc615aException)
  deriving DecidableEq

/-- The members of `OperationImpl` and of the operation classes. -/
structure Operation where
  targetId : TargetId
  protocolVersion : Arinc615aVersion
  statusTransmissionRate : Nat
  hostAddress : Nat := 0
  hostPort : UInt16
  statusV : AnyStatus
  deriving DecidableEq

/-- A callback run: the next state and the calls. -/
abbrev Reaction := Operation × List Output

namespace Reaction

/-- Goes on with a further part of the callback. -/
def andThen (r : Reaction) (f : Operation → Reaction) : Reaction :=
  ((f r.1).1, r.2 ++ (f r.1).2)

@[simp] theorem andThen_mk (op : Operation) (out : List Output) (f : Operation → Reaction) :
    andThen (op, out) f = ((f op).1, out ++ (f op).2) := rfl

end Reaction

namespace Operation

variable (lib : Library)

/-- Makes one call. -/
def emit (op : Operation) (out : Output) : Reaction := (op, [out])

def protocolFilename (op : Operation) (fileType : ProtocolFileType) : Text :=
  ProtocolFilename.toText { targetIdV := op.targetId, fileTypeV := fileType }

/-! ## Start -/

/-- What the TFTP library does with the initialisation file. -/
inductive StartResult where
  | started
  | throws
  deriving DecidableEq, Repr

/-- Exceptions are caught and logged. -/
def sendInitFile (op : Operation) (hostAddress : Endpoint) (port : Option UInt16)
    (result : StartResult) : Reaction :=
  match InitializationFile.encode lib.raw
      { protocolVersion := op.protocolVersion, response := { code := .operationAccepted } } with
  | .error _ => (op, [])
  | .ok file =>
    match result with
    | .started => op.emit (.sendInitFile hostAddress file port)
    | .throws => (op, [])

def start (op : Operation) (hostAddress : Endpoint) (port : Option UInt16)
    (result : StartResult) : Reaction :=
  let op := { op with hostAddress := hostAddress.address }
  -- without the option, the port of the TFTP server of the target is used
  let op := match port with
    | some port => { op with hostPort := port }
    | none => op
  op.sendInitFile lib hostAddress port result

/-! ## Status -/

def triggerStatusTransmission (op : Operation) : Reaction := op.emit (.timerStart 0)

def triggerStatusTransmissionTimer (op : Operation) : Reaction :=
  op.emit (.timerStart op.statusTransmissionRate)

def finalise (op : Operation) (finalStatus : FinalStatus := .completed) (description : Text := []) :
    Reaction :=
  (op, [.finished finalStatus description, .timerCancel])

def protocolFileOperation (op : Operation) (fileType : ProtocolFileType) (data : Bytes)
    (checkValue : CheckValue) (transfer : Transfer) : Reaction :=
  op.emit (.protocolFile ⟨op.hostAddress, op.hostPort⟩ fileType (op.protocolFilename fileType) data
    checkValue transfer)

/-- Whether the options are accepted that the host answers for a protocol file. -/
def protocolFileOptionsNegotiation (providedCheckValue : CheckValue)
    (serverOptions : Arinc615aOptions) : Bool :=
  if serverOptions.port.isSome then false
  else if !serverOptions.partNumber.isEmpty then false
  else if providedCheckValue = {} then serverOptions.checksum = {}
  else providedCheckValue = serverOptions.checksum

def status (op : Operation) (code : StatusCode) (description : Text := [])
    (estimatedTime : Int16 := 0) : Operation :=
  { op with statusV := op.statusV.modify fun status =>
      { status.set code description with estimatedTime := estimatedTime } }

/-- A status that has not been set is sent as accepted. -/
def forceAccepted (op : Operation) : Operation :=
  if op.statusV.status.code = .invalid then
    { op with statusV := op.statusV.modify fun status => status.setCode .operationAccepted }
  else op

def incrementCounter (op : Operation) : Operation :=
  { op with statusV := op.statusV.modify Status.incrementCounter }

def statusFile (op : Operation) : Reaction :=
  let op := op.forceAccepted
  match op.statusV.encode lib.raw op.protocolVersion with
  | .error exception => op.emit (.thrown exception)
  | .ok file =>
    -- the completion handler is bound to a copy of the status as it is sent
    (op.protocolFileOperation op.statusV.fileType file {} (.status op.statusV)).andThen fun op =>
      op.incrementCounter.triggerStatusTransmissionTimer

/-- The information operation sends its status at once, the others by a timer of zero seconds. -/
def forceStatusTransmission (op : Operation) : Reaction :=
  if op.statusV.kind = .information then op.statusFile lib else op.triggerStatusTransmission

/-! ## Handler calls on the operation -/

/-- Whether a compiler evaluates `description.empty()` before or after it has moved the description
into the parameter of the same call. -/
inductive ArgumentOrder where
  | codeFirst
  | moveFirst
  deriving DecidableEq, Repr

/-- `description.empty() ? OperationInProgress : OperationInProgressAdditionalInfo`, where a
description that has been moved from is empty. -/
def inProgressCode (order : ArgumentOrder) (description : Text) : StatusCode :=
  match order with
  | .codeFirst =>
    if description.isEmpty then .operationInProgress else .operationInProgressAdditionalInfo
  | .moveFirst => .operationInProgress

def accepted (op : Operation) : Reaction :=
  (op.status .operationAccepted).forceStatusTransmission lib

def inProgress (op : Operation) (order : ArgumentOrder) (immediateTransmission : Bool)
    (estimatedTime : Int16 := -1) (description : Text := []) : Reaction :=
  let op := op.status (inProgressCode order description) description estimatedTime
  if immediateTransmission then op.forceStatusTransmission lib else (op, [])

def finished (op : Operation) (finalStatus : FinalStatus) (description : Text := []) : Reaction :=
  (op.status finalStatus.statusCode description).forceStatusTransmission lib

/-! ## Completions -/

def sendInitFileComplete (op : Operation) (transferStatus : TransferStatus) : Reaction :=
  if transferStatus ≠ .successful then
    op.finalise .abortedByTargetHardware (text "Initialisation file transmission failed")
  else op.triggerStatusTransmissionTimer.andThen fun op => op.emit .initialised

/-- The switch over the status that has been sent. -/
def statusSent (op : Operation) (sentStatus : Status) : Reaction :=
  match sentStatus.code with
  | .operationAccepted =>
    -- only the information operation goes on to a first status in progress
    if op.statusV.kind = .information then op.inProgress lib .codeFirst true
    else op.triggerStatusTransmissionTimer
  | .operationInProgress | .operationInProgressAdditionalInfo => op.triggerStatusTransmissionTimer
  | _ => op.finalise sentStatus.code.finalStatus sentStatus.description

def statusFileCompleted (op : Operation) (sentStatus : AnyStatus)
    (transferStatus : TransferStatus) : Reaction :=
  match transferStatus with
  | .successful => (op.emit (.status sentStatus)).andThen fun op => op.statusSent lib sentStatus.status
  -- the handler decides how to end; the timer that was armed with the status file goes on
  | .operationAbortedByDlp => op.emit (.abortRequest .abortByDlp)
  | .operationAbortedByOperator => op.emit (.abortRequest .abortByOperator)
  | _ => op.finalise .abortedByTargetHardware (text "Status transmission failed")

/-- Any error but the cancellation is logged, and the status is sent all the same. -/
def statusTransmissionTimerHandler (op : Operation) (errorCode : WaitResult) : Reaction :=
  match errorCode with
  | .operationAborted => (op, [])
  | .expired | .error => op.statusFile lib

end Operation

end Arinc615a.Target
