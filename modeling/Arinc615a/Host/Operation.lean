import Arinc615a.Files.DownloadFiles
import Arinc615a.Files.InformationFiles
import Arinc615a.Files.InitializationFile
import Arinc615a.Files.UploadFiles
import Arinc615a.ProtocolFilename
import Arinc615a.Reasoning.EventLoop
import Arinc615a.Tftp

/-!
# Base of the host operations

`host/implementation/OperationImpl.cpp`.  A callback takes the operation to its next state and
lists the calls it makes: to the handler of the user, to the timer, and to the TFTP client and
server.
-/

open Reasoning

namespace Arinc615a.Host

open Files Information Tftp

inductive AbortReason where
  | noAbort
  | operator
  | protocol
  deriving DecidableEq, Repr

/-- A file transfer, with what its completion handler is bound to. -/
inductive Transfer where
  | initialisation
  | status (id : Nat)
  | list (checkValue : CheckValue)
  | request
  deriving DecidableEq, Repr

/-- The calls a callback makes. -/
inductive Output where
  | initialisationDeferred (waitTime : Nat)
  | initialisationResponse (response : InitializationResponse)
  | informationStatus (status : InformationStatus)
  | uploadStatus (status : UploadStatus)
  | downloadStatus (status : DownloadStatus)
  | targetInformation (targetsHardware : List TargetHardware) (integrityInformation : Bool)
  | downloadingList (files : List DownloadFileInformation)
  | fileRequest (remote : Endpoint) (filename : Text) (partNumber : Text) (checksum : CheckValue)
  | finished (code : StatusCode) (description : Text)
  | timerStart (seconds : Nat)
  | timerCancel
  | serverStart
  | serverStop
  | errorOperation (remote : Endpoint) (errorCode : ErrorCode) (errorMessage : String)
  | abortOperation (remote : Endpoint) (statusCode : StatusCode)
  | gracefulAbort (transfer : Transfer) (errorMessage : String)
  | transferStart (transfer : Transfer)
  | requestFile (fileType : ProtocolFileType) (filename : Text)
  | transmitFile (fileType : ProtocolFileType) (filename : Text) (data : Bytes)
  deriving DecidableEq

/-- The members of `OperationImpl` and of the operation classes.  A status file operation is named
by a number; its completion handler and the list hold the same one. -/
structure Operation where
  kind : OperationType
  targetId : TargetId
  dlpTimeout : Nat
  portOption : Bool := false
  protocolVersion : Arinc615aVersion := .zero
  abortReason : AbortReason := .noAbort
  initialisationOperation : Bool := false
  statusFileOperations : List Nat := []
  nextStatusFileOperation : Nat := 0
  listFileOperation : Bool := false
  waitForFinalStatus : Bool := false
  /-- `loadListSentV`, `requestSentV` or `answerSentV` -/
  sent : Bool := false
  deriving DecidableEq, Repr

/-- A callback run: the next state and the calls. -/
abbrev Reaction := Operation × List Output

namespace Reaction

/-- Goes on with a further part of the callback. -/
def andThen (r : Reaction) (f : Operation → Reaction) : Reaction :=
  ((f r.1).1, r.2 ++ (f r.1).2)

@[simp] theorem andThen_mk (op : Operation) (out : List Output) (f : Operation → Reaction) :
    andThen (op, out) f = ((f op).1, out ++ (f op).2) := rfl

end Reaction

namespace Operation

/-- Makes one call. -/
def emit (op : Operation) (out : Output) : Reaction := (op, [out])

/-- If the initialisation is in progress, it is aborted. -/
def abortInitialisation (op : Operation) : Reaction :=
  if op.initialisationOperation then op.emit (.gracefulAbort .initialisation "Abort") else (op, [])

def doAbort (op : Operation) (reason : AbortReason) : Reaction :=
  -- only the first reason is kept
  if op.abortReason ≠ .noAbort then (op, [])
  else abortInitialisation { op with abortReason := reason }

def finished (op : Operation) (status : StatusCode) (description : Text) : Reaction :=
  (op, [.finished status description, .timerCancel, .serverStop])

/-- The status code for an abort reason; other reasons count as aborted by the data loader. -/
def abortStatusCode : AbortReason → StatusCode
  | .operator => .operationAbortedByOperator
  | .protocol => .operationAbortedByDlp
  | .noAbort => .operationAbortedByDlp

def doTerminate (op : Operation) (reason : AbortReason) : Reaction :=
  op.abortInitialisation.andThen fun op =>
    op.finished (abortStatusCode reason) (text "Terminate Request")

def triggerDlpTimeout (op : Operation) (exceptionTime : Nat := 0) : Reaction :=
  op.emit (.timerStart (max exceptionTime op.dlpTimeout))

def protocolFilename (op : Operation) (fileType : ProtocolFileType) : Text :=
  ProtocolFilename.toText { targetIdV := op.targetId, fileTypeV := fileType }

/-- Answers a status file request with a pending abort.  `none` means that none is pending. -/
def isAborted (op : Operation) (remote : Endpoint) : Option Reaction :=
  if op.abortReason = .noAbort then none
  else
    some <| (op.emit (.abortOperation remote (abortStatusCode op.abortReason))).andThen fun op =>
      -- the reason is cleared, so the next status request is handled again
      triggerDlpTimeout { op with abortReason := .noAbort }

/-- Checks the target identifier of a protocol file.  `some` is the answer to a wrong one. -/
def checkRequest (op : Operation) (filename : Text) (remote : Endpoint) : Option Reaction :=
  if ProtocolFilename.isProtocolFilename filename &&
      (ProtocolFilename.ofText filename).targetIdV ≠ op.targetId then
    some (op.emit (.errorOperation remote .fileNotFound "Wrong target ID for protocol file"))
  else none

/-- What the TFTP library does in `initialise`. -/
inductive StartResult where
  | started
  | serverStartThrows
  | requestThrows
  deriving DecidableEq, Repr

def initialise (op : Operation) (fileType : ProtocolFileType) (result : StartResult) : Reaction :=
  match result with
  | .serverStartThrows => (op, [])
  -- the server has been started already when the request fails
  | .requestThrows => ({ op with initialisationOperation := true }, [.serverStart])
  | .started =>
    ({ op with initialisationOperation := true },
      [.serverStart, .requestFile fileType (op.protocolFilename fileType),
        .transferStart .initialisation])

def timerHandler (op : Operation) (errorCode : WaitResult) : Reaction :=
  match errorCode with
  -- the timer has been cancelled or set anew
  | .operationAborted => (op, [])
  | .error => op.finished .operationAbortedByDlp (text "Internal timer error")
  | .expired => op.finished .operationAbortedByDlp (text "DLP Timeout")

def initialisationFileDeferred (op : Operation) (waitTime : Nat) : Reaction :=
  op.emit (.initialisationDeferred waitTime)

/-- `localPort` is the port of the TFTP server of the operation. -/
def initialisationFileOptionsNegotiation (op : Operation) (localPort : UInt16)
    (options : Arinc615aOptions) : Bool :=
  if options.checksum ≠ {} then false
  else match options.port with
    | some port => op.portOption && port = localPort
    | none => !op.portOption

/-- `static_cast< StatusCode >` -/
def acceptanceStatusCode : OperationAcceptanceStatusCode → StatusCode
  | .operationAccepted => .operationAccepted
  | .operationDenied => .operationNotAccepted
  | .operationNotSupported => .operationNotSupported
  | .operationDeferred => .operationDeferred

/-- How the operation goes on after the response has been handed to the handler. -/
def initialisationAnswered (op : Operation) (initFile : InitializationFile) : Reaction :=
  match initFile.response.code with
  | .operationAccepted => triggerDlpTimeout { op with protocolVersion := initFile.protocolVersion }
  | .operationDenied =>
    op.finished (acceptanceStatusCode initFile.response.code) initFile.response.description
  | .operationNotSupported =>
    op.finished (acceptanceStatusCode initFile.response.code) initFile.response.description
  -- not reached with a decoded file, which has no such code
  | .operationDeferred => op.finished .operationAbortedByDlp (text "unknown status code")

def initialisationFileCompleted (lib : Library) (op : Operation) (status : TransferStatus)
    (rawInitialisationFile : Bytes) : Reaction :=
  -- the operation is reset before anything is looked at
  let op := { op with initialisationOperation := false }
  if status ≠ .successful then
    op.finished .operationAbortedByDlp (text "Initialisation File could not be received")
  else match InitializationFile.decode lib.raw {} rawInitialisationFile with
    | .done _ initFile _ =>
      (op.emit (.initialisationResponse initFile.response)).andThen fun op =>
        op.initialisationAnswered initFile
    | .thrown (.exception _) _ =>
      op.finished .operationAbortedByDlp (text "Initialisation File could not be received")
    -- a read past the end of the file is not caught here, and nothing below it runs
    | .thrown .overrun _ => (op, [])

end Operation

end Arinc615a.Host
