import Arinc615a.Host.Callbacks

/-!
# The batch upload command

`arinc_615a_commands/operations/BatchUploadOperationCommand.cpp`: the loads of a batch are uploaded
to its targets, one after the other.  The command is the handler of its operations, and starts the
next one from inside a call of the last.
-/

open Reasoning

namespace Arinc615a.Commands

open Files Information Tftp Host

/-- The loads for each target, in the order of the map. -/
structure BatchInformation where
  targets : List (Text × List UploadLoad)
  ascending : targets.Pairwise fun a b => a.1 < b.1
  deriving DecidableEq

/-- What is looked up on the media set: the path of a file of the loads, and whether it is there. -/
structure MediaSet where
  filePath : List UploadLoad → Text → Text → CheckValue → Option Text
  isRegularFile : Text → Bool

/-- The members of the command.  An operation is named by its number; all operations stay connected
to the signals, which keep them alive. -/
structure BatchUpload where
  dlpTimeout : Nat
  portOption : Bool
  batchTargets : BatchInformation
  executed : Bool := false
  operations : List World := []
  /-- `operationV` -/
  operation : Option Nat := none
  loads : List UploadLoad := []
  loadListTransmitted : Bool := false
  fileOperations : List Nat := []
  /-- The file transfers under way. -/
  transfers : List Nat := []
  nextFileOperation : Nat := 0
  deriving DecidableEq

/-- What is seen of a batch. -/
inductive Observation where
  | started (number : Nat) (target : Text)
  /-- An operation makes a call. -/
  | call (number : Nat) (output : Output)
  /-- An operation calls its handler, which has been destroyed when a later one was started. -/
  | handlerDestroyed (number : Nat)
  /-- `operationV` is used, but not set. -/
  | noOperation
  | abort (number : Nat)
  | terminate (number : Nat)
  | loadList (number : Nat) (loads : List UploadLoad)
  | errorOperation (number : Nat) (remote : Endpoint) (errorCode : ErrorCode) (errorMessage : Text)
  | fileTransfer (number : Nat) (remote : Endpoint) (realFilename partNumber : Text)
      (checkValue : CheckValue)
  | protocolAbort (number : Nat)
  | done
  deriving DecidableEq

/-- How a part of the command ends: it may throw, and then its caller does not go on. -/
structure Reaction where
  command : BatchUpload
  out : List Observation := []
  thrown : Bool := false

def Reaction.andThen (r : Reaction) (f : BatchUpload → Reaction) : Reaction :=
  if r.thrown then r
  else
    let r' := f r.command
    { r' with out := r.out ++ r'.out }

/-- The calls of an operation that go to its handler. -/
def forHandler : Output → Bool
  | .initialisationDeferred _ | .initialisationResponse _ | .finished .. | .uploadStatus _
  | .fileRequest .. => true
  | _ => false

namespace BatchUpload

/-- An operation performs one of its calls. -/
def perform (command : BatchUpload) (number : Nat) (o : Output) : BatchUpload :=
  { command with operations := command.operations.modify number (World.perform · o) }

/-- A call of an operation, which calls nothing of the command in turn. -/
def react (command : BatchUpload) (number : Nat) (r : Host.Reaction) : Reaction where
  command := { command with
    operations := command.operations.modify number fun w =>
      r.2.foldl World.perform { w with operation := r.1 } }
  out := r.2.map (.call number)

/-- `next` is what the TFTP library does in the start of the operation.  Its exceptions are not
those that `initialise` catches. -/
def nextBatchTarget (command : BatchUpload) (next : Operation.StartResult) : Reaction :=
  match h : command.batchTargets.targets with
  | [] => { command, out := [.done] }
  | (target, loads) :: rest =>
    let number := command.operations.length
    let w := World.ofOperation .upload (.ofText target) command.dlpTimeout command.portOption
    let command := { command with
      batchTargets := ⟨rest, (List.pairwise_cons.mp (h ▸ command.batchTargets.ascending)).2⟩
      loads := loads
      loadListTransmitted := false
      operations := command.operations ++ [w]
      operation := some number }
    let r := command.react number (w.operation.start next)
    { command := r.command, out := .started number target :: r.out, thrown := next ≠ .started }

def finished (command : BatchUpload) (code : StatusCode) (next : Operation.StartResult) :
    Reaction :=
  let command := { command with operation := none }
  if code ≠ .operationCompleted then { command, out := [.done] }
  else command.nextBatchTarget next

def status (lib : Library) (command : BatchUpload) (status : UploadStatus) : Reaction :=
  match command.operation with
  | none => { command, out := [.noOperation] }
  | some active =>
    if status.code = .operationAccepted ∧ command.loadListTransmitted = false then
      match command.operations[active]? with
      | none => { command }
      | some w =>
        match UploadOperation.loadList lib w.operation command.loads with
        -- what the operation has still to do is left out, as it is behind the call of the handler
        | .error _ => { command, out := [.loadList active command.loads], thrown := true }
        | .ok reaction =>
          let r := command.react active reaction
          { command := { r.command with loadListTransmitted := true }
            out := .loadList active command.loads :: r.out }
    else { command }

def fileRequest (media : MediaSet) (command : BatchUpload) (remote : Endpoint)
    (filename loadPartNumber : Text) (checkValue : CheckValue) : Reaction :=
  match command.operation with
  | none => { command, out := [.noOperation] }
  | some active =>
    let notFound : Reaction := { command, out := [.errorOperation active remote .fileNotFound
      (text "File '" ++ filename ++ text "' was not found.")] }
    match media.filePath command.loads filename loadPartNumber checkValue with
    | none => notFound
    | some realFilename =>
      if media.isRegularFile realFilename = false then notFound
      else
        let operation := command.nextFileOperation
        { command := { command with
            fileOperations := operation :: command.fileOperations
            transfers := operation :: command.transfers
            nextFileOperation := operation + 1 }
          out := [.fileTransfer active remote realFilename loadPartNumber checkValue] }

/-- The handler functions; two of them only print. -/
def handler (lib : Library) (media : MediaSet) (command : BatchUpload)
    (next : Operation.StartResult) : Output → Reaction
  | .finished code _ => command.finished code next
  | .uploadStatus status => command.status lib status
  | .fileRequest remote filename loadPartNumber checkValue =>
    command.fileRequest media remote filename loadPartNumber checkValue
  | _ => { command }

/-- One call of an operation.  Only the operation that was started last has a handler. -/
def deliver (lib : Library) (media : MediaSet) (command : BatchUpload) (number : Nat)
    (next : Operation.StartResult) (o : Output) : Reaction :=
  let command := command.perform number o
  if forHandler o = true ∧ number + 1 ≠ command.operations.length then
    { command, out := [.call number o, .handlerDestroyed number] }
  else
    let r := command.handler lib media next o
    { r with out := .call number o :: r.out }

def deliverAll (lib : Library) (media : MediaSet) (number : Nat) (next : Operation.StartResult) :
    List Output → BatchUpload → Reaction
  | [], command => { command }
  | o :: out, command =>
    (command.deliver lib media number next o).andThen (deliverAll lib media number next out)

/-- A handler of an operation runs, and makes its calls. -/
def run (lib : Library) (media : MediaSet) (command : BatchUpload) (number : Nat)
    (next : Operation.StartResult) (w : World) (r : Host.Reaction) : Reaction :=
  deliverAll lib media number next r.2
    { command with operations := command.operations.set number { w with operation := r.1 } }

/-- A signal reaches an operation. -/
def reach (lib : Library) (media : MediaSet) (seen : Nat → Observation)
    (slot : Operation → Host.Reaction) (command : BatchUpload) (number : Nat) : Reaction :=
  match command.operations[number]? with
  | none => { command }
  | some w =>
    -- no operation is completed by a signal, so no other one is started
    let r := command.run lib media number .started w (slot w.operation)
    { r with out := seen number :: r.out }

/-- A signal reaches the operations in the order they were connected. -/
def signal (lib : Library) (media : MediaSet) (seen : Nat → Observation)
    (slot : Operation → Host.Reaction) : List Nat → BatchUpload → Reaction
  | [], command => { command }
  | number :: numbers, command =>
    (command.reach lib media seen slot number).andThen (signal lib media seen slot numbers)

/-- A transfer that fails is ignored. -/
def fileCompleted (command : BatchUpload) (operation : Nat) : Reaction :=
  let removed := command.fileOperations.count operation
  let command := { command with
    fileOperations := command.fileOperations.filter (· ≠ operation) }
  if removed ≠ 1 then
    match command.operation with
    | none => { command, out := [.noOperation] }
    | some active =>
      match command.operations[active]? with
      | none => { command }
      | some w =>
        let r := command.react active (w.operation.doAbort .protocol)
        { r with out := .protocolAbort active :: r.out }
  else { command }

end BatchUpload

inductive Event where
  | execute (next : Operation.StartResult)
  /-- A handler of an operation runs; `next` is for the operation that is started from inside. -/
  | operation (number : Nat) (event : Host.Event) (next : Operation.StartResult)
  | abortSignal
  | terminateSignal
  | fileCompleted (operation : Nat) (status : TransferStatus)
  deriving DecidableEq

namespace BatchUpload

/-- `none` means that the event cannot happen. -/
def step (lib : Library) (media : MediaSet) (command : BatchUpload) :
    Event → Option (BatchUpload × List Observation)
  | .execute next =>
    if command.executed then none
    else
      let r := { command with executed := true }.nextBatchTarget next
      some (r.command, r.out)
  | .operation number event next =>
    match command.operations[number]? with
    | none => none
    | some w =>
      (w.callback lib event).map fun (v, reaction) =>
        let r := command.run lib media number next v reaction
        (r.command, r.out)
  | .abortSignal =>
    let r := signal lib media .abort (·.doAbort .operator)
      (List.range command.operations.length) command
    some (r.command, r.out)
  | .terminateSignal =>
    let r := signal lib media .terminate (·.doTerminate .operator)
      (List.range command.operations.length) command
    some (r.command, r.out)
  | .fileCompleted operation _ =>
    if operation ∈ command.transfers then
      let r := { command with
        transfers := command.transfers.erase operation }.fileCompleted operation
      some (r.command, r.out)
    else none

/-- The command before its execution. -/
def ofBatch (batchTargets : BatchInformation) (dlpTimeout : Nat) (portOption : Bool) :
    BatchUpload :=
  { dlpTimeout, portOption, batchTargets }

end BatchUpload

def batchSystem (lib : Library) (media : MediaSet) : Reactive BatchUpload Event Observation :=
  ⟨BatchUpload.step lib media⟩

end Arinc615a.Commands
