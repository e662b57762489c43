import Arinc615a.Host.World
import Arinc615a.Target.Calling

/-!
# An information operation at both ends

The information operations of a host and of a target, with the file transfers between them.  The
host has requested the initialisation file, and the dispatcher of the target has started the
operation.  The handler of the target accepts the operation and sends its list after it has been
told that the operation is initialised, from inside a call or not; it makes no other calls.

A request that arrives at a running server is answered by the operation of the host; a request
that arrives at a stopped server is not answered.  A transfer that has been taken on succeeds at
both ends, which need not see it at the same time.  Only a status transfer that `statusOperation` no
longer holds is given up: the target is told that it was aborted, and the host receives the file all
the same, or loses it.
-/

open Reasoning

namespace Arinc615a.Exchange

open Files Information Tftp

/-- What the two operations are created with, and what the handler of the target sends. -/
structure Configuration where
  targetId : TargetId
  /-- The dispatcher hands over the names of compliant targets only. -/
  compliant : targetId.toBool = true
  protocolVersion : Arinc615aVersion
  dlpTimeout : Nat
  portOption : Bool
  port : Option UInt16
  tftpServerPort : UInt16
  statusTransmissionRate : Nat
  hostAddress : Endpoint
  targetAddress : Endpoint
  targetsHardware : List TargetHardware
  checkValueType : CheckValueType

/-- How far the request of a transfer has got. -/
inductive Request where
  | waiting
  | taken (transfer : Host.Transfer)
  | refused (status : TransferStatus)
  deriving DecidableEq

/-- A file that the target writes to the host. -/
structure Connection where
  transfer : Target.Transfer
  filename : Text
  data : Bytes
  checkValue : CheckValue
  request : Request := .waiting
  hostCompleted : Bool := false
  targetCompleted : Bool := false
  /-- The target has given up the transfer. -/
  dropped : Bool := false
  deriving DecidableEq

def Connection.isStatus (connection : Connection) : Bool :=
  match connection.transfer with
  | .status _ => true
  | _ => false

/-- What becomes of a transfer when `statusOperation` is overwritten or reset. -/
def Connection.drop (connection : Connection) : Connection :=
  -- the transfer is destroyed, unless it has been completed
  if connection.isStatus then
    { connection with dropped := connection.dropped || !connection.targetCompleted }
  else connection

/-- `statusOperation` holds the transfer of the last status file, if any. -/
def resetStatusOperation (connections : List Connection) : List Connection :=
  connections.map Connection.drop

/-- The connection for a protocol file that the target sends. -/
def Connection.ofOutput : Target.Output → Option Connection
  | .protocolFile _ _ filename data checkValue transfer =>
    some { transfer, filename, data, checkValue }
  | _ => none

structure World where
  host : Host.World
  target : Suspended Target.World Target.Rest
  /-- The initialisation file that is sent to the host. -/
  initialisation : Option Bytes
  /-- What the handler of the target has still to call. -/
  calls : List Target.Call := []
  connections : List Connection := []
  deriving DecidableEq

inductive Event where
  | hostDeferred (waitTime : Nat)
  | hostTimerAborted
  | hostReceivesInitialisation
  | targetSentInitialisation
  | targetTimerElapses (result : WaitResult)
  | targetTimerHandler (result : WaitResult)
  | handlerCalls
  | handlerLeaves (exit : Exit)
  | requestArrives (connection : Nat)
  | hostCompletes (connection : Nat)
  | hostLoses (connection : Nat)
  | targetCompletes (connection : Nat)
  deriving DecidableEq

inductive Observation where
  | host (observation : Host.Observation)
  | target (observation : Target.Observation)
  deriving DecidableEq

/-- The TFTP client of the target tells the reason of an abort from the error message. -/
def abortedStatus : StatusCode → TransferStatus
  | .operationAbortedByOperator => .operationAbortedByOperator
  | _ => .operationAbortedByDlp

/-- How the operation of the host has answered a request.  A list is sent once, so none is aborted
for another one. -/
def answer : List Host.Output → Request
  | [] => .refused .communicationError
  | .transferStart transfer :: _ => .taken transfer
  -- the client of the target is told of the abort by an error message
  | .abortOperation _ statusCode :: _ => .refused (abortedStatus statusCode)
  | .errorOperation .. :: _ => .refused .requestError
  -- calls to the handler and to the timer are no answers
  | _ :: out => answer out

/-- The calls among what is seen of the operation of the host. -/
def hostCalls (out : List Host.Observation) : List Host.Output :=
  out.filterMap fun
    | .call output => some output
    | .started => none

@[simp] theorem hostCalls_map (out : List Host.Output) : hostCalls (out.map .call) = out := by
  simp [hostCalls, List.filterMap_map]

/-- The calls among what is seen of the operation of the target. -/
def targetCalls (out : List Target.Observation) : List Target.Output :=
  out.filterMap fun
    | .call output => some output
    | .started => none

@[simp] theorem targetCalls_map (out : List Target.Output) :
    targetCalls (out.map .call) = out := by
  simp [targetCalls, List.filterMap_map]

def Request.result : Request → Option TransferStatus
  | .waiting => none
  | .taken _ => some .successful
  | .refused status => some status

/-- What the completion handler of the target is called with. -/
def Connection.result (connection : Connection) : Option TransferStatus :=
  if connection.dropped then some .aborted else connection.request.result

namespace Configuration

/-- What the handler of the target calls when the operation is initialised. -/
def handlerCalls (c : Configuration) : List Target.Call :=
  [.accepted, .targetInformation c.targetsHardware c.checkValueType]

def hostStarted (c : Configuration) : Host.World :=
  ((Host.World.ofOperation .information c.targetId c.dlpTimeout c.portOption).react fun op =>
    op.start .started).1

def targetStarted (lib : Library) (c : Configuration) : Target.World × List Target.Observation :=
  let operation : Target.Operation :=
    { targetId := c.targetId, protocolVersion := c.protocolVersion,
      statusTransmissionRate := c.statusTransmissionRate, hostPort := c.tftpServerPort,
      statusV := .information {} }
  { operation := operation : Target.World }.react fun op =>
    op.start lib c.hostAddress c.port .started

/-- Both operations have been started. -/
def initial (lib : Library) (c : Configuration) : World where
  host := c.hostStarted
  target := { state := (c.targetStarted lib).1 }
  initialisation := (targetCalls (c.targetStarted lib).2).findSome? fun
    | .sendInitFile _ data _ => some data
    | _ => none

end Configuration

namespace World

variable (lib : Library) (c : Configuration)

def setConnection (w : World) (n : Nat) (connection : Connection) : World :=
  { w with connections := w.connections.set n connection }

/-- The completion of a status file resets `statusOperation`, whatever it holds. -/
def completeAtTarget (w : World) (n : Nat) (connection : Connection) : World :=
  let w := w.setConnection n { connection with targetCompleted := true }
  if connection.isStatus then
    { w with connections := resetStatusOperation w.connections }
  else w

def hostStep (w : World) (event : Host.Event) : Option (World × List Observation) :=
  (w.host.step lib event).map fun (host, out) => ({ w with host := host }, out.map .host)

/-- The files that the target sends become connections, and its handler goes to work. -/
def afterTarget (w : World) (target : Suspended Target.World Target.Rest)
    (out : List Target.Observation) : World :=
  let sent := (targetCalls out).filterMap Connection.ofOutput
  { w with
    target := target
    calls := w.calls ++ if .initialised ∈ targetCalls out then c.handlerCalls else []
    -- a new status file takes the place of the last one
    connections := (if sent.any Connection.isStatus then resetStatusOperation w.connections
      else w.connections) ++ sent }

def targetStep (w : World) (event : CallEvent Target.Event Exit) :
    Option (World × List Observation) :=
  ((Target.callSystem lib).step w.target event).map fun (target, out) =>
    (w.afterTarget c target out, out.map .target)

/-- The answers to a request that reaches the running server. -/
def requestArrives (w : World) (n : Nat) (connection : Connection) :
    Option (World × List Observation) :=
  if w.host.serverRunning then
    (w.host.step lib (.tftpRequest c.targetAddress .write connection.filename
      { checksum := connection.checkValue })).map fun (host, out) =>
        ({ w with host := host }.setConnection n
            { connection with request := answer (hostCalls out) },
          out.map .host)
  -- nobody answers, and the client of the target gives up
  else some (w.setConnection n { connection with request := .refused .communicationError }, [])

def step (w : World) : Event → Option (World × List Observation)
  | .hostDeferred waitTime => w.hostStep lib (.deferred waitTime)
  | .hostTimerAborted => w.hostStep lib (.timerHandler .operationAborted)
  | .hostReceivesInitialisation =>
    match w.initialisation with
    | none => none
    | some file => w.hostStep lib (.completed .initialisation .successful file)
  | .targetSentInitialisation =>
    w.targetStep lib c (.event (.completed .initialisation .successful []))
  | .targetTimerElapses result => w.targetStep lib c (.event (.timerElapses result))
  | .targetTimerHandler result => w.targetStep lib c (.event (.timerHandler result))
  | .handlerCalls =>
    match w.calls with
    | [] => none
    -- the calls come in the order in which the handler makes them
    | call :: calls => { w with calls := calls }.targetStep lib c (.event (.call call))
  | .handlerLeaves exit => w.targetStep lib c (.leave exit)
  | .requestArrives n =>
    match w.connections[n]? with
    | none => none
    | some connection =>
      -- a request arrives once
      if connection.request = .waiting then w.requestArrives lib c n connection else none
  | .hostCompletes n =>
    match w.connections[n]? with
    | none => none
    | some connection =>
      match connection.request, connection.hostCompleted with
      -- either end completes a transfer once, in any order
      | .taken transfer, false =>
        (w.setConnection n { connection with hostCompleted := true }).hostStep lib
          (.completed transfer .successful connection.data)
      | _, _ => none
  | .hostLoses n =>
    match w.connections[n]? with
    | none => none
    | some connection =>
      match connection.request, connection.hostCompleted, connection.dropped with
      -- the rest of the file never comes
      | .taken transfer, false, true =>
        (w.setConnection n { connection with hostCompleted := true }).hostStep lib
          (.completed transfer .communicationError [])
      | _, _, _ => none
  | .targetCompletes n =>
    match w.connections[n]? with
    | none => none
    | some connection =>
      match connection.result, connection.targetCompleted with
      | some status, false =>
        (w.completeAtTarget n connection).targetStep lib c
          (.event (.completed connection.transfer status []))
      | _, _ => none

end World

/-- The information operations of a host and of a target. -/
def system (lib : Library) (c : Configuration) : Reactive World Event Observation :=
  ⟨World.step lib c⟩

end Arinc615a.Exchange
