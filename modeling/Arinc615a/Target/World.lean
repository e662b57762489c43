import Arinc615a.Reasoning.Reactive
import Arinc615a.Target.Operations

/-!
# A target operation and its surroundings

The operation runs in an event loop, with the status transmission timer and its transfers.  An
event is a call by the handler, a request that the dispatcher hands over, or one handler taken from
the loop; calls that are made from inside a callback count as events of their own.
-/

open Reasoning

namespace Arinc615a.Target

open Files Information Tftp

structure World where
  operation : Operation
  loop : EventLoop Transfer := {}
  deriving DecidableEq

inductive Event where
  | start (hostAddress : Endpoint) (port : Option UInt16) (result : Operation.StartResult)
  | call (call : Call)
  | tftpRequest (remote : Endpoint) (requestType : RequestType) (filename : Text)
  | completed (transfer : Transfer) (status : TransferStatus) (data : Bytes)
  | timerElapses (result : WaitResult)
  | timerHandler (result : WaitResult)
  deriving DecidableEq

/-- What is seen of a run: the calls of `start`, and all that the callbacks call. -/
inductive Observation where
  | started
  | call (output : Output)
  deriving DecidableEq

/-- What a call asks of the event loop. -/
def Output.command : Output → Command Transfer
  | .timerStart _ => .arm
  | .timerCancel => .cancel
  | .sendInitFile .. => .launch .initialisation
  | .protocolFile _ _ _ _ _ transfer => .launch transfer
  | .receiveFile _ => .launch .request
  | _ => .none

namespace World

/-- Runs a callback of the operation. -/
def react (w : World) (callback : Operation → Reaction) : World × List Observation :=
  let (operation, out) := callback w.operation
  ({ operation := operation, loop := w.loop.performAll (out.map Output.command) }, out.map .call)

/-- The completion handler of a transfer. -/
def complete (lib : Library) (transfer : Transfer) (status : TransferStatus) (data : Bytes)
    (op : Operation) : Reaction :=
  match transfer with
  | .initialisation => op.sendInitFileComplete status
  | .status sent => op.statusFileCompleted lib sent status
  | .list => op.listCompleted lib status
  | .request => op.requestCompleted lib status data

/-- `none` means that the event cannot happen. -/
def step (lib : Library) (w : World) : Event → Option (World × List Observation)
  | .start hostAddress port result =>
    let (w, out) := w.react fun op => op.start lib hostAddress port result
    some (w, .started :: out)
  -- a call that the class does not have cannot happen
  | .call call => (w.operation.call lib call).map fun reaction => w.react fun _ => reaction
  | .tftpRequest remote requestType filename =>
    some (w.react fun op => op.tftpRequest remote requestType filename)
  | .completed transfer status data =>
    (w.loop.complete transfer).map fun loop =>
      { w with loop := loop }.react (complete lib transfer status data)
  | .timerElapses result =>
    (w.loop.elapse result).map fun loop => ({ w with loop := loop }, [])
  | .timerHandler result =>
    (w.loop.take result).map fun loop =>
      { w with loop := loop }.react fun op => op.statusTransmissionTimerHandler lib result

/-- The operation and the outputs after a callback. -/
theorem react_eq {w w' : World} {callback : Operation → Reaction} {out : List Observation}
    (h : w.react callback = (w', out)) :
    w'.operation = (callback w.operation).1 ∧ out = (callback w.operation).2.map .call := by
  cases h
  exact ⟨rfl, rfl⟩

/-- What an event other than a start runs: the surroundings before the calls are performed, and the
reaction that makes them. -/
inductive Runs (lib : Library) (w : World) : Event → World → Reaction → Prop where
  | call (call : Call) (reaction : Reaction) (hcall : w.operation.call lib call = some reaction) :
      Runs lib w (.call call) w reaction
  | tftpRequest (remote : Endpoint) (requestType : RequestType) (filename : Text) :
      Runs lib w (.tftpRequest remote requestType filename) w
        (w.operation.tftpRequest remote requestType filename)
  | completed (transfer : Transfer) (status : TransferStatus) (data : Bytes)
      (loop : EventLoop Transfer) (hloop : w.loop.complete transfer = some loop) :
      Runs lib w (.completed transfer status data) { w with loop }
        (complete lib transfer status data w.operation)
  | timerElapses (result : WaitResult) (loop : EventLoop Transfer)
      (hloop : w.loop.elapse result = some loop) :
      Runs lib w (.timerElapses result) { w with loop } (w.operation, [])
  | timerHandler (result : WaitResult) (loop : EventLoop Transfer)
      (hloop : w.loop.take result = some loop) :
      Runs lib w (.timerHandler result) { w with loop }
        (w.operation.statusTransmissionTimerHandler lib result)

/-- A step is a start, or performs what its event runs. -/
theorem step_cases {lib : Library} {w w' : World} {event : Event} {out : List Observation}
    (hstep : w.step lib event = some (w', out)) :
    (∃ hostAddress port result, event = .start hostAddress port result) ∨
      ∃ v r, Runs lib w event v r ∧ v.react (fun _ => r) = (w', out) := by
  cases event with
  | start hostAddress port result => exact .inl ⟨hostAddress, port, result, rfl⟩
  | call call =>
    obtain ⟨reaction, hcall, heq⟩ := Option.map_eq_some_iff.mp hstep
    exact .inr ⟨w, _, .call call reaction hcall, heq⟩
  | tftpRequest remote requestType filename =>
    exact .inr ⟨w, _, .tftpRequest remote requestType filename, Option.some.inj hstep⟩
  | completed transfer status data =>
    obtain ⟨loop, hloop, heq⟩ := Option.map_eq_some_iff.mp hstep
    exact .inr ⟨_, _, .completed transfer status data loop hloop, heq⟩
  | timerElapses result =>
    obtain ⟨loop, hloop, heq⟩ := Option.map_eq_some_iff.mp hstep
    exact .inr ⟨_, _, .timerElapses result loop hloop, heq⟩
  | timerHandler result =>
    obtain ⟨loop, hloop, heq⟩ := Option.map_eq_some_iff.mp hstep
    exact .inr ⟨_, _, .timerHandler result loop hloop, heq⟩

end World

/-- A target operation in its event loop. -/
def system (lib : Library) : Reactive World Event Observation := ⟨World.step lib⟩

end Arinc615a.Target
