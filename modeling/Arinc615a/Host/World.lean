import Arinc615a.Host.Operations
import Arinc615a.Reasoning.Reactive

/-!
# A host operation and its surroundings

The operation runs in an event loop, with a TFTP server that hands requests over while it is
started.  An event is a call by the user or one handler taken from the loop; calls that the user
makes from inside a handler count as events of their own.
-/

open Reasoning

namespace Arinc615a.Host

open Files Information Tftp

structure World where
  operation : Operation
  serverRunning : Bool := false
  loop : EventLoop Transfer := {}
  deriving DecidableEq

inductive Event where
  | start (result : Operation.StartResult)
  | abort (reason : AbortReason)
  | terminate (reason : AbortReason)
  | send (request : Operation.Request)
  | tftpRequest (remote : Endpoint) (requestType : RequestType) (filename : Text)
      (options : Arinc615aOptions)
  | deferred (waitTime : Nat)
  | completed (transfer : Transfer) (status : TransferStatus) (data : Bytes)
  | timerElapses (result : WaitResult)
  | timerHandler (result : WaitResult)
  deriving DecidableEq

/-- What is seen of a run: the calls of `start`, and all that the callbacks call. -/
inductive Observation where
  | started
  | call (output : Output)
  deriving DecidableEq

/-- What a call asks of the event loop. -/
def Output.command : Output → Command Transfer
  | .timerStart _ => .arm
  | .timerCancel => .cancel
  | .transferStart transfer => .launch transfer
  | _ => .none

/-- Whether the server runs after a call. -/
def Output.server (running : Bool) : Output → Bool
  | .serverStart => true
  | .serverStop => false
  | _ => running

namespace World

/-- Runs a callback of the operation. -/
def react (w : World) (callback : Operation → Reaction) : World × List Observation :=
  let (operation, out) := callback w.operation
  ({ operation := operation
     serverRunning := out.foldl Output.server w.serverRunning
     loop := w.loop.performAll (out.map Output.command) },
    out.map .call)

/-- The completion handler of a transfer. -/
def complete (lib : Library) (transfer : Transfer) (status : TransferStatus) (data : Bytes)
    (op : Operation) : Reaction :=
  match transfer with
  | .initialisation => op.initialisationFileCompleted lib status data
  | .status operation => op.statusFileCompleted lib operation status data
  | .list checkValue => op.listFileCompleted lib checkValue status data
  | .request => op.requestCompleted status

/-- `none` means that the event cannot happen. -/
def step (lib : Library) (w : World) : Event → Option (World × List Observation)
  | .start result =>
    let (w, out) := w.react fun op => op.start result
    some (w, .started :: out)
  | .abort reason => some (w.react fun op => op.doAbort reason)
  | .terminate reason => some (w.react fun op => op.doTerminate reason)
  | .send request =>
    match w.operation.send lib request with
    | none => none
    -- the exception goes to the caller and leaves the operation as it was
    | some (.error _) => some (w, [])
    | some (.ok reaction) => some (w.react fun _ => reaction)
  | .tftpRequest remote requestType filename options =>
    if w.serverRunning then
      some (w.react fun op => op.tftpRequest remote requestType filename options)
    else none
  | .deferred waitTime =>
    if .initialisation ∈ w.loop.pending then
      some (w.react fun op => op.initialisationFileDeferred waitTime)
    else none
  | .completed transfer status data =>
    (w.loop.complete transfer).map fun loop =>
      { w with loop := loop }.react (complete lib transfer status data)
  | .timerElapses result =>
    (w.loop.elapse result).map fun loop => ({ w with loop := loop }, [])
  | .timerHandler result =>
    (w.loop.take result).map fun loop =>
      { w with loop := loop }.react fun op => op.timerHandler result

/-- The surroundings of an operation that has just been created. -/
def ofOperation (kind : OperationType) (targetId : TargetId) (dlpTimeout : Nat)
    (portOption : Bool) : World :=
  { operation := { kind, targetId, dlpTimeout, portOption } }

/-- The operation and the outputs after a callback. -/
theorem react_eq {w w' : World} {callback : Operation → Reaction} {out : List Observation}
    (h : w.react callback = (w', out)) :
    w'.operation = (callback w.operation).1 ∧ out = (callback w.operation).2.map .call := by
  cases h
  exact ⟨rfl, rfl⟩

/-- What an event other than a start runs: the surroundings before the calls are performed, and the
reaction that makes them. -/
inductive Runs (lib : Library) (w : World) : Event → World → Reaction → Prop where
  | abort (reason : AbortReason) : Runs lib w (.abort reason) w (w.operation.doAbort reason)
  | terminate (reason : AbortReason) :
      Runs lib w (.terminate reason) w (w.operation.doTerminate reason)
  | send (request : Operation.Request) (reaction : Reaction)
      (hsend : w.operation.send lib request = some (.ok reaction)) :
      Runs lib w (.send request) w reaction
  | throws (request : Operation.Request) (exception : Arinc615aException)
      (hsend : w.operation.send lib request = some (.error exception)) :
      Runs lib w (.send request) w (w.operation, [])
  | tftpRequest (remote : Endpoint) (requestType : RequestType) (filename : Text)
      (options : Arinc615aOptions) (hrunning : w.serverRunning = true) :
      Runs lib w (.tftpRequest remote requestType filename options) w
        (w.operation.tftpRequest remote requestType filename options)
  | deferred (waitTime : Nat) (hpending : .initialisation ∈ w.loop.pending) :
      Runs lib w (.deferred waitTime) w (w.operation.initialisationFileDeferred waitTime)
  | completed (transfer : Transfer) (status : TransferStatus) (data : Bytes)
      (loop : EventLoop Transfer) (hloop : w.loop.complete transfer = some loop) :
      Runs lib w (.completed transfer status data) { w with loop }
        (complete lib transfer status data w.operation)
  | timerElapses (result : WaitResult) (loop : EventLoop Transfer)
      (hloop : w.loop.elapse result = some loop) :
      Runs lib w (.timerElapses result) { w with loop } (w.operation, [])
  | timerHandler (result : WaitResult) (loop : EventLoop Transfer)
      (hloop : w.loop.take result = some loop) :
      Runs lib w (.timerHandler result) { w with loop } (w.operation.timerHandler result)

/-- A step is a start, or performs what its event runs. -/
theorem step_cases {lib : Library} {w w' : World} {event : Event} {out : List Observation}
    (hstep : w.step lib event = some (w', out)) :
    (∃ result, event = .start result) ∨
      ∃ v r, Runs lib w event v r ∧ v.react (fun _ => r) = (w', out) := by
  cases event with
  | start result => exact .inl ⟨result, rfl⟩
  | abort reason => exact .inr ⟨w, _, .abort reason, Option.some.inj hstep⟩
  | terminate reason => exact .inr ⟨w, _, .terminate reason, Option.some.inj hstep⟩
  | send request =>
    simp only [step] at hstep
    split at hstep
    · cases hstep
    case h_2 exception hsend => exact .inr ⟨w, _, .throws request _ hsend, Option.some.inj hstep⟩
    case h_3 reaction hsend => exact .inr ⟨w, _, .send request _ hsend, Option.some.inj hstep⟩
  | tftpRequest remote requestType filename options =>
    simp only [step] at hstep
    split at hstep
    case isTrue hrunning =>
      exact .inr ⟨w, _, .tftpRequest remote requestType filename options hrunning,
        Option.some.inj hstep⟩
    case isFalse => cases hstep
  | deferred waitTime =>
    simp only [step] at hstep
    split at hstep
    case isTrue hpending => exact .inr ⟨w, _, .deferred waitTime hpending, Option.some.inj hstep⟩
    case isFalse => cases hstep
  | completed transfer status data =>
    obtain ⟨loop, hloop, heq⟩ := Option.map_eq_some_iff.mp hstep
    exact .inr ⟨_, _, .completed transfer status data loop hloop, heq⟩
  | timerElapses result =>
    obtain ⟨loop, hloop, heq⟩ := Option.map_eq_some_iff.mp hstep
    exact .inr ⟨_, _, .timerElapses result loop hloop, heq⟩
  | timerHandler result =>
    obtain ⟨loop, hloop, heq⟩ := Option.map_eq_some_iff.mp hstep
    exact .inr ⟨_, _, .timerHandler result loop hloop, heq⟩

theorem Runs.step_eq {lib : Library} {w v : World} {event : Event} {r : Reaction}
    (h : Runs lib w event v r) : w.step lib event = some (v.react fun _ => r) := by
  cases h with
  | abort | terminate => rfl
  | send _ _ hsend => simp only [step, hsend]
  | throws _ _ hsend =>
    simp only [step, hsend]
    rfl
  | tftpRequest remote requestType filename options hrunning =>
    simp only [step, if_pos hrunning]
    rfl
  | deferred waitTime hpending =>
    simp only [step, if_pos hpending]
    rfl
  | completed _ _ _ _ hloop | timerElapses _ _ hloop | timerHandler _ _ hloop =>
    simp only [step, hloop, Option.map_some]
    rfl

end World

/-- A host operation in its event loop. -/
def system (lib : Library) : Reactive World Event Observation := ⟨World.step lib⟩

end Arinc615a.Host
