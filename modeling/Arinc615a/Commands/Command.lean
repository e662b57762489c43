import Arinc615a.Host.Callbacks

/-!
# Commands for a single operation

The commands in `arinc_615a_commands/operations/` that execute one operation.  A command is the
handler of its operation; it sends the files that start an upload or a download, and transfers the
files that the target requests.
-/

open Reasoning

namespace Arinc615a.Commands

open Files Information Tftp Host

/-- A file that is transferred, as its completion handler is bound to it. -/
structure FileOperation where
  operation : Nat
  filename : Text
  filePath : Text
  deriving DecidableEq

/-- How a transfer ends.  `std::filesystem::file_size` may throw. -/
inductive FileResult where
  | failed
  | transferred (fileSize : Nat)
  | sizeThrows
  deriving DecidableEq

/-- What a handler function asks the operation for. -/
inductive Demand where
  | nothing
  | send (request : Operation.Request)
  /-- An abort on behalf of the operator. -/
  | abort
  deriving DecidableEq

/-- What the commands differ in.  `μ` are the members that change; the times are in seconds. -/
structure CommandHandler (μ : Type) where
  /-- The path of a requested file, if it is there. -/
  filePath : Text → Text → CheckValue → Option Text
  /-- The handler functions, but for `fileRequest`. -/
  called : Nat → μ → Output → μ × Demand
  /-- What is noted behind a request that was sent. -/
  sent : μ → μ
  fileStarted : Nat → μ → FileOperation → Text → CheckValue → μ
  fileCompleted : Nat → μ → FileOperation → FileResult → μ

structure Command (μ : Type) where
  members : μ
  /-- `operationV`, with its surroundings -/
  operation : World
  executed : Bool := false
  fileOperations : List Nat := []
  /-- The file transfers under way. -/
  transfers : List FileOperation := []
  nextFileOperation : Nat := 0

namespace Command

/-- What is seen of a command. -/
inductive Observation where
  /-- The operation makes a call. -/
  | call (now : Nat) (output : Output)
  | send (request : Operation.Request) (accepted : Bool)
  | abort (reason : AbortReason)
  | errorOperation (remote : Endpoint) (errorCode : ErrorCode) (errorMessage : Text)
  | fileTransfer (now : Nat) (remote : Endpoint) (operation : FileOperation) (partNumber : Text)
      (checkValue : CheckValue)
  | fileCompleted (now : Nat) (operation : FileOperation) (result : FileResult)
  | done
  deriving DecidableEq

/-- How a part of the command ends: it may throw, and then its caller does not go on. -/
structure Reaction (μ : Type) where
  command : Command μ
  out : List Observation := []
  thrown : Bool := false

inductive Event where
  | execute (result : Operation.StartResult)
  /-- A handler of the operation runs. -/
  | operation (event : Host.Event)
  | abortSignal
  | terminateSignal
  | fileCompleted (operation : FileOperation) (result : FileResult)
  deriving DecidableEq

section

variable {μ : Type} (lib : Library) (h : CommandHandler μ) (now : Nat) (command : Command μ)

/-- The calls of the operation that go to no handler function. -/
def react (r : Host.Reaction) : Reaction μ where
  command := { command with operation := (command.operation.react fun _ => r).1 }
  out := r.2.map (.call now)

def abort (reason : AbortReason) : Reaction μ :=
  let r := command.react now (command.operation.operation.doAbort reason)
  { r with out := .abort reason :: r.out }

def demand : Demand → Reaction μ
  | .nothing => { command }
  | .abort => command.abort now .operator
  | .send request =>
    match command.operation.operation.send lib request with
    | none => { command }
    | some (.ok reaction) =>
      let r := command.react now reaction
      { command := { r.command with members := h.sent r.command.members }
        out := .send request true :: r.out }
    | some (.error _) =>
      match request with
      -- the exception is caught by the operation that has called the handler
      | .answer _ =>
        let r := command.react now (command.operation.operation.doAbort .protocol)
        { r with out := .send request false :: r.out }
      | .loadList _ | .request .. => { command, out := [.send request false], thrown := true }

def fileRequest (remote : Endpoint) (filename partNumber : Text) (checkValue : CheckValue) :
    Reaction μ :=
  match h.filePath filename partNumber checkValue with
  | none =>
    { command, out := [.errorOperation remote .fileNotFound
        (text "File '" ++ filename ++ text "' was not found.")] }
  | some filePath =>
    let operation : FileOperation := ⟨command.nextFileOperation, filename, filePath⟩
    { command := { command with
        members := h.fileStarted now command.members operation partNumber checkValue
        fileOperations := operation.operation :: command.fileOperations
        transfers := operation :: command.transfers
        nextFileOperation := operation.operation + 1 }
      out := [.fileTransfer now remote operation partNumber checkValue] }

def handler : Output → Reaction μ
  | .fileRequest remote filename partNumber checkValue =>
    command.fileRequest h now remote filename partNumber checkValue
  | .finished code description =>
    let called := h.called now command.members (.finished code description)
    let r := demand lib h now { command with members := called.1 } called.2
    { r with out := r.out ++ [.done] }
  | o =>
    let called := h.called now command.members o
    demand lib h now { command with members := called.1 } called.2

def deliverAll : List Output → Command μ → Reaction μ
  | [], command => { command }
  | o :: out, command =>
    let r := handler lib h now { command with operation := command.operation.perform o } o
    if r.thrown then { command := r.command, out := .call now o :: r.out, thrown := true }
    else
      let r' := deliverAll out r.command
      { command := r'.command, out := .call now o :: (r.out ++ r'.out), thrown := r'.thrown }

/-- A handler of the operation runs, and makes its calls. -/
def run (w : World) (r : Host.Reaction) : Reaction μ :=
  deliverAll lib h now r.2 { command with operation := { w with operation := r.1 } }

def fileCompleted (operation : FileOperation) (result : FileResult) : Reaction μ :=
  let removed := command.fileOperations.count operation.operation
  let command := { command with
    fileOperations := command.fileOperations.filter (· ≠ operation.operation) }
  let r : Reaction μ :=
    if removed ≠ 1 then command.abort now .protocol else { command }
  { command := { r.command with
      members := h.fileCompleted now r.command.members operation result }
    out := .fileCompleted now operation result :: r.out }

/-- `none` means that the event cannot happen. -/
def step : Event → Option (Command μ × List Observation)
  | .execute result =>
    if command.executed then none
    else
      let r := { command with executed := true }.react now
        (command.operation.operation.start result)
      some (r.command, r.out)
  | .operation event =>
    (command.operation.callback lib event).map fun (w, reaction) =>
      let r := command.run lib h now w reaction
      (r.command, r.out)
  | .abortSignal =>
    let r := command.react now (command.operation.operation.doAbort .operator)
    some (r.command, r.out)
  | .terminateSignal =>
    let r := command.run lib h now command.operation
      (command.operation.operation.doTerminate .operator)
    some (r.command, r.out)
  | .fileCompleted operation result =>
    if operation ∈ command.transfers then
      let r := fileCompleted h now
        { command with transfers := command.transfers.erase operation } operation result
      some (r.command, r.out)
    else none

end

/-- A command whose operation has been created. -/
def created {μ : Type} (members : μ) (kind : OperationType) (targetId : TargetId)
    (dlpTimeout : Nat) (portOption : Bool) : Command μ where
  members := members
  operation := .ofOperation kind targetId dlpTimeout portOption

end Command

/-- Every event happens at a time. -/
def commandSystem {μ : Type} (lib : Library) (h : CommandHandler μ) :
    Reactive (Command μ) (Nat × Command.Event) Command.Observation :=
  ⟨fun command e => command.step lib h e.1 e.2⟩

/-! ## Calls that go to no handler function -/

/-- The calls that go to the handler. -/
def heard : Output → Bool
  | .initialisationDeferred _ | .initialisationResponse _ | .informationStatus _ | .uploadStatus _
  | .downloadStatus _ | .targetInformation .. | .downloadingList _ | .fileRequest ..
  | .finished .. => true
  | _ => false

def Unheard (out : List Output) : Prop := ∀ o ∈ out, heard o = false

theorem unheard_doAbort (op : Operation) (reason : AbortReason) :
    Unheard (op.doAbort reason).2 := by
  unfold Operation.doAbort
  split
  · exact List.forall_mem_nil _
  · unfold Operation.abortInitialisation
    split
    · exact List.forall_mem_singleton.mpr rfl
    · exact List.forall_mem_nil _

theorem unheard_start (op : Operation) (result : Operation.StartResult) :
    Unheard (op.start result).2 := by
  have hinitialise : ∀ (op : Operation) fileType, Unheard (op.initialise fileType result).2 := by
    intro op fileType
    cases result <;> simp [Unheard, Operation.initialise, heard]
  unfold Operation.start
  cases op.kind <;> exact hinitialise _ _

/-- What is sent changes nothing yet. -/
theorem unheard_send {lib : Library} {op : Operation} {request : Operation.Request}
    {reaction : Host.Reaction} (hsend : op.send lib request = some (.ok reaction)) :
    reaction.1 = op ∧ Unheard reaction.2 := by
  rcases op.send_cases lib hsend with ⟨-, rfl⟩ | ⟨-, fileType, filename, file, rfl⟩
  · exact ⟨rfl, List.forall_mem_nil _⟩
  · exact ⟨rfl, by simp [Unheard, heard]⟩

/-! ## Rules of the commands -/

namespace Command

variable {μ τ : Type} {lib : Library} {h : CommandHandler μ} {now : Nat}
  {command command' : Command μ}

/-- At most the operation of a command has changed, and that keeps its class. -/
structure Framed (command command' : Command μ) : Prop where
  members : command'.members = command.members
  fileOperations : command'.fileOperations = command.fileOperations
  transfers : command'.transfers = command.transfers
  nextFileOperation : command'.nextFileOperation = command.nextFileOperation
  kind : command'.operation.operation.kind = command.operation.operation.kind

theorem framed_abort (now : Nat) (reason : AbortReason) :
    Framed command (command.abort now reason).command :=
  ⟨rfl, rfl, rfl, rfl, (Operation.apart_doAbort _ reason).kept.kind⟩

variable (lib h now command) in
/-- A request is sent or refused, unless operations of this class have no such request. -/
theorem demand_send (request : Operation.Request) :
    (command.operation.operation.send lib request = none ∧
      demand lib h now command (.send request) = { command }) ∨
    ∃ accepted out, Unheard out ∧
      (demand lib h now command (.send request)).out =
        .send request accepted :: out.map (.call now) ∧
      Framed { command with
          members := if accepted then h.sent command.members else command.members }
        (demand lib h now command (.send request)).command := by
  unfold demand
  dsimp only
  split
  next hsend => exact .inl ⟨hsend, rfl⟩
  next reaction hsend =>
    obtain ⟨hsame, hunheard⟩ := unheard_send hsend
    exact .inr ⟨true, reaction.2, hunheard, rfl, rfl, rfl, rfl, rfl, congrArg _ hsame⟩
  · split
    · exact .inr ⟨false, _, unheard_doAbort _ _, rfl, framed_abort now .protocol⟩
    · exact .inr ⟨false, [], List.forall_mem_nil _, rfl, rfl, rfl, rfl, rfl, rfl⟩
    · exact .inr ⟨false, [], List.forall_mem_nil _, rfl, rfl, rfl, rfl, rfl, rfl⟩

/-- A part of a run keeps an invariant, and to a specification that looks at a part of the
command. -/
def Follows (Inv : Command μ → Prop) (view : Command μ → τ)
    (Spec : τ → List Observation → τ → Prop) (command : Command μ) (out : List Observation)
    (command' : Command μ) : Prop :=
  Inv command' ∧ Spec (view command) out (view command')

/-- What there is to prove of a handler: neither the invariant nor the specification has to do with
the state of the operation, and the handler functions follow them. -/
structure Rule (lib : Library) (h : CommandHandler μ) (Inv : Command μ → Prop)
    (view : Command μ → τ) (Spec : τ → List Observation → τ → Prop) : Prop where
  composable : Composable Spec
  framed : ∀ {command command' : Command μ}, Framed command command' → Inv command →
    Inv command' ∧ view command' = view command
  unheard : ∀ t now {o}, heard o = false → Spec t [.call now o] t
  handler : ∀ {command : Command μ} now o, Inv command →
    Follows Inv view Spec command (.call now o :: (handler lib h now command o).out)
      (handler lib h now command o).command
  fileCompleted : ∀ {command : Command μ} {operation} now result, Inv command →
    operation ∈ command.transfers →
    let r := fileCompleted h now
      { command with transfers := command.transfers.erase operation } operation result
    Follows Inv view Spec command r.out r.command

namespace Rule

variable {Inv : Command μ → Prop} {view : Command μ → τ} {Spec : τ → List Observation → τ → Prop}
  (rule : Rule lib h Inv view Spec)

include rule

theorem calls (t : τ) (now : Nat) {out : List Output} (hout : Unheard out) :
    Spec t (out.map (.call now)) t := by
  induction out with
  | nil => exact rule.composable.nil t
  | cons o out ih =>
    obtain ⟨ho, hrest⟩ := List.forall_mem_cons.mp hout
    exact rule.composable.append (rule.unheard t now ho) (ih hrest)

/-- The operation goes on, and calls no handler function. -/
theorem quiet (hinv : Inv command) {out : List Output} (hframed : Framed command command')
    (hout : Unheard out) : Follows Inv view Spec command (out.map (.call now)) command' := by
  obtain ⟨hinv', hview⟩ := rule.framed hframed hinv
  refine ⟨hinv', ?_⟩
  rw [hview]
  exact rule.calls _ now hout

theorem deliverAll (now : Nat) (hinv : Inv command) (out : List Output) :
    Follows Inv view Spec command (deliverAll lib h now out command).out
      (deliverAll lib h now out command).command := by
  induction out generalizing command with
  | nil => exact ⟨hinv, rule.composable.nil _⟩
  | cons o out ih =>
    have hframed : Framed command { command with operation := command.operation.perform o } :=
      ⟨rfl, rfl, rfl, rfl, rfl⟩
    obtain ⟨hperformed, hview⟩ := rule.framed hframed hinv
    obtain ⟨hnext, hfirst⟩ := rule.handler now o hperformed
    rw [hview] at hfirst
    unfold Command.deliverAll
    dsimp only
    split
    · exact ⟨hnext, hfirst⟩
    · obtain ⟨hlast, hrest⟩ := ih hnext
      exact ⟨hlast, rule.composable.append hfirst hrest⟩

theorem run (hinv : Inv command) (w : World) {r : Host.Reaction}
    (hkind : r.1.kind = command.operation.operation.kind) :
    Follows Inv view Spec command (command.run lib h now w r).out
      (command.run lib h now w r).command := by
  have hframed : Framed command { command with operation := { w with operation := r.1 } } :=
    ⟨rfl, rfl, rfl, rfl, hkind⟩
  obtain ⟨hrunning, hview⟩ := rule.framed hframed hinv
  obtain ⟨hnext, hspec⟩ := rule.deliverAll now hrunning r.2
  rw [hview] at hspec
  exact ⟨hnext, hspec⟩

theorem step {e : Nat × Event} {out : List Observation} (hinv : Inv command)
    (hstep : (commandSystem lib h).step command e = some (command', out)) :
    Follows Inv view Spec command out command' := by
  obtain ⟨now, event⟩ := e
  have hstep : command.step lib h now event = some (command', out) := hstep
  cases event with
  | execute result =>
    simp only [Command.step] at hstep
    split at hstep
    · cases hstep
    · cases hstep
      refine rule.quiet hinv ⟨rfl, rfl, rfl, rfl, ?_⟩ (unheard_start _ result)
      exact (Operation.configured_start _ result).kind
  | operation event =>
    obtain ⟨⟨w, reaction⟩, hcallback, heq⟩ := Option.map_eq_some_iff.mp hstep
    cases heq
    exact rule.run hinv w (World.kind_callback hcallback)
  | abortSignal =>
    cases hstep
    exact rule.quiet hinv (framed_abort now .operator) (unheard_doAbort _ _)
  | terminateSignal =>
    cases hstep
    exact rule.run hinv _ (Operation.apart_doTerminate _ _).kept.kind
  | fileCompleted operation result =>
    simp only [Command.step] at hstep
    split at hstep
    case isTrue hmem =>
      cases hstep
      exact rule.fileCompleted now result hinv hmem
    case isFalse => cases hstep

/-- Every run of the command keeps to the specification. -/
theorem runs {events : List (Nat × Event)} {out : List Observation} (hinv : Inv command)
    (hrun : (commandSystem lib h).run command events = some (command', out)) :
    Spec (view command) out (view command') :=
  (commandSystem lib h).run_conforms rule.composable (fun _ _ _ _ => rule.step) hinv hrun

end Rule

end Command

end Arinc615a.Commands
