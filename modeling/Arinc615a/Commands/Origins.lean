import Arinc615a.Commands.Transmission
import Arinc615a.Host.Origins
import Arinc615a.Reasoning.Precedence

/-!
# Where the calls behind a command come from

The operation of a command calls what its own events bring about, and what the command sends from
within the handler functions.
-/

open Reasoning

namespace Arinc615a.Commands

open Files Information Tftp Host

namespace Command

/-- What an event of a command is to its operation. -/
def Event.ofOperation : Event → Host.Event
  | .execute result => .start result
  | .operation event => event
  | .abortSignal => .abort .operator
  | .terminateSignal => .terminate .operator
  | .fileCompleted .. => .abort .protocol

/-- A call comes from the event that runs the operation, or from a request that has been sent
before. -/
def Comes (lib : Library) (op : Operation) (event : Host.Event) (past : List Observation) :
    Observation → Prop
  | .call _ o => Origin lib op event o ∨
      ∃ op' request, Operation.kind op' = op.kind ∧ .send request true ∈ past ∧
        Origin lib op' (.send request) o
  | _ => True

section

variable {μ : Type} {lib : Library} {h : CommandHandler μ} {now : Nat} {op : Operation}
  {event : Host.Event} {past : List Observation} {command command' : Command μ}

theorem lasting_comes (lib : Library) (op : Operation) (event : Host.Event) :
    Lasting (Comes lib op event) := by
  intro past more o ho
  cases o with
  | call now o =>
    rcases ho with ho | ⟨op', request, hkind, hsent, ho⟩
    · exact .inl ho
    · exact .inr ⟨op', request, hkind, List.mem_append_left _ hsent, ho⟩
  | _ => trivial

theorem comes_calls (now : Nat) {out : List Output} (hout : Host.Comes lib op event out) :
    ∀ o ∈ out.map (Observation.call now), Comes lib op event past o :=
  List.forall_mem_map.mpr fun o ho => .inl (hout o ho)

theorem preceded_calls (now : Nat) {out : List Output} (hout : Host.Comes lib op event out) :
    Preceded (Comes lib op event) past (out.map (.call now)) :=
  .of_forall (lasting_comes lib op event) (comes_calls now hout)

theorem preceded_abort (now : Nat) (command : Command μ) (reason : AbortReason) :
    Preceded (Comes lib op event) past (command.abort now reason).out :=
  .cons trivial (preceded_calls now (Operation.comes_doAbort lib op _ reason))

/-- What a handler function asks for. -/
theorem preceded_demand (now : Nat) (hkind : command.operation.operation.kind = op.kind)
    (d : Demand) :
    Preceded (Comes lib op event) past (Command.demand lib h now command d).out ∧
      (Command.demand lib h now command d).command.operation.operation.kind = op.kind := by
  cases d with
  | nothing => exact ⟨.nil, hkind⟩
  | abort =>
    exact ⟨preceded_abort now command .operator,
      (framed_abort now .operator).kind.trans hkind⟩
  | send request =>
    unfold Command.demand
    dsimp only
    split
    · exact ⟨.nil, hkind⟩
    next reaction hsend =>
      obtain ⟨hsame, -⟩ := unheard_send hsend
      refine ⟨.cons trivial (.of_forall (lasting_comes lib op event)
        (List.forall_mem_map.mpr fun o ho => .inr ⟨_, request, hkind, ?_,
          Operation.comes_send lib _ hsend o ho⟩)), (congrArg _ hsame).trans hkind⟩
      exact List.mem_append_right _ (List.mem_singleton_self _)
    · split
      · exact ⟨.cons trivial (preceded_calls now (Operation.comes_doAbort lib op _ .protocol)),
          (framed_abort now .protocol).kind.trans hkind⟩
      · exact ⟨.cons trivial .nil, hkind⟩
      · exact ⟨.cons trivial .nil, hkind⟩

theorem preceded_handler (now : Nat) (command : Command μ)
    (hkind : command.operation.operation.kind = op.kind) (o : Output) :
    Preceded (Comes lib op event) past (handler lib h now command o).out ∧
      (handler lib h now command o).command.operation.operation.kind = op.kind := by
  have hdemand : ∀ members d,
      Preceded (Comes lib op event) past
          (Command.demand lib h now { command with members } d).out ∧
        (Command.demand lib h now { command with members } d).command.operation.operation.kind =
          op.kind := by
    intro members d
    refine preceded_demand now ?_ d
    exact hkind
  cases o with
  | fileRequest remote filename partNumber checkValue =>
    unfold handler fileRequest
    dsimp only
    split
    · exact ⟨.cons trivial .nil, hkind⟩
    · exact ⟨.cons trivial .nil, hkind⟩
  | finished code description =>
    obtain ⟨hout, hlast⟩ := hdemand (h.called now command.members (.finished code description)).1
      (h.called now command.members (.finished code description)).2
    exact ⟨hout.append (.cons trivial .nil), hlast⟩
  | _ => exact hdemand _ _

theorem preceded_deliverAll (now : Nat) {out : List Output} (hout : Host.Comes lib op event out)
    (hkind : command.operation.operation.kind = op.kind) :
    Preceded (Comes lib op event) past (deliverAll lib h now out command).out ∧
      (deliverAll lib h now out command).command.operation.operation.kind = op.kind := by
  induction out generalizing command past with
  | nil => exact ⟨.nil, hkind⟩
  | cons o out ih =>
    obtain ⟨ho, hrest⟩ := List.forall_mem_cons.mp hout
    unfold Command.deliverAll
    dsimp only
    split
    · obtain ⟨hfirst, hnext⟩ := preceded_handler now
        { command with operation := command.operation.perform o } hkind o
      exact ⟨.cons (.inl ho) hfirst, hnext⟩
    · obtain ⟨hfirst, hnext⟩ := preceded_handler now
        { command with operation := command.operation.perform o } hkind o
      obtain ⟨hothers, hlast⟩ := ih hrest hnext
      exact ⟨.cons (.inl ho) (hfirst.append hothers), hlast⟩

theorem preceded_step {e : Nat × Event} {out : List Observation}
    (hstep : (commandSystem lib h).step command e = some (command', out)) :
    Preceded (Comes lib command.operation.operation e.2.ofOperation) past out ∧
      command'.operation.operation.kind = command.operation.operation.kind := by
  obtain ⟨now, event⟩ := e
  have hstep : command.step lib h now event = some (command', out) := hstep
  cases event with
  | execute result =>
    simp only [Command.step] at hstep
    split at hstep
    · cases hstep
    · cases hstep
      exact ⟨preceded_calls now (Operation.comes_start lib _ result),
        (Operation.configured_start _ result).kind⟩
  | operation event =>
    obtain ⟨⟨w, reaction⟩, hcallback, heq⟩ := Option.map_eq_some_iff.mp hstep
    cases heq
    have hcomes : Host.Comes lib command.operation.operation event reaction.2 := fun o ho =>
      World.comes_step (World.step_of_callback hcallback) o (List.mem_map_of_mem ho)
    exact preceded_deliverAll now hcomes (World.kind_callback hcallback)
  | abortSignal =>
    cases hstep
    exact ⟨preceded_calls now (Operation.comes_doAbort lib _ _ .operator),
      (framed_abort now .operator).kind⟩
  | terminateSignal =>
    cases hstep
    exact preceded_deliverAll now (Operation.comes_doTerminate lib _ .operator)
      (Operation.apart_doTerminate _ .operator).kept.kind
  | fileCompleted operation result =>
    simp only [Command.step] at hstep
    split at hstep
    case isTrue hmem =>
      cases hstep
      unfold Command.fileCompleted
      dsimp only
      split
      · exact ⟨.cons trivial (preceded_abort now _ .protocol), (framed_abort now .protocol).kind⟩
      · exact ⟨.cons trivial .nil, rfl⟩
    case isFalse => cases hstep

end

/-! ## What is sent -/

/-- What is sent is sent right behind a call of the operation that asks for it. -/
def SentBehind (asks : Output → Operation.Request → Prop) (out : List Observation) : Prop :=
  ∀ front request accepted back, out = front ++ .send request accepted :: back →
    ∃ front' now o, front = front' ++ [.call now o] ∧ asks o request

def Observation.silent : Observation → Bool
  | .send .. => false
  | _ => true

namespace SentBehind

variable {asks : Output → Operation.Request → Prop} {out out' : List Observation}

theorem of_silent (h : ∀ o ∈ out, o.silent = true) : SentBehind asks out := by
  intro front request accepted back hout
  have hsilent := h (.send request accepted) (by simp [hout])
  cases hsilent

theorem pair {now : Nat} {o : Output} {request : Operation.Request} {accepted : Bool}
    (h : asks o request) : SentBehind asks [.call now o, .send request accepted] := by
  intro front request' accepted' back hout
  match front with
  | [] => cases hout
  | [_] =>
    cases hout
    exact ⟨[], now, o, rfl, h⟩
  | [_, _] => cases hout
  | _ :: _ :: _ :: _ => cases hout

theorem append (h : SentBehind asks out) (h' : SentBehind asks out') :
    SentBehind asks (out ++ out') := by
  intro front request accepted back hout
  rcases List.append_eq_append_iff.mp hout with ⟨middle, rfl, hmiddle⟩ | ⟨middle, hmiddle, hback⟩
  · obtain ⟨front', now, o, rfl, ho⟩ := h' _ _ _ _ hmiddle
    exact ⟨out ++ front', now, o, (List.append_assoc ..).symm, ho⟩
  · cases middle with
    | nil =>
      rw [List.append_nil] at hmiddle
      obtain ⟨front', now, o, hfront, -⟩ := h' [] _ _ _ hback.symm
      exact absurd hfront (by simp)
    | cons first middle =>
      cases hback
      exact h _ _ _ _ hmiddle

theorem cons {now : Nat} {o : Output} {request : Operation.Request} {accepted : Bool}
    (h : asks o request) (hout : ∀ o ∈ out, o.silent = true) :
    SentBehind asks (.call now o :: .send request accepted :: out) :=
  append (pair h) (of_silent hout)

end SentBehind

theorem silent_calls (now : Nat) (out : List Output) :
    ∀ o ∈ out.map (Observation.call now), o.silent = true :=
  List.forall_mem_map.mpr fun _ _ => rfl

end Command

/-- A handler that sends what a call asks for, and what its members may hold. -/
structure Asking {μ : Type} (h : CommandHandler μ) (Inv : μ → Prop)
    (asks : Output → Operation.Request → Prop) : Prop where
  called : ∀ now {members} o, Inv members → Inv (h.called now members o).1 ∧
    ∀ request, (h.called now members o).2 = .send request → asks o request
  sent : ∀ {members}, Inv members → Inv (h.sent members)
  fileStarted : ∀ now {members} operation partNumber checkValue, Inv members →
    Inv (h.fileStarted now members operation partNumber checkValue)
  fileCompleted : ∀ now {members} operation result, Inv members →
    Inv (h.fileCompleted now members operation result)

namespace Asking

open Command

variable {μ : Type} {lib : Library} {h : CommandHandler μ} {Inv : μ → Prop}
  {asks : Output → Operation.Request → Prop} {command : Command μ} {now : Nat}
  (law : Asking h Inv asks)

include law

theorem behind_demand {o : Output} {d : Demand} (hinv : Inv command.members)
    (hasks : ∀ request, d = .send request → asks o request) :
    Inv (Command.demand lib h now command d).command.members ∧
      SentBehind asks (.call now o :: (Command.demand lib h now command d).out) := by
  cases d with
  | nothing => exact ⟨hinv, .of_silent (List.forall_mem_singleton.mpr rfl)⟩
  | abort =>
    refine ⟨hinv, .of_silent (List.forall_mem_cons.mpr ⟨rfl, ?_⟩)⟩
    exact List.forall_mem_cons.mpr ⟨rfl, silent_calls now _⟩
  | send request =>
    rcases demand_send lib h now command request with
      ⟨-, heq⟩ | ⟨accepted, out, -, heq, hframed⟩
    · rw [heq]
      exact ⟨hinv, .of_silent (List.forall_mem_singleton.mpr rfl)⟩
    · rw [heq, hframed.members]
      refine ⟨?_, .cons (hasks request rfl) (silent_calls now out)⟩
      cases accepted with
      | true => exact law.sent hinv
      | false => exact hinv

theorem behind_handler (hinv : Inv command.members) (o : Output) :
    Inv (handler lib h now command o).command.members ∧
      SentBehind asks (.call now o :: (handler lib h now command o).out) := by
  obtain ⟨hcalled, hasks⟩ := law.called now o hinv
  have hdemand :
      let r := Command.demand lib h now
        { command with members := (h.called now command.members o).1 }
        (h.called now command.members o).2
      Inv r.command.members ∧ SentBehind asks (.call now o :: r.out) :=
    law.behind_demand hcalled hasks
  cases o with
  | fileRequest remote filename partNumber checkValue =>
    unfold handler fileRequest
    dsimp only
    split
    · exact ⟨hinv, .of_silent (by simp [Observation.silent])⟩
    · exact ⟨law.fileStarted _ _ _ _ hinv, .of_silent (by simp [Observation.silent])⟩
  | finished code description =>
    refine ⟨hdemand.1, ?_⟩
    exact hdemand.2.append (.of_silent (List.forall_mem_singleton.mpr rfl))
  | _ => exact hdemand

theorem rule : Rule lib h (fun command => Inv command.members) (fun _ => ())
    (fun _ out _ => SentBehind asks out) where
  composable := ⟨fun _ => .of_silent (List.forall_mem_nil _), .append⟩
  framed hframed hinv := ⟨hframed.members ▸ hinv, rfl⟩
  unheard _ _ _ _ := .of_silent (List.forall_mem_singleton.mpr rfl)
  handler _ o hinv := law.behind_handler hinv o
  fileCompleted now result hinv _ := by
    unfold Command.fileCompleted
    dsimp only
    split
    · refine ⟨law.fileCompleted now _ result hinv, .of_silent ?_⟩
      exact List.forall_mem_cons.mpr ⟨rfl, List.forall_mem_cons.mpr ⟨rfl, silent_calls now _⟩⟩
    · exact ⟨law.fileCompleted now _ result hinv, .of_silent (List.forall_mem_singleton.mpr rfl)⟩

/-- Over any run, what is sent is asked for by the call of the operation that is right in front of
it. -/
theorem runs {events : List (Nat × Command.Event)} {command' : Command μ}
    {out : List Command.Observation} (hinv : Inv command.members)
    (hrun : (commandSystem lib h).run command events = some (command', out)) :
    SentBehind asks out :=
  law.rule.runs hinv hrun

end Asking

/-! ## The commands -/

theorem Transmitting.asking {μ : Type} {h : CommandHandler μ} {kind : OperationType}
    {accepts : Output → Bool} {transmitted : μ → Bool} {request : Operation.Request}
    (law : Transmitting h kind accepts transmitted request) :
    Asking h (fun _ => True) fun o request' => accepts o = true ∧ request' = request where
  called now members o _ := by
    refine ⟨trivial, fun request' hrequest => ?_⟩
    rw [law.demanded] at hrequest
    split at hrequest
    next haccepts =>
      cases hrequest
      exact ⟨haccepts.1, rfl⟩
    · cases hrequest
  sent _ := trivial
  fileStarted _ _ _ _ _ _ := trivial
  fileCompleted _ _ _ _ _ := trivial

/-- How the command for operator defined downloads answers a list.  It moves the names that it has
been given out of its list, and later answers are made of what is left of them. -/
def Answers (downloadAll : Bool) (requestedFiles : List Text) :
    Output → Operation.Request → Prop
  | .downloadingList files, .answer names => names ≠ [] ∧
    if downloadAll then names = files.map (·.filename)
    else names = requestedFiles ∨ names = requestedFiles.map fun _ => []
  | _, _ => False

theorem asking_operatorDefinedDownload (paths : PathLibrary) (downloadDataPath : Text)
    (downloadAll : Bool) (requestedFiles : List Text) :
    Asking (operatorDefinedDownloadHandler paths downloadDataPath downloadAll)
      (fun members => downloadAll = false → members.requestedFiles = requestedFiles ∨
        members.requestedFiles = requestedFiles.map fun _ => [])
      (Answers downloadAll requestedFiles) where
  called now members o hinv := by
    cases o with
    | downloadingList files =>
      cases downloadAll with
      | true =>
        simp only [operatorDefinedDownloadHandler, if_true]
        split
        · exact ⟨nofun, nofun⟩
        next hsome =>
          refine ⟨nofun, fun request hrequest => ?_⟩
          cases hrequest
          exact ⟨hsome, rfl⟩
      | false =>
        have hnames := hinv rfl
        simp only [operatorDefinedDownloadHandler, Bool.false_eq_true, if_false]
        split
        next hnone =>
          rw [hnone] at hnames
          exact ⟨fun _ => hnames, nofun⟩
        next hsome =>
          refine ⟨fun _ => .inr ?_, fun request hrequest => ?_⟩
          · -- what has been moved out already is as empty as before
            rcases hnames with heq | heq
            · rw [heq]
            · rw [heq, List.map_map]
              rfl
          · cases hrequest
            exact ⟨hsome, hnames⟩
    | _ => exact ⟨hinv, nofun⟩
  sent hinv := hinv
  fileStarted _ _ _ _ _ hinv := hinv
  fileCompleted _ _ _ _ hinv := hinv

end Arinc615a.Commands
