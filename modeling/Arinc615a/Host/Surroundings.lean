import Arinc615a.Host.Finish
import Arinc615a.Host.Resemblance
import Arinc615a.Reasoning.Simulation

/-!
# Resembling operations in their surroundings

Resembling operations run the same parts of their callbacks, and leave the same to be done behind a
call.  So whatever happens to one of them happens to the other one as well, if the surroundings of
the other one let it happen.
-/

open Reasoning

namespace Arinc615a.Host

open Files Information Tftp

/-- Back from the numbers of the operation that is started again. -/
def Transfer.unshift (offset : Nat) : Transfer → Transfer
  | .status id => .status (id - offset)
  | transfer => transfer

def Event.rename (f : Transfer → Transfer) : Event → Event
  | .completed transfer status data => .completed (f transfer) status data
  | event => event

/-- The calls of the handler are left in the same way. -/
def renameCall (f : Transfer → Transfer) : CallEvent Event Exit → CallEvent Event Exit
  | .event event => .event (event.rename f)
  | .leave exit => .leave exit

def Observation.shift (offset : Nat) : Observation → Observation
  | .started => .started
  | .call output => .call (output.shift offset)

@[simp] theorem Transfer.unshift_shift (offset : Nat) (transfer : Transfer) :
    (transfer.shift offset).unshift offset = transfer := by
  cases transfer with
  | status id => simp [shift, unshift]
  | _ => rfl

theorem Output.command_shift (offset : Nat) (o : Output) :
    (o.shift offset).command = o.command.map (Transfer.shift offset) := by
  cases o <;> rfl

theorem Output.server_shift (offset : Nat) (o : Output) (running : Bool) :
    (o.shift offset).server running = o.server running := by
  cases o <;> rfl

/-! ## The configuration -/

namespace Operation

variable (lib : Library) (op : Operation)

theorem configured_initialisationAnsweredPart (initFile : InitializationFile) :
    Configured op (op.initialisationAnsweredPart initFile).state := by
  unfold initialisationAnsweredPart
  cases initFile.response.code with
  | operationAccepted | operationDenied | operationNotSupported | operationDeferred =>
    exact ⟨rfl, rfl, rfl, rfl⟩

theorem configured_initialisationFileCompletedPart (status : TransferStatus) (data : Bytes) :
    Configured op (op.initialisationFileCompletedPart lib status data).state := by
  unfold initialisationFileCompletedPart
  split
  · exact ⟨rfl, rfl, rfl, rfl⟩
  · split
    all_goals exact ⟨rfl, rfl, rfl, rfl⟩

theorem configured_statusReceivedPart (status : Information.Status) :
    Configured op (op.statusReceivedPart status).state := by
  have hnote : Configured op op.noteStatus := by
    by_cases hkind : op.kind = .information
    · rw [← noteStatus_information hkind]
      exact ⟨rfl, rfl, rfl, rfl⟩
    · rw [noteStatus_other hkind]
      exact .refl op
  unfold statusReceivedPart
  cases status.code with
  | operationAccepted | operationInProgress | operationInProgressAdditionalInfo => exact hnote
  | _ => exact .refl op

theorem configured_statusFileReceivedPart (status : TransferStatus) (data : Bytes) :
    Configured op (op.statusFileReceivedPart lib status data).state := by
  unfold statusFileReceivedPart
  split
  · exact .refl op
  · split
    all_goals exact .refl op

theorem configured_statusFileCompletedPart (operation : Nat) (status : TransferStatus)
    (data : Bytes) : Configured op (op.statusFileCompletedPart lib operation status data).state := by
  unfold statusFileCompletedPart
  dsimp only
  split
  · exact ⟨rfl, rfl, rfl, rfl⟩
  · obtain ⟨hkind, htarget, hdlp, hport⟩ := configured_statusFileReceivedPart lib
      (op.removeStatusFileOperation operation).1 status data
    exact ⟨hkind, htarget, hdlp, hport⟩

theorem configured_listFileFailedPart : Configured op op.listFileFailedPart.state := by
  unfold listFileFailedPart
  split
  · exact (op.apart_doAbort _).kept.configured
  · exact .refl op

theorem configured_targetInformationPart : Configured op op.targetInformationPart.state := by
  unfold targetInformationPart
  split
  all_goals exact .refl op

theorem configured_listFileCompletedPart (checkValue : CheckValue) (status : TransferStatus)
    (data : Bytes) : Configured op (op.listFileCompletedPart lib checkValue status data).state := by
  have hreset : Configured op { op with listFileOperation := false } := ⟨rfl, rfl, rfl, rfl⟩
  have hfailed := hreset.trans (configured_listFileFailedPart { op with listFileOperation := false })
  have haborted := hreset.trans
    (apart_doAbort { op with listFileOperation := false } .protocol).kept.configured
  unfold listFileCompletedPart
  cases op.kind with
  | information =>
    dsimp only [informationListFileCompletedPart]
    split
    · exact hfailed
    · split
      · exact hreset
      · exact hfailed
      · exact hreset
  | operatorDefinedDownload =>
    dsimp only [operatorListFileCompletedPart]
    split
    · exact haborted
    · split
      · exact hreset
      · exact haborted
      · exact hreset
  | upload | mediaDefinedDownload => exact .refl op

theorem configured_leave (rest : Rest) (exit : Exit) :
    Configured op (op.leave lib rest exit).state := by
  cases rest with
  | initialisationResponse initFile =>
    cases exit with
    | returned => exact op.configured_initialisationAnsweredPart initFile
    | arinc615aException | otherException => exact .refl op
  | status status =>
    cases exit with
    | returned => exact op.configured_statusReceivedPart status
    | arinc615aException | otherException => exact .refl op
  | targetInformation =>
    cases exit with
    | returned => exact op.configured_targetInformationPart
    | arinc615aException => exact op.configured_listFileFailedPart
    | otherException => exact .refl op
  | downloadingList =>
    cases exit with
    | arinc615aException => exact (op.apart_doAbort _).kept.configured
    | returned | otherException => exact .refl op
  | finished guard =>
    cases exit with
    | arinc615aException =>
      cases guard with
      | list => exact op.configured_listFileFailedPart
      | unguarded | initialisation | status => exact .refl op
    | returned | otherException => cases guard <;> exact .refl op
  | unknownStatus status data =>
    cases exit with
    | returned => exact op.configured_statusFileReceivedPart lib status data
    | arinc615aException | otherException => exact .refl op

end Operation

theorem Event.configured_part {lib : Library} {op : Operation} {event : Event} {part : Part}
    (h : event.part lib op = some part) : Configured op part.state := by
  cases event with
  | start result =>
    cases h
    exact op.configured_start result
  | abort reason =>
    cases h
    exact (op.apart_doAbort reason).kept.configured
  | terminate reason =>
    cases h
    exact op.apart_abortInitialisation.kept.configured
  | send request =>
    obtain ⟨r, hsend, rfl⟩ := Option.map_eq_some_iff.mp h
    unfold Operation.sendReaction Operation.caught at hsend
    split at hsend
    · cases hsend
    · cases hsend
      exact .refl op
    case h_3 reaction hreaction =>
      cases hsend
      rcases op.send_cases lib hreaction with ⟨-, rfl⟩ | ⟨-, fileType, filename, file, rfl⟩
      all_goals exact .refl op
  | tftpRequest remote requestType filename options =>
    cases h
    exact (op.apart_tftpRequest remote requestType filename options).kept.configured
  | deferred waitTime =>
    cases h
    exact .refl op
  | completed transfer status data =>
    cases transfer with
    | initialisation =>
      cases h
      exact op.configured_initialisationFileCompletedPart lib status data
    | status operation =>
      cases h
      exact op.configured_statusFileCompletedPart lib operation status data
    | list checkValue =>
      cases h
      exact op.configured_listFileCompletedPart lib checkValue status data
    | request =>
      cases h
      obtain ⟨hapart, -⟩ := op.apart_requestCompleted status
      obtain ⟨hkind, htarget, hdlp, hport⟩ := hapart.kept.configured
      exact ⟨hkind, htarget, hdlp, hport⟩
  | timerElapses result =>
    cases h
    exact .refl op
  | timerHandler result =>
    cases h
    cases result with
    | operationAborted | expired | error => exact .refl op

/-- Resembling operations do the same at corresponding events. -/
theorem Resembles.part {offset : Nat} {op op' : Operation} (h : Resembles offset op op')
    (lib : Library) (event : Event) :
    Option.Rel (MirrorsPart offset) (event.part lib op)
      ((event.rename (Transfer.shift offset)).part lib op') := by
  cases event with
  | start result => exact .some (.part (h.toAlike.start fun _ => h.initialisationOperation))
  | abort reason => exact .some (.part (h.doAbort reason))
  | terminate reason => exact .some (h.doTerminatePart reason)
  | send request =>
    have hsend : Option.Rel (Mirrors offset) (op.sendReaction lib request)
        (op'.sendReaction lib request) := h.send request
    dsimp only [Event.part, Event.rename]
    generalize op.sendReaction lib request = r at hsend ⊢
    generalize op'.sendReaction lib request = r' at hsend ⊢
    cases hsend with
    | none => exact .none
    | some hmirrors => exact .some (.part hmirrors)
  | tftpRequest remote requestType filename options =>
    exact .some (.part (h.tftpRequest remote requestType filename options))
  | deferred waitTime => exact .some (.part (.emit h rfl))
  | completed transfer status data =>
    cases transfer with
    | initialisation => exact .some (h.initialisationFileCompletedPart status data)
    | status operation => exact .some (h.statusFileCompletedPart operation status data)
    | list checkValue => exact .some (h.listFileCompletedPart checkValue status data)
    | request => exact .some (.part (h.requestCompleted status))
  | timerElapses result => exact .some (.still h)
  | timerHandler result => exact .some (h.timerHandlerPart result)

theorem Event.opening_rename (f : Transfer → Transfer) (offset : Nat) (event : Event) :
    (event.rename f).opening = event.opening.map (Observation.shift offset) := by
  cases event <;> rfl

theorem Event.nested_rename (f : Transfer → Transfer) (event : Event) :
    (event.rename f).nested = event.nested := by
  cases event <;> rfl

namespace World

variable {lib : Library} {offset : Nat} {w v : World} {s s' t t' : Suspended World Rest}
  {event : Event} {out : List Observation}

/-! ## A step in two parts -/

/-- An event happens if the surroundings let it, and runs a part. -/
theorem enter_eq_some {part : CallPart World Rest Observation}
    (h : (calls lib).enter w event = some part) :
    ∃ loop p, w.arrive event = some loop ∧ event.part lib w.operation = some p ∧
      part = { ({ w with loop := loop }.reactPart p) with
        out := event.opening ++ ({ w with loop := loop }.reactPart p).out } := by
  obtain ⟨loop, harrive, h⟩ := Option.bind_eq_some_iff.mp h
  obtain ⟨p, hpart, h⟩ := Option.map_eq_some_iff.mp h
  exact ⟨loop, p, harrive, hpart, h.symm⟩

theorem enter_of_parts {loop : EventLoop Transfer} {p : Part} (harrive : w.arrive event = some loop)
    (hpart : event.part lib w.operation = some p) :
    (calls lib).enter w event = some { ({ w with loop := loop }.reactPart p) with
      out := event.opening ++ ({ w with loop := loop }.reactPart p).out } := by
  simp only [calls, harrive, hpart, Option.bind_some, Option.map_some]

theorem foldl_server_shift (calls : List Output) (running : Bool) :
    (calls.map (Output.shift offset)).foldl Output.server running =
      calls.foldl Output.server running := by
  simp only [List.foldl_map, Output.server_shift]

/-- A server that runs goes on running where another one does. -/
theorem foldl_server_mono (calls : List Output) {running running' : Bool}
    (h : running = true → running' = true) (hruns : calls.foldl Output.server running = true) :
    calls.foldl Output.server running' = true := by
  induction calls generalizing running running' with
  | nil => exact h hruns
  | cons o calls ih =>
    refine ih ?_ hruns
    cases o with
    | serverStart => exact id
    | serverStop => exact id
    | _ => exact h

theorem commands_shift (calls : List Output) :
    (calls.map (Output.shift offset)).map Output.command =
      (calls.map Output.command).map (Command.map (Transfer.shift offset)) := by
  simp only [List.map_map, Function.comp_def, Output.command_shift]

theorem reactPart_shift (w v : World) {p p' : Part} (h : MirrorsPart offset p p') :
    (v.reactPart p').out = (w.reactPart p).out.map (Observation.shift offset) := by
  show p'.out.map Observation.call = (p.out.map Observation.call).map (Observation.shift offset)
  have hcalls : p'.out = p.out.map (Output.shift offset) := h.reaction.calls
  rw [hcalls, List.map_map, List.map_map]
  rfl

/-! ## All that a new operation does -/

/-- `t` resembles `s`, and its surroundings let happen whatever those of `s` do. -/
structure Ahead (offset : Nat) (s t : Suspended World Rest) : Prop where
  operation : Resembles offset s.state.operation t.state.operation
  server : s.state.serverRunning = true → t.state.serverRunning = true
  loop : EventLoop.Covers (Transfer.shift offset) (fun _ => True) s.state.loop t.state.loop
  rests : t.rests = s.rests
  fits : ∀ rest ∈ s.rests, rest.Fits s.state.operation.kind

theorem Ahead.react (w v : World) (rests : List Rest) {p p' : Part} (h : MirrorsPart offset p p')
    (hserver : w.serverRunning = true → v.serverRunning = true)
    (hloop : EventLoop.Covers (Transfer.shift offset) (fun _ => True) w.loop v.loop)
    (hfits : ∀ rest ∈ rests, rest.Fits p.state.kind) :
    Ahead offset ((w.reactPart p).suspend rests).1 ((v.reactPart p').suspend rests).1 where
  operation := h.reaction.resembles
  server hruns := by
    have hcalls : p'.out = p.out.map (Output.shift offset) := h.reaction.calls
    show p'.out.foldl Output.server v.serverRunning = true
    rw [hcalls, foldl_server_shift]
    exact foldl_server_mono p.out hserver hruns
  loop := by
    have hcalls : p'.out = p.out.map (Output.shift offset) := h.reaction.calls
    show EventLoop.Covers _ _ (w.loop.performAll (p.out.map Output.command))
      (v.loop.performAll (p'.out.map Output.command))
    rw [hcalls, commands_shift]
    exact hloop.performAll _
  rests := by
    show p'.rest.toList ++ rests = p.rest.toList ++ rests
    rw [h.rest]
  fits rest hrest := by
    rcases List.mem_append.mp hrest with hrest | hrest
    · exact h.fits rest (Option.mem_toList.mp hrest)
    · exact hfits rest hrest

theorem Ahead.arrive (h : Ahead offset s t) {loop : EventLoop Transfer}
    (harrive : s.state.arrive event = some loop) :
    ∃ loop', t.state.arrive (event.rename (Transfer.shift offset)) = some loop' ∧
      EventLoop.Covers (Transfer.shift offset) (fun _ => True) loop loop' := by
  cases event with
  | start | abort | terminate | send =>
    cases harrive
    exact ⟨_, rfl, h.loop⟩
  | tftpRequest =>
    obtain ⟨hrunning, heq⟩ := Option.ite_none_right_eq_some.mp harrive
    cases heq
    exact ⟨t.state.loop, if_pos (h.server hrunning), h.loop⟩
  | deferred =>
    obtain ⟨hpending, heq⟩ := Option.ite_none_right_eq_some.mp harrive
    cases heq
    exact ⟨t.state.loop, if_pos (h.loop.mem_pending hpending), h.loop⟩
  | completed transfer => exact h.loop.complete harrive
  | timerElapses result => exact h.loop.elapse harrive
  | timerHandler result => exact h.loop.take trivial harrive

theorem ahead_simulation (lib : Library) (offset : Nat) :
    Simulation (callSystem lib) (callSystem lib)
      (fun event => [renameCall (Transfer.shift offset) event]) (Observation.shift offset) id
      (Ahead offset) where
  step s t event s' out h hstep := by
    obtain ⟨part, rests, hruns, hsuspend⟩ := Calls.step_cases hstep
    cases hsuspend
    cases hruns with
    | event event part henter hfree =>
      obtain ⟨loop, p, harrive, hpart, rfl⟩ := enter_eq_some henter
      obtain ⟨loop', harrive', hloop⟩ := h.arrive harrive
      obtain ⟨p', hpart', hmirrors⟩ :=
        exists_of_rel_some (hpart ▸ h.operation.part lib event)
      have hfree' : t.rests = [] ∨ (event.rename (Transfer.shift offset)).nested = true := by
        rw [h.rests, event.nested_rename]
        exact hfree
      have hstep' := (Calls.Runs.event _ _ (enter_of_parts harrive' hpart') hfree').step_eq
      refine ⟨_, _, (callSystem lib).run_cons_of_step hstep' rfl, ?_, ?_⟩
      · rw [event.opening_rename (Transfer.shift offset) offset]
        simp [reactPart_shift { s.state with loop := loop } _ hmirrors]
      · rw [h.rests]
        refine Ahead.react { s.state with loop := loop } { t.state with loop := loop' } s.rests
          hmirrors h.server hloop fun rest hrest => ?_
        rw [(Event.configured_part hpart).kind]
        exact h.fits rest hrest
    | leave exit rest rests hrests =>
      have hrests' : t.rests = rest :: rests := h.rests.trans hrests
      have hfits : ∀ other ∈ rest :: rests, other.Fits s.state.operation.kind := hrests ▸ h.fits
      have hmirrors : MirrorsPart offset (s.state.operation.leave lib rest exit)
          (t.state.operation.leave lib rest exit) :=
        h.operation.leave (hfits rest (List.mem_cons_self ..)) exit
      have hstep' := (Calls.Runs.leave (c := calls lib) exit rest rests hrests').step_eq
      have hout : ((calls lib).leave t.state rest exit).out =
          ((calls lib).leave s.state rest exit).out.map (Observation.shift offset) :=
        reactPart_shift s.state t.state hmirrors
      refine ⟨_, _, (callSystem lib).run_cons_of_step hstep' rfl, by simpa using hout, ?_⟩
      refine Ahead.react s.state t.state rests hmirrors h.server h.loop fun other hother => ?_
      rw [(s.state.operation.configured_leave lib rest exit).kind]
      exact hfits other (List.mem_cons_of_mem _ hother)

/-! ## Nothing but what a new operation does -/

/-- `t` resembles `s`, and its surroundings let nothing happen but what those of `s` do, apart from
the handlers of waits that were aborted. -/
structure Level (offset : Nat) (t s : Suspended World Rest) : Prop where
  operation : Resembles offset s.state.operation t.state.operation
  server : t.state.serverRunning = true → s.state.serverRunning = true
  loop : EventLoop.Covers (Transfer.unshift offset) (· ≠ .operationAborted) t.state.loop
    s.state.loop
  /-- No transfer has a smaller number. -/
  own : ∀ transfer ∈ t.state.loop.pending, (transfer.unshift offset).shift offset = transfer
  rests : t.rests = s.rests
  fits : ∀ rest ∈ s.rests, rest.Fits s.state.operation.kind

theorem Level.react (v w : World) (rests : List Rest) {p p' : Part} (h : MirrorsPart offset p p')
    (hserver : v.serverRunning = true → w.serverRunning = true)
    (hloop : EventLoop.Covers (Transfer.unshift offset) (· ≠ .operationAborted) v.loop w.loop)
    (hown : ∀ transfer ∈ v.loop.pending, (transfer.unshift offset).shift offset = transfer)
    (hfits : ∀ rest ∈ rests, rest.Fits p.state.kind) :
    Level offset ((v.reactPart p').suspend rests).1 ((w.reactPart p).suspend rests).1 := by
  have hcalls : p'.out = p.out.map (Output.shift offset) := h.reaction.calls
  have hcommands : p'.out.map Output.command =
      (p.out.map Output.command).map (Command.map (Transfer.shift offset)) := by
    rw [hcalls, commands_shift]
  refine ⟨h.reaction.resembles, fun hruns => ?_, ?_, fun transfer hmem => ?_, ?_,
    fun rest hrest => ?_⟩
  · have hruns' : p'.out.foldl Output.server v.serverRunning = true := hruns
    rw [hcalls, foldl_server_shift] at hruns'
    exact foldl_server_mono p.out hserver hruns'
  · show EventLoop.Covers _ _ (v.loop.performAll (p'.out.map Output.command))
      (w.loop.performAll (p.out.map Output.command))
    -- the commands come back when the numbers are shifted there and back
    have hback : p.out.map Output.command =
        (p'.out.map Output.command).map (Command.map (Transfer.unshift offset)) := by
      rw [hcommands, List.map_map]
      refine (List.map_id _).symm.trans (List.map_congr_left fun command _ => ?_)
      cases command <;> simp [Command.map]
    rw [hback]
    exact hloop.performAll _
  · rcases (EventLoop.mem_pending_performAll v.loop _ transfer).mp hmem with hmem | hmem
    · exact hown transfer hmem
    · have hlaunched : Command.launch transfer ∈ p'.out.map Output.command := hmem
      rw [hcommands] at hlaunched
      obtain ⟨command, -, hlaunch⟩ := List.mem_map.mp hlaunched
      cases command with
      | launch launched =>
        cases hlaunch
        rw [Transfer.unshift_shift]
      | arm | cancel | none => cases hlaunch
  · show p'.rest.toList ++ rests = p.rest.toList ++ rests
    rw [h.rest]
  · rcases List.mem_append.mp hrest with hrest | hrest
    · exact h.fits rest (Option.mem_toList.mp hrest)
    · exact hfits rest hrest

/-- The events of the new operation at an event of the other one. -/
def answer (offset : Nat) (event : CallEvent Event Exit) : List (CallEvent Event Exit) :=
  if event = .event (.timerHandler .operationAborted) then []
  else [renameCall (Transfer.unshift offset) event]

theorem Level.arrive (h : Level offset t s) (hevent : event ≠ .timerHandler .operationAborted)
    {loop' : EventLoop Transfer} (harrive : t.state.arrive event = some loop') :
    (∃ loop, s.state.arrive (event.rename (Transfer.unshift offset)) = some loop ∧
      EventLoop.Covers (Transfer.unshift offset) (· ≠ .operationAborted) loop' loop) ∧
      (∀ transfer ∈ loop'.pending, (transfer.unshift offset).shift offset = transfer) ∧
      (event.rename (Transfer.unshift offset)).rename (Transfer.shift offset) = event := by
  cases event with
  | start | abort | terminate | send =>
    cases harrive
    exact ⟨⟨_, rfl, h.loop⟩, h.own, rfl⟩
  | tftpRequest =>
    obtain ⟨hrunning, heq⟩ := Option.ite_none_right_eq_some.mp harrive
    cases heq
    exact ⟨⟨s.state.loop, if_pos (h.server hrunning), h.loop⟩, h.own, rfl⟩
  | deferred =>
    obtain ⟨hpending, heq⟩ := Option.ite_none_right_eq_some.mp harrive
    cases heq
    exact ⟨⟨s.state.loop, if_pos (h.loop.mem_pending hpending), h.loop⟩, h.own, rfl⟩
  | completed transfer status data =>
    obtain ⟨hmem, hpending⟩ := EventLoop.complete_eq_some harrive
    refine ⟨h.loop.complete harrive, fun other hother => h.own other ?_, ?_⟩
    · rw [hpending] at hother
      exact List.mem_of_mem_erase hother
    · rw [Event.rename, Event.rename, h.own transfer hmem]
  | timerElapses result =>
    refine ⟨h.loop.elapse harrive, fun other hother => h.own other ?_, rfl⟩
    rwa [EventLoop.elapse_eq_some harrive] at hother
  | timerHandler result =>
    have hcounts : result ≠ .operationAborted := fun heq => hevent (heq ▸ rfl)
    refine ⟨h.loop.take hcounts harrive, fun other hother => h.own other ?_, rfl⟩
    rwa [EventLoop.take_eq_some harrive] at hother

theorem level_simulation (lib : Library) (offset : Nat) :
    Simulation (callSystem lib) (callSystem lib) (answer offset) id (Observation.shift offset)
      (Level offset) where
  step t s event t' out h hstep := by
    obtain ⟨part, rests, hruns, hsuspend⟩ := Calls.step_cases hstep
    cases hsuspend
    cases hruns with
    | event event part henter hfree =>
      obtain ⟨loop', p', harrive', hpart', rfl⟩ := enter_eq_some henter
      by_cases hevent : event = .timerHandler .operationAborted
      case pos =>
        subst hevent
        cases hpart'
        -- nothing is done, and the loop has one handler less
        refine ⟨s, [], rfl, rfl, h.operation, h.server, ?_, fun transfer hmem => ?_, h.rests,
          h.fits⟩
        · exact h.loop.take_uncounted (by simp) harrive'
        · exact h.own transfer (EventLoop.take_eq_some harrive' ▸ hmem)
      case neg =>
        obtain ⟨⟨loop, harrive, hloop⟩, hown, hback⟩ := h.arrive hevent harrive'
        have hrel := h.operation.part lib (event.rename (Transfer.unshift offset))
        rw [hback, hpart'] at hrel
        obtain ⟨p, hpart, hmirrors⟩ := exists_of_some_rel hrel
        have hfree' : s.rests = [] ∨ (event.rename (Transfer.unshift offset)).nested = true := by
          rw [← h.rests, event.nested_rename]
          exact hfree
        have hstep' := (Calls.Runs.event _ _ (enter_of_parts harrive hpart) hfree').step_eq
        have hanswer : answer offset (.event event) =
            [.event (event.rename (Transfer.unshift offset))] :=
          if_neg fun heq => hevent (CallEvent.event.inj heq)
        rw [hanswer]
        refine ⟨_, _, (callSystem lib).run_cons_of_step hstep' rfl, ?_, ?_⟩
        · have hopening := Event.opening_rename (Transfer.shift offset) offset
            (event.rename (Transfer.unshift offset))
          rw [hback] at hopening
          rw [hopening]
          simp [reactPart_shift { s.state with loop := loop } _ hmirrors]
        · rw [← h.rests]
          refine Level.react { t.state with loop := loop' } { s.state with loop := loop } t.rests
            hmirrors h.server hloop hown fun rest hrest => ?_
          rw [(Event.configured_part hpart).kind]
          exact h.fits rest (h.rests ▸ hrest)
    | leave exit rest rests hrests =>
      have hrests' : s.rests = rest :: rests := h.rests.symm.trans hrests
      have hfits : ∀ other ∈ rest :: rests, other.Fits s.state.operation.kind := hrests' ▸ h.fits
      have hmirrors : MirrorsPart offset (s.state.operation.leave lib rest exit)
          (t.state.operation.leave lib rest exit) :=
        h.operation.leave (hfits rest (List.mem_cons_self ..)) exit
      have hstep' := (Calls.Runs.leave (c := calls lib) exit rest rests hrests').step_eq
      have hout : ((calls lib).leave t.state rest exit).out =
          ((calls lib).leave s.state rest exit).out.map (Observation.shift offset) :=
        reactPart_shift s.state t.state hmirrors
      refine ⟨_, _, (callSystem lib).run_cons_of_step hstep' rfl, by simpa using hout.symm, ?_⟩
      refine Level.react t.state s.state rests hmirrors h.server h.loop h.own fun other hother => ?_
      rw [(s.state.operation.configured_leave lib rest exit).kind]
      exact hfits other (List.mem_cons_of_mem _ hother)

end World

end Arinc615a.Host
