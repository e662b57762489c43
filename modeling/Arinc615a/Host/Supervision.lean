import Arinc615a.Host.Finish

/-!
# When a host operation hangs

From the start to the call of `finished`, either the initialisation file is under way or the timer
for the data loader is armed.  The timer is cancelled by `finished` only, so the one way to lose it
is never to arm it: `initialise` catches what the TFTP library throws and returns.
-/

open Reasoning

namespace Arinc615a.Host

open Files Information Tftp

/-- The initialisation file is under way, or the timer is armed. -/
def Supervised (loop : EventLoop Transfer) : Prop :=
  .initialisation ∈ loop.pending ∨ loop.Waiting

namespace Operation

variable (lib : Library) {op : Operation}

theorem cancelsFinished_send {request : Request} {r : Reaction}
    (h : op.send lib request = some (.ok r)) : CancelsFinished r.2 := by
  rcases op.send_cases lib h with ⟨-, rfl⟩ | ⟨-, fileType, filename, file, rfl⟩
  · exact .nil
  · exact .append (.single (by simp)) (.single (by simp))

/-- The completion of the initialisation file arms the timer or finishes. -/
theorem initialisationFileCompleted_arms (op : Operation) (status : TransferStatus)
    (data : Bytes) :
    (∃ seconds, .timerStart seconds ∈ (op.initialisationFileCompleted lib status data).2) ∨
      ∃ o ∈ (op.initialisationFileCompleted lib status data).2, o.mark = .finish := by
  refine initialisationFileCompleted_elim (P := fun r => (∃ seconds, .timerStart seconds ∈ r.2) ∨
    ∃ o ∈ r.2, o.mark = .finish) (.inr ⟨_, List.mem_cons_self .., rfl⟩) fun initFile => ?_
  simp only [emit, Reaction.andThen_mk, initialisationAnswered]
  cases initFile.response.code with
  | operationAccepted => exact .inl ⟨_, List.mem_cons_of_mem _ (List.mem_cons_self ..)⟩
  | operationDenied | operationNotSupported | operationDeferred =>
    exact .inr ⟨_, List.mem_cons_of_mem _ (List.mem_cons_self ..), rfl⟩

end Operation

/-! ## Steps -/

theorem Output.mark_ne_start (o : Output) : o.mark ≠ .start := by
  cases o <;> simp [Output.mark]

namespace Supervised

variable {loop loop' : EventLoop Transfer} {out : List Output}

theorem command_ne_cancel (hcancel : .timerCancel ∉ out) :
    Command.cancel ∉ out.map Output.command := by
  intro hmem
  obtain ⟨o, ho, hcommand⟩ := List.mem_map.mp hmem
  cases o with
  | timerCancel => exact hcancel ho
  | _ => cases hcommand

theorem performAll (h : Supervised loop) (hcancel : .timerCancel ∉ out) :
    Supervised (loop.performAll (out.map Output.command)) := by
  rcases h with hinit | hwaiting
  · exact .inl ((loop.mem_pending_performAll _ _).mpr (.inl hinit))
  · exact .inr (hwaiting.performAll (command_ne_cancel hcancel))

/-- A transfer other than the initialisation file does not matter. -/
theorem complete {transfer : Transfer} (h : Supervised loop)
    (hloop : loop.complete transfer = some loop') (hinit : transfer ≠ .initialisation) :
    Supervised loop' := by
  rcases h with hmem | hwaiting
  · refine .inl ?_
    rw [(EventLoop.complete_eq_some hloop).2]
    exact (List.mem_erase_of_ne hinit.symm).mpr hmem
  · exact .inr ((EventLoop.waiting_complete hloop).mpr hwaiting)

end Supervised

def Event.Starts : Event → Prop
  | .start _ => True
  | _ => False

/-- A start that is left by an exception of the TFTP library finds the operation supervised. -/
def StillSupervised (w : World) : Event → Prop
  | .start result => result ≠ .started → Supervised w.loop
  | _ => True

namespace World

variable {lib : Library} {w w' v : World} {out : List Observation} {closed : Bool}
  {callback : Operation → Reaction}

/-- A callback that leaves things open neither finishes nor cancels the timer. -/
theorem noCancel_react (hreact : v.react callback = (w', out))
    (hcancels : CancelsFinished (callback v.operation).2)
    (hopen : Mark.closedAfter Observation.mark closed out = false) :
    (∀ o ∈ (callback v.operation).2, o.mark ≠ .finish) ∧
      .timerCancel ∉ (callback v.operation).2 := by
  cases hreact
  exact hcancels.notMem Observation.call (fun _ => rfl) (fun o _ => o.mark_ne_start) hopen

theorem supervised_react (hsupervised : Supervised v.loop) (hreact : v.react callback = (w', out))
    (hcancels : CancelsFinished (callback v.operation).2)
    (hopen : Mark.closedAfter Observation.mark closed out = false) : Supervised w'.loop := by
  have hcancel := (noCancel_react hreact hcancels hopen).2
  cases hreact
  exact hsupervised.performAll hcancel

/-- The completion of the initialisation file arms the timer in its place. -/
theorem supervised_initialisation {status : TransferStatus} {data : Bytes}
    (hreact : (v.react fun op => op.initialisationFileCompleted lib status data) = (w', out))
    (hopen : Mark.closedAfter Observation.mark closed out = false) : Supervised w'.loop := by
  obtain ⟨hfinish, hcancel⟩ := noCancel_react hreact
    (v.operation.apart_initialisationFileCompleted lib status data).cancels hopen
  rcases Operation.initialisationFileCompleted_arms lib v.operation status data with
    ⟨seconds, harm⟩ | ⟨o, ho, hfinished⟩
  · cases hreact
    have hcommand := List.mem_map_of_mem (f := Output.command) harm
    exact .inr (v.loop.waiting_of_arm hcommand (Supervised.command_ne_cancel hcancel))
  · exact absurd hfinished (hfinish o ho)

theorem supervised_completed {transfer : Transfer} {status : TransferStatus} {data : Bytes}
    {loop : EventLoop Transfer} (hsupervised : Supervised w.loop)
    (hloop : w.loop.complete transfer = some loop)
    (hreact : { w with loop := loop }.react (complete lib transfer status data) = (w', out))
    (hopen : Mark.closedAfter Observation.mark closed out = false) : Supervised w'.loop := by
  cases transfer with
  | initialisation => exact supervised_initialisation hreact hopen
  | status operation =>
    exact supervised_react (hsupervised.complete hloop (by simp)) hreact
      (w.operation.apart_statusFileCompleted lib operation status data).cancels hopen
  | list checkValue =>
    exact supervised_react (hsupervised.complete hloop (by simp)) hreact
      (w.operation.apart_listFileCompleted lib checkValue status data).cancels hopen
  | request =>
    exact supervised_react (hsupervised.complete hloop (by simp)) hreact
      (w.operation.apart_requestCompleted status).1.cancels hopen

theorem supervised_timerHandler {result : WaitResult} {loop : EventLoop Transfer}
    (hsupervised : Supervised w.loop) (hloop : w.loop.take result = some loop)
    (hreact : ({ w with loop := loop }.react fun op => op.timerHandler result) = (w', out))
    (hopen : Mark.closedAfter Observation.mark closed out = false) : Supervised w'.loop := by
  have hcancels := (w.operation.apart_timerHandler result).cancels
  by_cases haborted : result = .operationAborted
  · subst haborted
    have hkept : Supervised loop := by
      rcases hsupervised with hmem | hwaiting
      · exact .inl (EventLoop.take_eq_some hloop ▸ hmem)
      · exact .inr ((EventLoop.waiting_take_aborted hloop).mpr hwaiting)
    exact supervised_react hkept hreact hcancels hopen
  · -- the timer has expired, and the operation is finished
    have hfinish := (noCancel_react hreact hcancels hopen).1
    cases result with
    | operationAborted => exact absurd rfl haborted
    | expired | error => exact absurd rfl (hfinish (.finished _ _) (List.mem_cons_self ..))

/-- An event other than a start leaves a supervised operation supervised, or finishes it. -/
theorem supervised_step {event : Event} (hsupervised : Supervised w.loop)
    (hstarts : ¬event.Starts) (hstep : w.step lib event = some (w', out))
    (hopen : Mark.closedAfter Observation.mark closed out = false) : Supervised w'.loop := by
  rcases step_cases hstep with ⟨result, rfl⟩ | ⟨v, r, hruns, hreact⟩
  · exact absurd trivial hstarts
  cases hruns with
  | abort reason =>
    exact supervised_react hsupervised hreact (w.operation.apart_doAbort reason).cancels hopen
  | terminate reason =>
    exact supervised_react hsupervised hreact (w.operation.apart_doTerminate reason).cancels hopen
  | send request reaction hsend =>
    exact supervised_react hsupervised hreact (Operation.cancelsFinished_send lib hsend) hopen
  | throws =>
    cases hreact
    exact hsupervised
  | tftpRequest remote requestType filename options =>
    exact supervised_react hsupervised hreact
      (w.operation.apart_tftpRequest remote requestType filename options).cancels hopen
  | deferred waitTime => exact supervised_react hsupervised hreact (.single (by simp)) hopen
  | completed transfer status data loop hloop =>
    exact supervised_completed hsupervised hloop hreact hopen
  | timerElapses result loop hloop =>
    cases hreact
    exact .inr (EventLoop.waiting_elapse hloop)
  | timerHandler result loop hloop =>
    exact supervised_timerHandler hsupervised hloop hreact hopen

/-- After a start the initialisation file is under way, unless the start was left by an exception:
then nothing has changed. -/
theorem supervised_start (w : World) (result : Operation.StartResult) :
    Supervised (w.react fun op => op.start result).1.loop ↔
      (result ≠ .started → Supervised w.loop) := by
  simp only [react, Operation.start]
  cases w.operation.kind <;> cases result with
  | started => exact iff_of_true (.inl (List.mem_cons_self ..)) fun h => absurd rfl h
  | serverStartThrows | requestThrows => exact ⟨fun h _ => h, fun h => h (by decide)⟩

theorem supervised_step_start (lib : Library) {result : Operation.StartResult}
    (hstep : w.step lib (.start result) = some (w', out)) :
    (Mark.closedAfter Observation.mark closed out = false → Supervised w'.loop) ↔
      StillSupervised w (.start result) := by
  have heffect : Mark.HasEffect Observation.mark .calm
      (w.react fun op => op.start result).2 :=
    (w.operation.behaves_start result).effect.map Observation.call fun _ => rfl
  have hopen : Mark.closedAfter Observation.mark closed (.started ::
      (w.react fun op => op.start result).2) = false := by
    have hafter := heffect.closes
    simpa [Observation.mark, Mark.next] using hafter
  have hstart : (Mark.closedAfter Observation.mark closed (.started ::
      (w.react fun op => op.start result).2) = false →
        Supervised (w.react fun op => op.start result).1.loop) ↔
      StillSupervised w (.start result) :=
    Iff.trans ⟨fun h => h hopen, fun h _ => h⟩ (supervised_start w result)
  have hstep' : ((w.react fun op => op.start result).1,
      .started :: (w.react fun op => op.start result).2) = (w', out) := Option.some.inj hstep
  rw [Prod.mk.injEq] at hstep'
  rw [← hstep'.1, ← hstep'.2]
  exact hstart

/-- Nothing but a start opens an operation. -/
theorem closedAfter_step {event : Event} (hstarts : ¬event.Starts)
    (hstep : w.step lib event = some (w', out)) :
    Mark.closedAfter Observation.mark true out = true := by
  rcases step_cases hstep with ⟨result, rfl⟩ | ⟨v, r, -, hreact⟩
  · exact absurd trivial hstarts
  cases hreact
  refine Mark.closedAfter_true _ fun o ho => ?_
  obtain ⟨o, -, rfl⟩ := List.mem_map.mp ho
  exact o.mark_ne_start

end World

theorem sustainsSupervision (lib : Library) :
    (system lib).Sustains Observation.mark (fun w => Supervised w.loop) Event.Starts
      StillSupervised where
  still _ _ _ _ hstep hstarts := World.closedAfter_step hstarts hstep
  step w closed event w' out hsupervised hstep hlooked := by
    by_cases hstarts : event.Starts
    · cases event with
      | start result => exact World.supervised_step_start lib hstep
      | _ => exact absurd hstarts id
    · obtain rfl : closed = false := hlooked.resolve_right hstarts
      have hstill : StillSupervised w event := by
        cases event with
        | start result => exact absurd trivial hstarts
        | _ => trivial
      exact iff_of_true (World.supervised_step (hsupervised rfl) hstarts hstep) hstill

end Arinc615a.Host
