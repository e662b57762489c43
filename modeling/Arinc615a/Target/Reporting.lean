import Arinc615a.Target.Sending

/-!
# When a target operation stops reporting

From the start to the call of `finished`, something has to bring the operation back to its status
file: the initialisation file that is being sent, the status timer, or a status file that is being
sent.  Only `finalise` cancels the timer, so nothing is lost on the way but what an event takes out
of the loop itself.
-/

open Reasoning

namespace Arinc615a.Target

open Files Information Tftp

/-- The initialisation file or a status file is being sent, or the status timer is armed. -/
def Reporting (loop : EventLoop Transfer) : Prop :=
  .initialisation ∈ loop.pending ∨ loop.Waiting ∨ ∃ sent, .status sent ∈ loop.pending

namespace Reporting

variable {loop loop' : EventLoop Transfer} {op : Operation} {out : List Output}

theorem command_ne_cancel (hcancel : .timerCancel ∉ out) :
    Command.cancel ∉ out.map Output.command := by
  intro hmem
  obtain ⟨o, ho, hcommand⟩ := List.mem_map.mp hmem
  cases o with
  | timerCancel => exact hcancel ho
  | _ => cases hcommand

/-- The commands of a callback that does not finish leave an operation reporting. -/
theorem performAll (h : Reporting loop) (hcancel : .timerCancel ∉ out) :
    Reporting (loop.performAll (out.map Output.command)) := by
  have hkept : ∀ transfer, transfer ∈ loop.pending →
      transfer ∈ (loop.performAll (out.map Output.command)).pending := fun transfer hmem =>
    (loop.mem_pending_performAll _ transfer).mpr (.inl hmem)
  rcases h with hinit | hwaiting | ⟨sent, hsent⟩
  · exact .inl (hkept _ hinit)
  · exact .inr (.inl (hwaiting.performAll (command_ne_cancel hcancel)))
  · exact .inr (.inr ⟨sent, hkept _ hsent⟩)

/-- So do those of a callback that is active. -/
theorem of_activity {o : Output} (ho : o ∈ out) (hactivity : o.mark = .activity)
    (hcancel : .timerCancel ∉ out) : Reporting (loop.performAll (out.map Output.command)) := by
  cases o with
  | timerStart seconds =>
    have harm : Command.arm ∈ out.map Output.command := List.mem_map.mpr ⟨_, ho, rfl⟩
    exact .inr (.inl (loop.waiting_of_arm harm (command_ne_cancel hcancel)))
  | protocolFile remote fileType filename data checkValue transfer =>
    cases transfer with
    | status sent =>
      have hlaunch : Command.launch (.status sent) ∈ out.map Output.command :=
        List.mem_map.mpr ⟨_, ho, rfl⟩
      exact .inr (.inr ⟨sent, (loop.mem_pending_performAll _ _).mpr (.inr hlaunch)⟩)
    | initialisation | list | request => cases hactivity
  | _ => cases hactivity

/-- A transfer that is neither the initialisation file nor a status file does not matter. -/
theorem complete {transfer : Transfer} (h : Reporting loop)
    (hloop : loop.complete transfer = some loop') (hinit : transfer ≠ .initialisation)
    (hstatus : ∀ sent, transfer ≠ .status sent) : Reporting loop' := by
  have hpending := (EventLoop.complete_eq_some hloop).2
  rcases h with hmem | hwaiting | ⟨sent, hmem⟩
  · refine .inl ?_
    rw [hpending]
    exact (List.mem_erase_of_ne hinit.symm).mpr hmem
  · exact .inr (.inl ((EventLoop.waiting_complete hloop).mpr hwaiting))
  · refine .inr (.inr ⟨sent, ?_⟩)
    rw [hpending]
    exact (List.mem_erase_of_ne (hstatus sent).symm).mpr hmem

end Reporting

/-- The event loop without the transfer or the timer handler that an event takes out of it. -/
def Event.taken (loop : EventLoop Transfer) : Event → EventLoop Transfer
  | .completed transfer _ _ => { loop with pending := loop.pending.erase transfer }
  | .timerHandler result => { loop with queue := loop.queue.erase result }
  | _ => loop

/-- An event that the operation answers neither with the timer nor with a status file: a start
whose initialisation file cannot be sent, a status file that the host answers with an abort, and a
status that cannot be encoded when the timer expires. -/
def Silences (lib : Library) (w : World) : Event → Prop
  | .start _ _ result => result = .throws
  | .completed (.status _) transferStatus _ =>
    transferStatus = .operationAbortedByDlp ∨ transferStatus = .operationAbortedByOperator
  | .timerHandler result => result ≠ .operationAborted ∧ StatusThrows lib w.operation
  | _ => False

/-- Where an event silences the operation, something else keeps it reporting. -/
def StillReporting (lib : Library) (w : World) (event : Event) : Prop :=
  Silences lib w event → Reporting (event.taken w.loop)

def Event.Starts : Event → Prop
  | .start .. => True
  | _ => False

namespace World

variable {lib : Library} {w w' v : World} {out : List Observation} {callback : Operation → Reaction}
  {e : Mark.Effect} {closed : Bool}

theorem reporting_react (hreporting : Reporting v.loop) (hreact : v.react callback = (w', out))
    (h : Behaves e (callback v.operation)) (hcancels : CancelsFinished (callback v.operation).2)
    (hopen : Mark.closedAfter Observation.mark closed out = false) : Reporting w'.loop := by
  cases hreact
  exact hreporting.performAll (hcancels.notMem Observation.call (fun _ => rfl) h.noStart hopen).2

/-- After a callback that is not calm, the operation reports or has finished. -/
theorem reporting_react_busy (hreact : v.react callback = (w', out))
    (h : Behaves e (callback v.operation)) (he : e ≠ .calm)
    (hcancels : CancelsFinished (callback v.operation).2)
    (hopen : Mark.closedAfter Observation.mark closed out = false) : Reporting w'.loop := by
  cases hreact
  obtain ⟨hfinish, hcancel⟩ := hcancels.notMem Observation.call (fun _ => rfl) h.noStart hopen
  obtain ⟨o, ho, hfinished | hactivity⟩ := h.exists_output he
  · exact absurd hfinished (hfinish o ho)
  · exact .of_activity ho hactivity hcancel

/-- A start reports exactly when its initialisation file is sent, or something was left over that
reports. -/
theorem reporting_start (w : World) (hostAddress : Endpoint) (port : Option UInt16)
    (result : Operation.StartResult) :
    Reporting (w.react fun op => op.start lib hostAddress port result).1.loop ↔
      (result = .throws → Reporting w.loop) := by
  have hencode : ∀ version, ∃ file, InitializationFile.encode lib.raw
      { protocolVersion := version, response := { code := .operationAccepted } } = .ok file := by
    intro version
    unfold InitializationFile.encode
    rw [stringEncode_short lib.raw (Nat.zero_le _)]
    exact ⟨_, rfl⟩
  -- the answer is always accepted, without a description, and can be encoded
  simp only [World.react, Operation.start, Operation.sendInitFile]
  obtain ⟨file, hfile⟩ := hencode w.operation.protocolVersion
  cases port <;> dsimp only <;> rw [hfile] <;> cases result with
  | started => exact iff_of_true (.inl (List.mem_cons_self ..)) fun h => absurd h (by decide)
  | throws => exact ⟨fun h _ => h, fun h => h rfl⟩

/-- The completions leave the operation reporting, but for a status file that is answered with an
abort. -/
theorem reporting_completed {transfer : Transfer} {status : TransferStatus} {data : Bytes}
    {loop : EventLoop Transfer} (hreporting : Reporting w.loop)
    (hloop : w.loop.complete transfer = some loop)
    (hreact : { w with loop := loop }.react (complete lib transfer status data) = (w', out)) :
    (Mark.closedAfter Observation.mark false out = false → Reporting w'.loop) ↔
      StillReporting lib w (.completed transfer status data) := by
  cases transfer with
  | initialisation =>
    obtain ⟨e, hbehaves, he⟩ := w.operation.behaves_sendInitFileComplete status
    exact iff_of_true (reporting_react_busy hreact hbehaves he
      (w.operation.sends_sendInitFileComplete status).cancels) fun h => nomatch h
  | status sent =>
    obtain ⟨e, hbehaves, he⟩ := Operation.behaves_statusFileCompleted lib w.operation sent status
    by_cases haborted : status = .operationAbortedByDlp ∨ status = .operationAbortedByOperator
    · -- the handler is told of the abort, and nothing is asked of the loop
      have htaken : loop = (Event.completed (.status sent) status data).taken w.loop := by
        unfold EventLoop.complete at hloop
        split at hloop
        · cases hloop
          rfl
        · cases hloop
      have hstill : w'.loop = loop ∧ Mark.closedAfter Observation.mark false out = false := by
        rcases haborted with rfl | rfl
        · cases hreact
          exact ⟨rfl, rfl⟩
        · cases hreact
          exact ⟨rfl, rfl⟩
      rw [hstill.1, htaken]
      exact ⟨fun h _ => h hstill.2, fun h _ => h haborted⟩
    · exact iff_of_true (reporting_react_busy hreact hbehaves
        (fun hcalm => haborted (he.mp hcalm))
        (w.operation.sends_statusFileCompleted lib sent status).cancels)
        fun h => absurd h haborted
  | list =>
    obtain ⟨e, hbehaves, -⟩ := Operation.behaves_listCompleted lib w.operation status
    have hrest := hreporting.complete hloop (by simp) (by simp)
    exact iff_of_true (reporting_react hrest hreact hbehaves
      (w.operation.sends_listCompleted lib status).cancels) fun h => nomatch h
  | request =>
    obtain ⟨e, hbehaves, -⟩ := Operation.behaves_requestCompleted lib w.operation status data
    have hrest := hreporting.complete hloop (by simp) (by simp)
    exact iff_of_true (reporting_react hrest hreact hbehaves
      (w.operation.sends_requestCompleted lib status data).cancels) fun h => nomatch h

/-- The timer handler sends the status and arms the timer again, unless the status cannot be
encoded. -/
theorem reporting_timerHandler {result : WaitResult} {loop : EventLoop Transfer}
    (hreporting : Reporting w.loop) (hloop : w.loop.take result = some loop)
    (hreact : ({ w with loop := loop }.react fun op =>
      op.statusTransmissionTimerHandler lib result) = (w', out)) :
    (Mark.closedAfter Observation.mark false out = false → Reporting w'.loop) ↔
      StillReporting lib w (.timerHandler result) := by
  have htaken : loop = (Event.timerHandler result).taken w.loop := by
    unfold EventLoop.take at hloop
    split at hloop
    · cases hloop
      rfl
    · cases hloop
  obtain ⟨e, hbehaves, he⟩ := w.operation.behaves_statusTransmissionTimerHandler lib result
  by_cases haborted : result = .operationAborted
  · subst haborted
    have hkept : Reporting loop := by
      rcases hreporting with hmem | hwaiting | ⟨sent, hmem⟩
      · exact .inl (EventLoop.take_eq_some hloop ▸ hmem)
      · exact .inr (.inl ((EventLoop.waiting_take_aborted hloop).mpr hwaiting))
      · exact .inr (.inr ⟨sent, EventLoop.take_eq_some hloop ▸ hmem⟩)
    exact iff_of_true (reporting_react hkept hreact hbehaves
      (w.operation.sends_statusTransmissionTimerHandler lib _).cancels) fun h => absurd rfl h.1
  · by_cases hthrows : StatusThrows lib w.operation
    · have hstill : w'.loop = loop ∧ Mark.closedAfter Observation.mark false out = false := by
        obtain ⟨exception, hencode⟩ := hthrows
        have hreaction : w.operation.statusTransmissionTimerHandler lib result =
            w.operation.forceAccepted.emit (.thrown exception) := by
          rw [← Operation.protocolVersion_forceAccepted] at hencode
          cases result with
          | operationAborted => exact absurd rfl haborted
          | expired | error =>
            simp only [Operation.statusTransmissionTimerHandler, Operation.statusFile, hencode]
        simp only [react, hreaction] at hreact
        cases hreact
        exact ⟨rfl, rfl⟩
      rw [hstill.1, htaken]
      exact ⟨fun h _ => h hstill.2, fun h _ => h ⟨haborted, hthrows⟩⟩
    · refine iff_of_true (reporting_react_busy hreact hbehaves (fun hcalm => ?_)
        (w.operation.sends_statusTransmissionTimerHandler lib result).cancels)
        fun h => absurd h.2 hthrows
      exact (he.mp hcalm).elim haborted hthrows

/-- An event other than a start, in an operation that reports. -/
theorem reporting_step {event : Event} (hreporting : Reporting w.loop) (hstarts : ¬event.Starts)
    (hstep : w.step lib event = some (w', out)) :
    (Mark.closedAfter Observation.mark false out = false → Reporting w'.loop) ↔
      StillReporting lib w event := by
  rcases step_cases hstep with ⟨_, _, _, rfl⟩ | ⟨v, r, hruns, hreact⟩
  · exact absurd trivial hstarts
  cases hruns with
  | call call reaction hcall =>
    obtain ⟨e, hbehaves, -⟩ := w.operation.behaves_call lib hcall
    exact iff_of_true (reporting_react hreporting hreact hbehaves
      (w.operation.sends_call lib hcall).cancels) fun h => nomatch h
  | tftpRequest remote requestType filename =>
    exact iff_of_true (reporting_react hreporting hreact
      (w.operation.behaves_tftpRequest remote requestType filename)
      (w.operation.sends_tftpRequest remote requestType filename).cancels) fun h => nomatch h
  | completed transfer status data loop hloop => exact reporting_completed hreporting hloop hreact
  | timerElapses result loop hloop =>
    cases hreact
    exact iff_of_true (fun _ => .inr (.inl (EventLoop.waiting_elapse hloop))) fun h => nomatch h
  | timerHandler result loop hloop => exact reporting_timerHandler hreporting hloop hreact

/-- A start opens a run, whatever was there before. -/
theorem reporting_step_start {hostAddress : Endpoint} {port : Option UInt16}
    {result : Operation.StartResult}
    (hstep : w.step lib (.start hostAddress port result) = some (w', out)) :
    (Mark.closedAfter Observation.mark closed out = false → Reporting w'.loop) ↔
      StillReporting lib w (.start hostAddress port result) := by
  have heffect : Mark.HasEffect Observation.mark .calm
      (w.react fun op => op.start lib hostAddress port result).2 :=
    (w.operation.behaves_start lib hostAddress port result).map Observation.call fun _ => rfl
  obtain ⟨rfl, rfl⟩ := Prod.mk.inj (Option.some.inj hstep)
  have hopen : Mark.closedAfter Observation.mark closed (.started ::
      (w.react fun op => op.start lib hostAddress port result).2) = false := by
    have hafter := heffect.closes
    simpa [Observation.mark, Mark.next] using hafter
  refine Iff.trans ⟨fun h => h hopen, fun h _ => h⟩ ?_
  exact reporting_start w hostAddress port result

end World

theorem sustainsReporting (lib : Library) :
    (system lib).Sustains Observation.mark (fun w => Reporting w.loop) Event.Starts
      (StillReporting lib) where
  still w event w' out hstep hstarts := by
    have hstart : ∀ hostAddress port result, event ≠ .start hostAddress port result := by
      rintro hostAddress port result rfl
      exact hstarts trivial
    obtain ⟨e, heffect, -⟩ := World.step_effect hstart hstep
    exact heffect.closedAfter_true
  step w closed event w' out hreporting hstep hlooked := by
    by_cases hstarts : event.Starts
    · cases event with
      | start hostAddress port result => exact World.reporting_step_start hstep
      | _ => exact absurd hstarts id
    · obtain rfl : closed = false := hlooked.resolve_right hstarts
      exact World.reporting_step (hreporting rfl) hstarts hstep

end Arinc615a.Target
