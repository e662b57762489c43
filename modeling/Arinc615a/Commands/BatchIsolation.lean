import Arinc615a.Commands.BatchRuns
import Arinc615a.Commands.LateEvents

/-!
# What an earlier target does to a later one

All operations of a batch stay connected to the signals, and each was given a handler that is gone
when the next one is started.  Only the operation in course may be reached by a signal, and only
what it calls may take the batch on.
-/

open Reasoning

namespace Arinc615a.Commands

open Files Information Tftp Host

/-! ## What may be seen -/

/-- The operation in course: the last one that was started, if it has not finished. -/
def InCourse (past : List Observation) (number : Nat) : Prop :=
  (∃ target, .started number target ∈ past) ∧
    (∀ n target, .started n target ∈ past → n ≤ number) ∧ ¬Finished past number

/-- The batch is still to be executed. -/
def Untouched (past : List Observation) : Prop :=
  (∀ number target, .started number target ∉ past) ∧ .done ∉ past

/-- The operation in course has just called `finished`. -/
def JustFinished (past : List Observation) : Prop :=
  ∃ pre number code description,
    past = pre ++ [.call number (.finished code description)] ∧ InCourse pre number

/-- What is seen belongs to the operation in course. -/
def Isolated (past : List Observation) : Observation → Prop
  | .abort number | .terminate number => InCourse past number
  | .started .. | .done => Untouched past ∨ JustFinished past
  | .loadList number _ => ∃ pre status,
    past = pre ++ [.call number (.uploadStatus status)] ∧ status.code = .operationAccepted
  | .errorOperation number .. | .fileTransfer number .. =>
    ∃ pre remote filename partNumber checksum,
      past = pre ++ [.call number (.fileRequest remote filename partNumber checksum)]
  | .handlerDestroyed _ | .protocolAbort _ => False
  | .call .. | .noOperation => True

abbrev isolation : Law (List Observation) Observation := Law.history Isolated

section Calls

variable {past out out' : List Observation}

theorem obeyed_calls (number : Nat) (calls : List Output) :
    isolation.Obeyed past (calls.map (.call number)) := by
  induction calls generalizing past with
  | nil => trivial
  | cons o calls ih => exact ⟨trivial, ih⟩

theorem obeyed_append_iff :
    isolation.Obeyed past (out ++ out') ↔
      isolation.Obeyed past out ∧ isolation.Obeyed (past ++ out) out' := by
  rw [Law.obeyed_append, Law.after_history]

theorem obeyed_andThen {r : Reaction} {f : BatchUpload → Reaction}
    (hfirst : isolation.Obeyed past r.out)
    (hrest : r.thrown = false → isolation.Obeyed (past ++ r.out) (f r.command).out) :
    isolation.Obeyed past (r.andThen f).out := by
  cases hthrown : r.thrown with
  | true =>
    rw [Reaction.andThen_of_thrown hthrown]
    exact hfirst
  | false =>
    rw [Reaction.andThen_of_not_thrown hthrown]
    exact obeyed_append_iff.mpr ⟨hfirst, hrest hthrown⟩

theorem obeyed_of_andThen {r : Reaction} {f : BatchUpload → Reaction}
    (h : isolation.Obeyed past (r.andThen f).out) : isolation.Obeyed past r.out := by
  cases hthrown : r.thrown with
  | true => rwa [Reaction.andThen_of_thrown hthrown] at h
  | false =>
    rw [Reaction.andThen_of_not_thrown hthrown] at h
    exact (obeyed_append_iff.mp h).1

end Calls

variable {lib : Library} {media : MediaSet} {batch : BatchInformation} {command : BatchUpload}
  {past : List Observation} {number : Nat}

theorem Fits.inCourse_iff (h : Fits batch command past) :
    InCourse past number ↔ command.operation = some number := by
  rw [h.active]
  constructor
  · rintro ⟨hstarted, hlast, hunfinished⟩
    have hlt := (h.exists_started_iff number).mp hstarted
    refine ⟨?_, hunfinished⟩
    by_contra hne
    -- another one has been started behind it
    obtain ⟨target, hnext⟩ := (h.exists_started_iff (number + 1)).mpr (by omega)
    have := hlast _ _ hnext
    omega
  · rintro ⟨hlast, hunfinished⟩
    refine ⟨(h.exists_started_iff number).mpr (by omega), fun n target hmem => ?_, hunfinished⟩
    have := (h.exists_started_iff n).mp ⟨target, hmem⟩
    omega

namespace BatchUpload

theorem obeyed_nextBatchTarget (hstart : Untouched past ∨ JustFinished past)
    (next : Operation.StartResult) :
    isolation.Obeyed past (command.nextBatchTarget next).out := by
  unfold nextBatchTarget
  split
  · exact ⟨hstart, trivial⟩
  · exact ⟨hstart, obeyed_calls _ _⟩

theorem obeyed_finished (hfinished : JustFinished past) (code : StatusCode)
    (next : Operation.StartResult) : isolation.Obeyed past (command.finished code next).out := by
  unfold BatchUpload.finished
  dsimp only
  split
  · exact ⟨.inr hfinished, trivial⟩
  · exact obeyed_nextBatchTarget (.inr hfinished) next

theorem obeyed_status (hactive : command.operation = some number) (status : UploadStatus) :
    isolation.Obeyed (past ++ [.call number (.uploadStatus status)])
      (command.status lib status).out := by
  unfold BatchUpload.status
  rw [hactive]
  dsimp only
  split
  next haccepted =>
    have hload (loads : List UploadLoad) : Isolated
        (past ++ [.call number (.uploadStatus status)]) (.loadList number loads) :=
      ⟨past, status, rfl, haccepted.1⟩
    split
    · trivial
    · split
      · exact ⟨hload command.loads, trivial⟩
      · exact ⟨hload command.loads, obeyed_calls _ _⟩
  next => trivial

theorem obeyed_fileRequest (hactive : command.operation = some number) (remote : Endpoint)
    (filename loadPartNumber : Text) (checkValue : CheckValue) :
    isolation.Obeyed
      (past ++ [.call number (.fileRequest remote filename loadPartNumber checkValue)])
      (command.fileRequest media remote filename loadPartNumber checkValue).out := by
  unfold BatchUpload.fileRequest
  rw [hactive]
  dsimp only
  split
  · exact ⟨⟨_, _, _, _, _, rfl⟩, trivial⟩
  · split
    · exact ⟨⟨_, _, _, _, _, rfl⟩, trivial⟩
    · exact ⟨⟨_, _, _, _, _, rfl⟩, trivial⟩

section Deliver

variable {next : Operation.StartResult} {out : List Output} {o : Output}

/-- The operation in course may make any call. -/
theorem obeyed_deliver_active (h : Fits batch command past)
    (hactive : command.operation = some number) :
    isolation.Obeyed past (command.deliver lib media number next o).out := by
  obtain ⟨hlast, -⟩ := (h.active number).mp hactive
  have hperform := SameCourse.perform command number o
  unfold BatchUpload.deliver
  dsimp only
  rw [if_neg fun hother => hother.2 (hlast.trans hperform.count.symm)]
  refine ⟨trivial, ?_⟩
  have hactive' : (command.perform number o).operation = some number := hactive
  unfold BatchUpload.handler
  split
  · exact obeyed_finished ⟨past, number, _, _, rfl, h.inCourse_iff.mpr hactive⟩ _ next
  · exact obeyed_status hactive' _
  · exact obeyed_fileRequest hactive' _ _ _ _
  · trivial

/-- The calls that take a batch on from an operation that has finished: another `finished` of the
last one, and all calls of the handler of an earlier one, which is gone. -/
def Reaches (last : Prop) (o : Output) : Prop :=
  o.mark = .finish ∨ ¬last ∧ forHandler o = true

theorem not_obeyed_deliver_idle (h : Fits batch command past)
    (hnumber : number < command.operations.length) (hfinished : Finished past number)
    (ho : Reaches (number + 1 = command.operations.length) o) :
    ¬isolation.Obeyed past (command.deliver lib media number next o).out := by
  have hperform := SameCourse.perform command number o
  unfold BatchUpload.deliver
  dsimp only
  split
  next => exact fun hobeyed => hobeyed.2.1
  next hhandler =>
    -- the handler is there, so this is another end of the last operation
    have hmark : o.mark = .finish := ho.resolve_right fun hreaches =>
      hhandler ⟨hreaches.2, hperform.count ▸ hreaches.1⟩
    cases o with
    | finished code description =>
      obtain ⟨x, rest, hout, hx⟩ :=
        finished_out (command.perform number (.finished code description)) code next
      have hnot : ¬(Untouched (past ++ [.call number (.finished code description)]) ∨
          JustFinished (past ++ [.call number (.finished code description)])) := by
        rintro (huntouched | ⟨pre, n, code', description', heq, -, -, hunfinished⟩)
        · obtain ⟨target, hstarted⟩ := (h.exists_started_iff number).mpr hnumber
          exact huntouched.1 number target (List.mem_append_left _ hstarted)
        · obtain ⟨rfl, hcall⟩ := List.append_inj' heq rfl
          cases hcall
          exact hunfinished hfinished
      rintro ⟨-, hobeyed⟩
      have hrest : isolation.Obeyed (past ++ [.call number (.finished code description)])
        (x :: rest) := hout ▸ hobeyed
      rcases hx with rfl | ⟨n, target, rfl⟩
      · exact hnot hrest.1
      · exact hnot hrest.1
    | _ => cases hmark

theorem obeyed_deliver_idle (h : Fits batch command past) (hidle : command.operation ≠ some number)
    (ho : ¬Reaches (number + 1 = command.operations.length) o) :
    isolation.Obeyed past (command.deliver lib media number next o).out := by
  have hdeliver : Idle command number o (command.deliver lib media number next o) :=
    deliver_idle (fun hmark => ho (.inl hmark)) (idle_of_fits h hidle)
  have hsilent : number + 1 = command.operations.length ∨ forHandler o = false := by
    by_contra hboth
    rw [not_or, Bool.not_eq_false] at hboth
    exact ho (.inr hboth)
  rw [Law.obeyed_iff]
  rintro pre x post hout
  rcases hdeliver.out hsilent x (by simp [hout]) with rfl | rfl
  · trivial
  · trivial

/-- Calls that are not for the handler are all that is seen. -/
theorem obeyed_deliverAll_silent (hout : ∀ o ∈ out, forHandler o = false) :
    isolation.Obeyed past (deliverAll lib media number next out command).out := by
  induction out generalizing command past with
  | nil => trivial
  | cons o out ih =>
    obtain ⟨ho, hrest⟩ := List.forall_mem_cons.mp hout
    unfold deliverAll
    rw [deliver_silent lib media command number next ho]
    exact obeyed_andThen ⟨trivial, trivial⟩ fun _ => ih hrest

theorem obeyed_deliverAll_active (hclosing : Closing out) (h : Fits batch command past)
    (hactive : command.operation = some number) :
    isolation.Obeyed past (deliverAll lib media number next out command).out := by
  induction hclosing generalizing command past with
  | nil => trivial
  | @cons o out hmark hstop hrest ih =>
    have hcalm := calm_deliver lib media command number next hmark hstop
    exact obeyed_andThen (obeyed_deliver_active h hactive) fun _ =>
      ih (h.calm hcalm) (hcalm.course.active.trans hactive)
  | finished code description =>
    -- behind `finished` nothing is for the handler
    exact obeyed_andThen (obeyed_deliver_active h hactive) fun _ =>
      obeyed_deliverAll_silent (by simp [forHandler])

theorem obeyed_deliverAll_idle_iff (h : Fits batch command past)
    (hnumber : number < command.operations.length) (hidle : command.operation ≠ some number) :
    isolation.Obeyed past (deliverAll lib media number next out command).out ↔
      ∀ o ∈ out, ¬Reaches (number + 1 = command.operations.length) o := by
  induction out generalizing command past with
  | nil => exact iff_of_true trivial (List.forall_mem_nil _)
  | cons o out ih =>
    have hfinished := h.finished_of_idle hnumber hidle
    rw [List.forall_mem_cons]
    by_cases ho : Reaches (number + 1 = command.operations.length) o
    · refine iff_of_false (fun hobeyed => ?_) fun hrest => hrest.1 ho
      exact not_obeyed_deliver_idle h hnumber hfinished ho (obeyed_of_andThen hobeyed)
    · have hmark : o.mark ≠ .finish := fun hmark => ho (.inl hmark)
      have hdeliver : Idle command number o (command.deliver lib media number next o) :=
        deliver_idle hmark (idle_of_fits h hidle)
      unfold deliverAll
      rw [Reaction.andThen_of_not_thrown hdeliver.thrown]
      have hrest := ih (fits_deliver_idle hmark h hfinished)
        (hnumber.trans_eq hdeliver.course.count.symm) (hdeliver.course.active.trans_ne hidle)
      rw [hdeliver.course.count] at hrest
      exact obeyed_append_iff.trans (and_congr (iff_of_true (obeyed_deliver_idle h hidle ho) ho) hrest)

theorem forall_not_reaches_iff {calls finishes : Prop} (h : Leads out calls finishes)
    {last : Prop} [Decidable last] :
    (∀ o ∈ out, ¬Reaches last o) ↔ if last then ¬finishes else ¬calls := by
  split
  next hlast =>
    rw [← h.finishes]
    simp [Reaches, hlast]
  next hother =>
    rw [← h.calls]
    refine ⟨?_, ?_⟩
    · rintro hnone ⟨o, ho, hfor⟩
      exact hnone o ho (.inr ⟨hother, hfor⟩)
    · rintro hnone o ho (hmark | ⟨-, hfor⟩)
      · cases o with
        | finished => exact hnone ⟨_, ho, rfl⟩
        | _ => cases hmark
      · exact hnone ⟨o, ho, hfor⟩

end Deliver

/-! ## Steps -/

section Steps

variable {command' : BatchUpload} {out : List Observation}

theorem obeyed_run_iff {next : Operation.StartResult} {w : World} {r : Host.Reaction}
    {calls finishes : Prop} (h : Fits batch command past)
    (hnumber : number < command.operations.length) (hclosing : Closing r.2)
    (hleads : Leads r.2 calls finishes) :
    isolation.Obeyed past (command.run lib media number next w r).out ↔
      command.operation = some number ∨
        if number + 1 = command.operations.length then ¬finishes else ¬calls := by
  have hset := SameCourse.set command number { w with operation := r.1 }
  have hfits := h.congr hset
  by_cases hactive : command.operation = some number
  · exact iff_of_true (obeyed_deliverAll_active hclosing hfits (hset.active.trans hactive))
      (.inl hactive)
  · have hiff : isolation.Obeyed past (command.run lib media number next w r).out ↔
        ∀ o ∈ r.2, ¬Reaches
          (number + 1 = (command.operations.set number { w with operation := r.1 }).length) o :=
      obeyed_deliverAll_idle_iff hfits (hnumber.trans_eq hset.count.symm)
        (hset.active.trans_ne hactive)
    rw [List.length_set, forall_not_reaches_iff hleads] at hiff
    exact hiff.trans (or_iff_right hactive).symm

theorem reach_out {seen : Nat → Observation} {slot : Operation → Host.Reaction} {w : World}
    (hw : command.operations[number]? = some w) :
    (command.reach lib media seen slot number).out =
      seen number :: (command.run lib media number .started w (slot w.operation)).out := by
  unfold reach
  rw [hw]

/-- A signal reaches the operation in course only if there is no other one. -/
theorem signal_cases (h : Fits batch command past) :
    command.operations = [] ∨ (∃ w, command.operations = [w] ∧ command.operation = some 0) ∨
      command.operations ≠ [] ∧ command.operation ≠ some 0 := by
  by_cases hempty : command.operations = []
  · exact .inl hempty
  · by_cases hactive : command.operation = some 0
    · have hlast := ((h.active 0).mp hactive).1
      exact .inr (.inl ((List.length_eq_one_iff.mp hlast.symm).imp fun w hw => ⟨hw, hactive⟩))
    · exact .inr (.inr ⟨hempty, hactive⟩)

theorem obeyed_signal_iff {seen : Nat → Observation} {slot : Operation → Host.Reaction}
    (hseen : ∀ past n, Isolated past (seen n) ↔ InCourse past n)
    (hneutral : ∀ n, (seen n).neutral = true) (hclosing : ∀ op, Closing (slot op).2)
    (h : Fits batch command past) :
    isolation.Obeyed past
        (signal lib media seen slot (List.range command.operations.length) command).out ↔
      ∀ n < command.operations.length, command.operation = some n := by
  rcases signal_cases h with hempty | ⟨w, hone, hactive⟩ | ⟨hsome, hidle⟩
  · simp [hempty, signal]
  · have hreach : isolation.Obeyed past (command.reach lib media seen slot 0).out := by
      have hfits := h.neutral (.refl command) (List.forall_mem_singleton.mpr (hneutral 0))
      have hset := SameCourse.set command 0 { w with operation := (slot w.operation).1 }
      rw [reach_out (show command.operations[0]? = some w by rw [hone]; rfl)]
      exact ⟨(hseen past 0).mpr (h.inCourse_iff.mpr hactive),
        obeyed_deliverAll_active (hclosing _) (hfits.congr hset) (hset.active.trans hactive)⟩
    have hlength : command.operations.length = 1 := by
      rw [hone]
      rfl
    rw [hlength]
    refine iff_of_true (obeyed_andThen hreach fun _ => trivial) fun n hn => ?_
    obtain rfl : n = 0 := by omega
    exact hactive
  · obtain ⟨w, others, hcons⟩ := List.exists_cons_of_ne_nil hsome
    rw [hcons, List.length_cons, List.range_succ_eq_map]
    refine iff_of_false (fun hobeyed => ?_) fun hall => hidle (hall 0 (Nat.succ_pos _))
    have hreach := obeyed_of_andThen hobeyed
    rw [reach_out (show command.operations[0]? = some w by rw [hcons]; rfl)] at hreach
    exact hidle (h.inCourse_iff.mp ((hseen past 0).mp hreach.1))

/-- What keeps the targets of a batch apart: signals come only while the first operation is in
course, and an operation that has finished does not call the handler it had, or, if it is the last
one, does not finish again. -/
def Isolating (lib : Library) (command : BatchUpload) : Event → Prop
  | .abortSignal | .terminateSignal =>
    ∀ number < command.operations.length, command.operation = some number
  | .operation number event _ => command.operation = some number ∨
    if number + 1 = command.operations.length then ¬Finishes lib event
    else ∀ w, command.operations[number]? = some w → ¬CallsHandler lib w event
  | .execute _ | .fileCompleted .. => True

theorem obeyed_step_iff {event : Event} (h : Fits batch command past) (hsettled : Settled command)
    (hstep : command.step lib media event = some (command', out)) :
    isolation.Obeyed past out ↔ Isolating lib command event := by
  cases event with
  | execute next =>
    obtain ⟨hwaiting, -, rfl⟩ := step_execute hstep
    refine iff_of_true (obeyed_nextBatchTarget (.inl ⟨fun number target hmem => ?_, ?_⟩) next) trivial
    · have hstarted := (h.exists_started_iff number).mp ⟨target, hmem⟩
      rw [h.waiting hwaiting] at hstarted
      cases hstarted
    · rw [← List.count_eq_zero, h.done, hwaiting]
      rfl
  | operation number event next =>
    obtain ⟨w, v, r, hw, hcallback, rfl, rfl⟩ := step_operation hstep
    obtain ⟨hnumber, -⟩ := List.getElem?_eq_some_iff.mp hw
    have htracks := hsettled.tracks hw
    refine (obeyed_run_iff h hnumber (htracks.closing_callback hcallback)
      (leads_callback lib htracks hcallback)).trans ?_
    simp only [Isolating, hw, Option.some.injEq, forall_eq']
  | abortSignal =>
    cases hstep
    exact obeyed_signal_iff (fun _ _ => Iff.rfl) (fun _ => rfl)
      (fun op => Concluding.closing (.inl (op.modest_doAbort _))) h
  | terminateSignal =>
    cases hstep
    exact obeyed_signal_iff (fun _ _ => Iff.rfl) (fun _ => rfl)
      (fun op => (op.concluding_doTerminate _).closing) h
  | fileCompleted operation status =>
    obtain ⟨hmem, rfl, rfl⟩ := step_fileCompleted hstep
    rw [(hsettled.fileCompleted hmem).2.2]
    exact iff_of_true trivial trivial

theorem fits_signal_isolating {seen : Nat → Observation} {slot : Operation → Host.Reaction}
    (hneutral : ∀ n, (seen n).neutral = true) (hclosing : ∀ op, Closing (slot op).2)
    (h : Fits batch command past)
    (hcond : ∀ n < command.operations.length, command.operation = some n) :
    Fits batch
      (signal lib media seen slot (List.range command.operations.length) command).command
      (past ++
        (signal lib media seen slot (List.range command.operations.length) command).out) := by
  rcases signal_cases h with hempty | ⟨w, hone, hactive⟩ | ⟨hsome, hidle⟩
  · rw [hempty]
    exact h.calm (.still command)
  · have hfits := h.neutral (.refl command) (List.forall_mem_singleton.mpr (hneutral 0))
    have hreach : Fits batch (command.reach lib media seen slot 0).command
        (past ++ (command.reach lib media seen slot 0).out) := by
      unfold reach
      rw [show command.operations[0]? = some w by rw [hone]; rfl]
      dsimp only
      rw [List.append_cons]
      exact fits_run hfits (by simp [hone]) (hclosing _) (absurd hactive)
    have hlength : command.operations.length = 1 := by
      rw [hone]
      rfl
    rw [hlength]
    exact Reaction.andThen_elim hreach fun _ => hreach.calm (.still _)
  · exact absurd (hcond 0 (List.length_pos_iff.mpr hsome)) hidle

/-- The members still fit after a step that keeps the targets apart. -/
theorem fits_step_isolating {event : Event} (h : Fits batch command past)
    (hsettled : Settled command) (hcond : Isolating lib command event)
    (hstep : command.step lib media event = some (command', out)) :
    Fits batch command' (past ++ out) := by
  cases event with
  | execute next =>
    obtain ⟨hwaiting, rfl, rfl⟩ := step_execute hstep
    exact fits_execute h hwaiting next
  | operation number event next =>
    obtain ⟨w, v, r, hw, hcallback, rfl, rfl⟩ := step_operation hstep
    obtain ⟨hnumber, -⟩ := List.getElem?_eq_some_iff.mp hw
    have htracks := hsettled.tracks hw
    refine fits_run h hnumber (htracks.closing_callback hcallback) fun hidle o ho hmark => ?_
    simp only [Isolating, hw, Option.some.injEq, forall_eq'] at hcond
    have hnone := (forall_not_reaches_iff (leads_callback lib htracks hcallback)).mpr
      (hcond.resolve_left hidle)
    exact hnone o ho (.inl hmark)
  | abortSignal =>
    cases hstep
    exact fits_signal_isolating (fun _ => rfl)
      (fun op => Concluding.closing (.inl (op.modest_doAbort _))) h hcond
  | terminateSignal =>
    cases hstep
    exact fits_signal_isolating (fun _ => rfl) (fun op => (op.concluding_doTerminate _).closing) h
      hcond
  | fileCompleted operation status =>
    obtain ⟨hmem, rfl, rfl⟩ := step_fileCompleted hstep
    exact fits_fileCompleted h hsettled hmem

end Steps

end BatchUpload

/-- In every run of a batch: signals reach the operation in course only, the batch goes on or is
done only where that operation finishes, and a load list or a file is sent only in answer to it,
exactly if every step keeps the targets apart. -/
theorem batchUpload_isolated_iff (lib : Library) (media : MediaSet) {batch : BatchInformation}
    {dlpTimeout : Nat} {portOption : Bool} {events : List Event} {command : BatchUpload}
    {out : List Observation}
    (hrun : (batchSystem lib media).run (.ofBatch batch dlpTimeout portOption) events =
      some (command, out)) :
    (∀ pre o post, out = pre ++ o :: post → Isolated pre o) ↔
      (batchSystem lib media).Throughout (BatchUpload.Isolating lib)
        (.ofBatch batch dlpTimeout portOption) events := by
  have hobeyed : ∀ c past e c' o, Settled c ∧ Fits batch c past →
      (batchSystem lib media).step c e = some (c', o) →
        (isolation.Obeyed past o ↔ BatchUpload.Isolating lib c e) :=
    fun c past e c' o h hstep => BatchUpload.obeyed_step_iff h.2 h.1 hstep
  have hfits : ∀ c past e c' o, Settled c ∧ Fits batch c past → BatchUpload.Isolating lib c e →
      (batchSystem lib media).step c e = some (c', o) →
        Settled c' ∧ Fits batch c' (isolation.after past o) := by
    intro c past e c' o h hcond hstep
    rw [Law.after_history]
    exact ⟨h.1.step hstep, BatchUpload.fits_step_isolating h.2 h.1 hcond hstep⟩
  rw [← Law.obeyed_history_iff]
  exact isolation.obeyed_run_iff hobeyed hfits
    ⟨.ofBatch batch dlpTimeout portOption, .ofBatch batch dlpTimeout portOption⟩ hrun

/-- One operation is started and aborted. -/
theorem batchUpload_isolated_abort :
    ∃ command out,
      plainSystem.run (.ofBatch twoTargets 10 false) [.execute .started, .abortSignal] =
          some (command, out) ∧
        ((∀ pre o post, out = pre ++ o :: post → Isolated pre o) ↔
          plainSystem.Throughout
            (BatchUpload.Isolating { raw := .bigEndian, generateCheckValue := fun _ _ => {} })
            (.ofBatch twoTargets 10 false) [.execute .started, .abortSignal]) := by
  obtain ⟨⟨command, out⟩, hrun⟩ : ∃ r,
      plainSystem.run (.ofBatch twoTargets 10 false) [.execute .started, .abortSignal] = some r :=
    ⟨_, rfl⟩
  exact ⟨command, out, hrun, batchUpload_isolated_iff _ _ hrun⟩

/-- The first target completes, and the signal to abort comes while the second is loaded: it
reaches the operation of the first. -/
theorem batchUpload_abort_reachesFinished :
    ∃ command out,
      plainSystem.run (.ofBatch twoTargets 10 false)
          [.execute .started,
            .operation 0 (.tftpRequest ⟨0, 0⟩ .write (text "ABCD_1.LUS") {}) .started,
            .operation 0 (.completed (.status 0) .successful
              [0, 0, 0, 20, 0x41, 0x34, 0, 3, 0, 0, 0, 0, 0, 0, 0, 0x30, 0x30, 0x30, 0, 0])
              .started,
            .abortSignal] = some (command, out) ∧
        ¬∀ pre o post, out = pre ++ o :: post → Isolated pre o := by
  obtain ⟨command, out, hrun, hsignal, hfinished⟩ : ∃ command out,
      plainSystem.run (.ofBatch twoTargets 10 false)
          [.execute .started,
            .operation 0 (.tftpRequest ⟨0, 0⟩ .write (text "ABCD_1.LUS") {}) .started,
            .operation 0 (.completed (.status 0) .successful
              [0, 0, 0, 20, 0x41, 0x34, 0, 3, 0, 0, 0, 0, 0, 0, 0, 0x30, 0x30, 0x30, 0, 0])
              .started,
            .abortSignal] = some (command, out) ∧
        out[13]? = some (.abort 0) ∧
          .call 0 (.finished .operationCompleted []) ∈ out.take 13 :=
    plainSystem.exists_run_of_any (P := fun _ out => out[13]? = some (.abort 0) ∧
      .call 0 (.finished .operationCompleted []) ∈ out.take 13) (by decide +kernel)
  refine ⟨command, out, hrun, fun hisolated => ?_⟩
  obtain ⟨hlt, hget⟩ := List.getElem?_eq_some_iff.mp hsignal
  have hinCourse : InCourse (out.take 13) 0 := hisolated (out.take 13) (.abort 0) (out.drop 14)
    (by rw [← hget, ← List.drop_eq_getElem_cons hlt, List.take_append_drop])
  exact hinCourse.2.2 ⟨_, _, hfinished⟩

end Arinc615a.Commands
