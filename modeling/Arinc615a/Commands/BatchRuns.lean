import Arinc615a.Commands.BatchOperations
import Arinc615a.Reasoning.Law

/-!
# The course of a batch

What a batch has come to is compared with what was seen of it: which operations were started and
have finished, and whether the batch is done.
-/

open Reasoning

namespace Arinc615a.Commands

open Files Information Tftp Host

/-! ## Finished operations -/

def Finished (past : List Observation) (number : Nat) : Prop :=
  ∃ code description, .call number (.finished code description) ∈ past

/-- No operation calls `finished` again. -/
def FinishedOnce (past : List Observation) : Prop := (past.filterMap Observation.finished?).Nodup

instance (past : List Observation) : Decidable (FinishedOnce past) :=
  inferInstanceAs (Decidable (List.Nodup _))

theorem Finished.append {past : List Observation} {number : Nat} (h : Finished past number)
    (out : List Observation) : Finished (past ++ out) number :=
  let ⟨code, description, hmem⟩ := h
  ⟨code, description, List.mem_append_left _ hmem⟩

theorem finished_iff {past : List Observation} {number : Nat} :
    Finished past number ↔ number ∈ past.filterMap Observation.finished? := by
  rw [List.mem_filterMap]
  constructor
  · rintro ⟨code, description, hmem⟩
    exact ⟨_, hmem, rfl⟩
  · rintro ⟨x, hmem, hx⟩
    unfold Observation.finished? at hx
    split at hx
    · cases hx
      exact ⟨_, _, hmem⟩
    · cases hx

theorem FinishedOnce.of_append {past out : List Observation} (h : FinishedOnce (past ++ out)) :
    FinishedOnce past := by
  unfold FinishedOnce at h ⊢
  rw [List.filterMap_append] at h
  exact (List.nodup_append.mp h).1

/-- What has finished does not do so again. -/
theorem FinishedOnce.notMem {past out : List Observation} {number : Nat}
    (h : FinishedOnce (past ++ out)) (hfinished : Finished past number) (code : StatusCode)
    (description : Text) : .call number (.finished code description) ∉ out := by
  intro hmem
  unfold FinishedOnce at h
  rw [List.filterMap_append] at h
  exact (List.nodup_append.mp h).2.2 number (finished_iff.mp hfinished) number
    (List.mem_filterMap.mpr ⟨_, hmem, rfl⟩) rfl

/-! ## What the batch has come to -/

/-- What has happened when the operation `number` is started: all others have completed, but the
server of the one in front of it has not been stopped. -/
structure AheadOf (number : Nat) (pre : List Observation) : Prop where
  serverStop : ∀ n, .call n .serverStop ∈ pre → n + 1 < number
  completed : ∀ n code description, .call n (.finished code description) ∈ pre →
    code = .operationCompleted

/-- The operations that were started, and what they have come to. -/
structure Advanced (batch : BatchInformation) (command : BatchUpload) (past : List Observation) :
    Prop where
  starts : past.filterMap Observation.started? =
    ((batch.targets.map Prod.fst).take command.operations.length).zipIdx
  left : command.batchTargets.targets = batch.targets.drop command.operations.length
  count_le : command.operations.length ≤ batch.targets.length
  succeeded : ∀ number, number + 1 < command.operations.length →
    ∃ description, .call number (.finished .operationCompleted description) ∈ past
  known : ∀ number, Finished past number → number < command.operations.length
  stopped : ∀ number, .call number .serverStop ∈ past → Finished past number
  order : ∀ pre number target post, past = pre ++ .started number target :: post →
    AheadOf number pre

/-- The members of the command fit what was seen of the batch. -/
structure Fits (batch : BatchInformation) (command : BatchUpload) (past : List Observation) : Prop
    extends Advanced batch command past where
  active : ∀ number, command.operation = some number ↔
    number + 1 = command.operations.length ∧ ¬Finished past number
  onward : ∀ number description, .call number (.finished .operationCompleted description) ∈ past →
    number + 1 < command.operations.length ∨ number + 1 = batch.targets.length
  completed : command.operation ≠ none → ∀ number code description,
    .call number (.finished code description) ∈ past → code = .operationCompleted
  done : past.count .done = if command.executed = true ∧ command.operation = none then 1 else 0
  waiting : command.executed = false → command.operations = []

/-- A list is split at an element that its second part does not have. -/
theorem exists_of_append_eq_append_cons {xs ys pre post : List Observation} {x : Observation}
    (h : xs ++ ys = pre ++ x :: post) (hx : x ∉ ys) : ∃ mid, xs = pre ++ x :: mid := by
  rcases List.append_eq_append_iff.mp h with ⟨mid, hpre, hys⟩ | ⟨mid, hxs, hpost⟩
  · exact absurd (hys ▸ List.mem_append_right _ (List.mem_cons_self ..)) hx
  · cases mid with
    | nil =>
      obtain rfl : x :: post = ys := hpost
      exact absurd (List.mem_cons_self ..) hx
    | cons y mid =>
      cases hpost
      exact ⟨mid, hxs⟩

section Neutral

variable {past out : List Observation}

theorem filterMap_started_of_neutral (h : ∀ x ∈ out, x = .done ∨ x.neutral = true) :
    out.filterMap Observation.started? = [] := by
  rw [List.filterMap_eq_nil_iff]
  intro x hx
  rcases h x hx with rfl | hneutral
  · rfl
  · cases x with
    | started => cases hneutral
    | _ => rfl

theorem finished_append_iff (h : ∀ x ∈ out, x = .done ∨ x.neutral = true) (number : Nat) :
    Finished (past ++ out) number ↔ Finished past number := by
  refine ⟨?_, fun hfinished => hfinished.append out⟩
  rintro ⟨code, description, hmem⟩
  rcases List.mem_append.mp hmem with hmem | hmem
  · exact ⟨code, description, hmem⟩
  · rcases h _ hmem with hdone | hneutral
    · cases hdone
    · cases hneutral

theorem count_done_of_neutral (h : ∀ x ∈ out, x.neutral = true) : out.count .done = 0 :=
  List.count_eq_zero.mpr fun hmem => by cases h _ hmem

end Neutral

namespace Advanced

variable {batch : BatchInformation} {command command' : BatchUpload} {past out : List Observation}

theorem append (h : Advanced batch command past)
    (hcount : command'.operations.length = command.operations.length)
    (hleft : command'.batchTargets = command.batchTargets)
    (hstarts : out.filterMap Observation.started? = [])
    (hknown : ∀ number, Finished out number → number < command.operations.length)
    (hstopped : ∀ number, .call number .serverStop ∈ out → Finished past number) :
    Advanced batch command' (past ++ out) where
  starts := by
    rw [List.filterMap_append, hstarts, List.append_nil, hcount]
    exact h.starts
  left := by
    rw [hleft, hcount]
    exact h.left
  count_le := hcount ▸ h.count_le
  succeeded number hlt := by
    obtain ⟨description, hmem⟩ := h.succeeded number (hcount ▸ hlt)
    exact ⟨description, List.mem_append_left _ hmem⟩
  known number hfinished := by
    rw [hcount]
    obtain ⟨code, description, hmem⟩ := hfinished
    rcases List.mem_append.mp hmem with hmem | hmem
    · exact h.known number ⟨code, description, hmem⟩
    · exact hknown number ⟨code, description, hmem⟩
  stopped number hmem := by
    rcases List.mem_append.mp hmem with hmem | hmem
    · exact (h.stopped number hmem).append out
    · exact (hstopped number hmem).append out
  order pre number target post heq := by
    have hnone : Observation.started number target ∉ out := fun hmem =>
      nomatch List.filterMap_eq_nil_iff.mp hstarts _ hmem
    obtain ⟨mid, hpast⟩ := exists_of_append_eq_append_cons heq hnone
    exact h.order pre number target mid hpast

theorem neutral (h : Advanced batch command past)
    (hcount : command'.operations.length = command.operations.length)
    (hleft : command'.batchTargets = command.batchTargets)
    (hout : ∀ x ∈ out, x = .done ∨ x.neutral = true) : Advanced batch command' (past ++ out) := by
  refine h.append hcount hleft (filterMap_started_of_neutral hout) (fun number hfinished => ?_)
    fun number hmem => ?_
  · obtain ⟨code, description, hmem⟩ := hfinished
    rcases hout _ hmem with hdone | hneutral
    · cases hdone
    · cases hneutral
  · rcases hout _ hmem with hdone | hneutral
    · cases hdone
    · cases hneutral

/-- A call of `finished` by an operation that has been started. -/
theorem finish (h : Advanced batch command past) {number : Nat}
    (hnumber : number < command.operations.length) (code : StatusCode) (description : Text) :
    Advanced batch command (past ++ [.call number (.finished code description)]) := by
  refine h.append rfl rfl rfl (fun n hfinished => ?_) fun n hmem => ?_
  · obtain ⟨code', description', hmem⟩ := hfinished
    cases List.mem_singleton.mp hmem
    exact hnumber
  · cases List.mem_singleton.mp hmem

/-- The server of an operation is stopped behind `finished`. -/
theorem stop (h : Advanced batch command past)
    (hcount : command'.operations.length = command.operations.length)
    (hleft : command'.batchTargets = command.batchTargets) {number : Nat}
    (hfinished : Finished past number) :
    Advanced batch command' (past ++ [.call number .serverStop]) := by
  refine h.append hcount hleft rfl (fun n hfinished' => ?_) fun n hmem => ?_
  · obtain ⟨code, description, hmem⟩ := hfinished'
    cases List.mem_singleton.mp hmem
  · cases List.mem_singleton.mp hmem
    exact hfinished

theorem finished_append_started {number n : Nat} {target : Text} :
    Finished (past ++ [.started n target]) number ↔ Finished past number := by
  rw [finished_iff, finished_iff, List.filterMap_append]
  simp [Observation.finished?]

/-- The first target that is left is started. -/
theorem start (h : Advanced batch command past)
    (hsucceeded : ∀ number, number < command.operations.length →
      ∃ description, .call number (.finished .operationCompleted description) ∈ past)
    (hahead : AheadOf command.operations.length past) {target : Text} {loads : List UploadLoad}
    {rest : List (Text × List UploadLoad)}
    (hcons : command.batchTargets.targets = (target, loads) :: rest)
    (hcount : command'.operations.length = command.operations.length + 1)
    (hleft : command'.batchTargets.targets = rest) :
    Advanced batch command' (past ++ [.started command.operations.length target]) := by
  have hdrop : batch.targets.drop command.operations.length = (target, loads) :: rest :=
    h.left.symm.trans hcons
  have hget : batch.targets[command.operations.length]? = some (target, loads) := by
    rw [← Nat.add_zero command.operations.length, ← List.getElem?_drop, hdrop]
    rfl
  obtain ⟨hlt, -⟩ := List.getElem?_eq_some_iff.mp hget
  refine ⟨?_, ?_, ?_, ?_, ?_, ?_, ?_⟩
  · rw [List.filterMap_append, h.starts, hcount, List.take_add_one, List.zipIdx_append,
      List.getElem?_map, hget, List.length_take, List.length_map, Nat.min_eq_left h.count_le,
      Nat.zero_add]
    rfl
  · rw [hleft, hcount, ← List.drop_drop, hdrop]
    rfl
  · omega
  · intro number hlt
    obtain ⟨description, hmem⟩ := hsucceeded number (by omega)
    exact ⟨description, List.mem_append_left _ hmem⟩
  · intro number hfinished
    have hknown := h.known number (finished_append_started.mp hfinished)
    omega
  · intro number hmem
    rcases List.mem_append.mp hmem with hmem | hmem
    · exact (h.stopped number hmem).append _
    · cases List.mem_singleton.mp hmem
  · intro pre number target' post heq
    -- an earlier start, or the new one, which is the last that was seen
    cases post using List.reverseRecOn with
    | nil =>
      obtain ⟨rfl, hstart⟩ := List.append_inj' heq rfl
      cases hstart
      exact hahead
    | append_singleton post x _ =>
      rw [← List.cons_append, ← List.append_assoc] at heq
      exact h.order pre number target' post (List.append_inj' heq rfl).1

/-- With the start of the first target that is left its operation is in course. -/
theorem started (h : Advanced batch command past)
    (hsucceeded : ∀ number, number < command.operations.length →
      ∃ description, .call number (.finished .operationCompleted description) ∈ past)
    (hahead : AheadOf command.operations.length past) (hdone : past.count .done = 0)
    {target : Text} {loads : List UploadLoad} {rest : List (Text × List UploadLoad)}
    (hcons : command.batchTargets.targets = (target, loads) :: rest)
    (hcount : command'.operations.length = command.operations.length + 1)
    (hactive : command'.operation = some command.operations.length)
    (hleft : command'.batchTargets.targets = rest) (hexecuted : command'.executed = true) :
    Fits batch command' (past ++ [.started command.operations.length target]) where
  toAdvanced := h.start hsucceeded hahead hcons hcount hleft
  active number := by
    rw [hactive, hcount, finished_append_started]
    constructor
    · intro heq
      cases heq
      exact ⟨rfl, fun hfinished => Nat.lt_irrefl _ (h.known _ hfinished)⟩
    · rintro ⟨hlast, -⟩
      rw [Nat.add_right_cancel hlast]
  onward number description hmem := by
    rcases List.mem_append.mp hmem with hmem | hmem
    · have hknown := h.known number ⟨_, description, hmem⟩
      omega
    · cases List.mem_singleton.mp hmem
  completed _ number code description hmem := by
    rcases List.mem_append.mp hmem with hmem | hmem
    · exact hahead.completed number code description hmem
    · cases List.mem_singleton.mp hmem
  done := by
    rw [List.count_append, hdone, hactive]
    simp
  waiting hwaiting := by
    rw [hexecuted] at hwaiting
    cases hwaiting

/-- The last operation has finished and no other one is started: the batch is done. -/
theorem concluded (h : Advanced batch command past) (hidle : command.operation = none)
    (hexecuted : command.executed = true) (hdone : past.count .done = 0)
    (hlast : ∀ number, number + 1 = command.operations.length → Finished past number)
    (honward : ∀ number description,
      .call number (.finished .operationCompleted description) ∈ past →
        number + 1 < command.operations.length ∨ number + 1 = batch.targets.length) :
    Fits batch command (past ++ [.done]) where
  toAdvanced := h.neutral rfl rfl (List.forall_mem_singleton.mpr (.inl rfl))
  active number := by
    rw [hidle, finished_append_iff (List.forall_mem_singleton.mpr (.inl rfl))]
    refine iff_of_false (by simp) ?_
    rintro ⟨hnumber, hunfinished⟩
    exact hunfinished (hlast number hnumber)
  onward number description hmem := by
    rcases List.mem_append.mp hmem with hmem | hmem
    · exact honward number description hmem
    · cases List.mem_singleton.mp hmem
  completed := absurd hidle
  done := by
    rw [List.count_append, hdone]
    simp [hexecuted, hidle]
  waiting hwaiting := by
    rw [hexecuted] at hwaiting
    cases hwaiting

end Advanced

namespace Fits

variable {batch : BatchInformation} {command command' : BatchUpload} {past out : List Observation}

theorem neutral (h : Fits batch command past) (hcourse : SameCourse command command')
    (hout : ∀ x ∈ out, x.neutral = true) : Fits batch command' (past ++ out) where
  toAdvanced := h.toAdvanced.neutral hcourse.count hcourse.left fun x hx => .inr (hout x hx)
  active number := by
    rw [hcourse.active, hcourse.count, finished_append_iff fun x hx => .inr (hout x hx)]
    exact h.active number
  onward number description hmem := by
    rw [hcourse.count]
    rcases List.mem_append.mp hmem with hmem | hmem
    · exact h.onward number description hmem
    · cases hout _ hmem
  completed hsome number code description hmem := by
    rcases List.mem_append.mp hmem with hmem | hmem
    · exact h.completed (hcourse.active ▸ hsome) number code description hmem
    · cases hout _ hmem
  done := by
    rw [List.count_append, count_done_of_neutral hout, hcourse.executed, hcourse.active]
    exact h.done
  waiting hexecuted := by
    rw [← List.length_eq_zero_iff, hcourse.count, List.length_eq_zero_iff]
    exact h.waiting (hcourse.executed ▸ hexecuted)

theorem congr (h : Fits batch command past) (hcourse : SameCourse command command') :
    Fits batch command' past := by
  rw [← List.append_nil past]
  exact h.neutral hcourse (List.forall_mem_nil _)

theorem calm {r : Reaction} (h : Fits batch command past) (hcalm : Calm command r) :
    Fits batch r.command (past ++ r.out) :=
  h.neutral hcalm.course hcalm.neutral

theorem stop (h : Fits batch command past) (hcourse : SameCourse command command') {number : Nat}
    (hfinished : Finished past number) :
    Fits batch command' (past ++ [.call number .serverStop]) where
  toAdvanced := h.toAdvanced.stop hcourse.count hcourse.left hfinished
  active n := by
    have hsame : Finished (past ++ [.call number .serverStop]) n ↔ Finished past n := by
      rw [finished_iff, finished_iff, List.filterMap_append]
      simp [Observation.finished?]
    rw [hcourse.active, hcourse.count, hsame]
    exact h.active n
  onward n description hmem := by
    rw [hcourse.count]
    rcases List.mem_append.mp hmem with hmem | hmem
    · exact h.onward n description hmem
    · cases List.mem_singleton.mp hmem
  completed hsome n code description hmem := by
    rcases List.mem_append.mp hmem with hmem | hmem
    · exact h.completed (hcourse.active ▸ hsome) n code description hmem
    · cases List.mem_singleton.mp hmem
  done := by
    rw [List.count_append, hcourse.executed, hcourse.active]
    exact h.done
  waiting hexecuted := by
    rw [← List.length_eq_zero_iff, hcourse.count, List.length_eq_zero_iff]
    exact h.waiting (hcourse.executed ▸ hexecuted)

/-- An operation that is not in course has finished. -/
theorem finished_of_idle (h : Fits batch command past) {number : Nat}
    (hnumber : number < command.operations.length) (hidle : command.operation ≠ some number) :
    Finished past number := by
  by_cases hlast : number + 1 = command.operations.length
  · by_contra hunfinished
    exact hidle ((h.active number).mpr ⟨hlast, hunfinished⟩)
  · obtain ⟨description, hmem⟩ := h.succeeded number (by omega)
    exact ⟨_, description, hmem⟩

/-- The operations that were started are those that the command holds. -/
theorem exists_started_iff (h : Fits batch command past) (number : Nat) :
    (∃ target, .started number target ∈ past) ↔ number < command.operations.length := by
  have hmem (target : Text) : Observation.started number target ∈ past ↔
      (target, number) ∈ past.filterMap Observation.started? := by
    rw [List.mem_filterMap]
    refine ⟨fun hmem => ⟨_, hmem, rfl⟩, ?_⟩
    rintro ⟨x, hx, hstarted⟩
    cases x with
    | started => cases hstarted; exact hx
    | _ => cases hstarted
  simp only [hmem, h.starts, List.mk_mem_zipIdx_iff_getElem?]
  rw [← Option.isSome_iff_exists, Option.isSome_iff_ne_none, ne_eq, List.getElem?_eq_none_iff,
    not_le, List.length_take, List.length_map, Nat.min_eq_left h.count_le]

end Fits

theorem Fits.ofBatch (batch : BatchInformation) (dlpTimeout : Nat) (portOption : Bool) :
    Fits batch (.ofBatch batch dlpTimeout portOption) [] where
  starts := rfl
  left := rfl
  count_le := Nat.zero_le _
  succeeded _ h := absurd h (Nat.not_lt_zero _)
  known _ h := by
    obtain ⟨code, description, hmem⟩ := h
    cases hmem
  stopped _ h := nomatch h
  order pre _ _ _ h := by cases pre <;> cases h
  completed h := absurd rfl h
  active number := by simp [BatchUpload.ofBatch]
  onward _ _ h := nomatch h
  done := rfl
  waiting _ := rfl

/-! ## The calls of an operation -/

namespace BatchUpload

variable {lib : Library} {media : MediaSet} {batch : BatchInformation} {command : BatchUpload}
  {past : List Observation}

theorem calm_start (op : Operation) (hkind : op.kind = .upload) (result : Operation.StartResult) :
    ∀ o ∈ (op.start result).2, o.mark ≠ .finish ∧ o ≠ .serverStop := by
  unfold Operation.start
  rw [hkind]
  cases result with
  | serverStartThrows => exact List.forall_mem_nil _
  | started | requestThrows =>
    simp [UploadOperation.start, Operation.initialise, Output.mark]

/-- All operations so far have completed, and the next one is started, or the batch is done. -/
theorem fits_nextBatchTarget (h : Advanced batch command past)
    (hsucceeded : ∀ number, number < command.operations.length →
      ∃ description, .call number (.finished .operationCompleted description) ∈ past)
    (hahead : AheadOf command.operations.length past) (hdone : past.count .done = 0)
    (hexecuted : command.executed = true)
    (hidle : command.operation = none) (next : Operation.StartResult) :
    Fits batch (command.nextBatchTarget next).command
      (past ++ (command.nextBatchTarget next).out) := by
  unfold nextBatchTarget
  split
  next hnil =>
    -- no target is left, and none has been left out
    have hcount : command.operations.length = batch.targets.length :=
      Nat.le_antisymm h.count_le (List.drop_eq_nil_iff.mp (h.left.symm.trans hnil))
    refine h.concluded hidle hexecuted hdone (fun number hlast => ?_) fun number description hmem => ?_
    · obtain ⟨description, hmem⟩ := hsucceeded number (by omega)
      exact ⟨_, description, hmem⟩
    · have hknown := h.known number ⟨_, description, hmem⟩
      omega
  next target loads rest hcons =>
    dsimp only
    let w := World.ofOperation .upload (.ofText target) command.dlpTimeout command.portOption
    have hstarted : Fits batch { command with
        batchTargets := ⟨rest, (List.pairwise_cons.mp (hcons ▸ command.batchTargets.ascending)).2⟩
        loads := loads
        loadListTransmitted := false
        operations := command.operations ++ [w]
        operation := some command.operations.length }
        (past ++ [.started command.operations.length target]) :=
      h.started hsucceeded hahead hdone hcons (List.length_append ..) rfl rfl hexecuted
    have hcalls := hstarted.calm
      (.react (n := command.operations.length) (calm_start w.operation rfl next))
    rw [List.append_assoc] at hcalls
    exact hcalls

/-- The operation in course calls `finished`. -/
theorem fits_finished (h : Fits batch command past) {number : Nat}
    (hactive : command.operation = some number) (code : StatusCode) (description : Text)
    (next : Operation.StartResult) :
    Fits batch (command.finished code next).command
      (past ++ .call number (.finished code description) :: (command.finished code next).out) := by
  obtain ⟨hlast, hunfinished⟩ := (h.active number).mp hactive
  have hexecuted : command.executed = true := by
    by_contra hwaiting
    have hnone := h.waiting (Bool.eq_false_of_not_eq_true hwaiting)
    rw [hnone] at hlast
    cases hlast
  have hcount :
      List.count .done (past ++ [.call number (.finished code description)]) = 0 := by
    rw [List.count_append, h.done, hactive]
    simp
  have hadvanced := h.toAdvanced.finish (by omega : number < command.operations.length) code
    description
  have hnext : Advanced batch { command with operation := none }
      (past ++ [.call number (.finished code description)]) := { hadvanced with }
  have hfinished : Finished (past ++ [.call number (.finished code description)]) number :=
    ⟨code, description, List.mem_append_right _ (List.mem_singleton.mpr rfl)⟩
  unfold BatchUpload.finished
  dsimp only
  rw [List.append_cons]
  split
  next hcode =>
    refine hnext.concluded rfl hexecuted hcount (fun n hn => ?_) fun n description' hmem => ?_
    · obtain rfl : n = number := by
        dsimp only at hn
        omega
      exact hfinished
    · rcases List.mem_append.mp hmem with hmem | hmem
      · exact h.onward n description' hmem
      · cases List.mem_singleton.mp hmem
        exact absurd rfl hcode
  next hcode =>
    obtain rfl : code = .operationCompleted := not_not.mp hcode
    -- with this one all have completed
    refine fits_nextBatchTarget hnext ?_ ⟨?_, ?_⟩ hcount hexecuted rfl next
    · intro n hn
      by_cases hlt : n + 1 < command.operations.length
      · exact hadvanced.succeeded n hlt
      · obtain rfl : n = number := by
          dsimp only at hn
          omega
        exact ⟨description, List.mem_append_right _ (List.mem_singleton.mpr rfl)⟩
    · intro n hmem
      rcases List.mem_append.mp hmem with hmem | hmem
      · -- its own server runs until it has told the handler
        have hne : n ≠ number := fun heq => hunfinished (heq ▸ h.stopped n hmem)
        have hknown := h.known n (h.stopped n hmem)
        dsimp only
        omega
      · cases List.mem_singleton.mp hmem
    · intro n code' description' hmem
      rcases List.mem_append.mp hmem with hmem | hmem
      · exact h.completed (by simp [hactive]) n code' description' hmem
      · cases List.mem_singleton.mp hmem
        rfl

section Deliver

variable {number : Nat} {next : Operation.StartResult} {out : List Output}

theorem deliver_finished (hlast : number + 1 = command.operations.length) (code : StatusCode)
    (description : Text) :
    command.deliver lib media number next (.finished code description) =
      let r := (command.perform number (.finished code description)).finished code next
      { r with out := .call number (.finished code description) :: r.out } := by
  have hcount := (SameCourse.perform command number (.finished code description)).count
  unfold BatchUpload.deliver
  dsimp only
  rw [if_neg fun h => h.2 (hlast.trans hcount.symm)]
  rfl

/-- The calls of the operation in course. -/
theorem fits_deliverAll_active (hclosing : Closing out) (h : Fits batch command past)
    (hactive : command.operation = some number) :
    Fits batch (deliverAll lib media number next out command).command
      (past ++ (deliverAll lib media number next out command).out) := by
  induction hclosing generalizing command past with
  | nil => exact h.calm (.still command)
  | @cons o out hmark hstop hrest ih =>
    have hcalm := calm_deliver lib media command number next hmark hstop
    exact Reaction.andThen_elim (h.calm hcalm) fun _ =>
      ih (h.calm hcalm) (hcalm.course.active.trans hactive)
  | finished code description =>
    obtain ⟨hlast, -⟩ := (h.active number).mp hactive
    have hperform := SameCourse.perform command number (.finished code description)
    have hfits := fits_finished (h.congr hperform) (hperform.active.trans hactive) code description
      next
    unfold deliverAll
    rw [deliver_finished hlast]
    refine Reaction.andThen_elim hfits fun _ => ?_
    -- the two calls behind it are not for the handler
    unfold deliverAll
    rw [deliver_silent lib media _ number next rfl]
    have htimer := hfits.neutral (.perform _ number .timerCancel)
      (List.forall_mem_singleton.mpr (rfl : (Observation.call number .timerCancel).neutral = true))
    have hfinished : Finished (past ++ .call number (.finished code description) ::
        ((command.perform number (.finished code description)).finished code next).out ++
        [.call number .timerCancel]) number := ⟨code, description, by simp⟩
    refine Reaction.andThen_elim htimer fun _ => ?_
    unfold deliverAll
    rw [deliver_silent lib media _ number next rfl]
    have hserver := htimer.stop (.perform _ number .serverStop) hfinished
    refine Reaction.andThen_elim hserver fun _ => ?_
    exact hserver.calm (.still _)

/-- A call of an operation that has finished already. -/
theorem fits_deliver_idle {o : Output} (hmark : o.mark ≠ .finish) (h : Fits batch command past)
    (hfinished : Finished past number) :
    Fits batch (command.deliver lib media number next o).command
      (past ++ (command.deliver lib media number next o).out) := by
  by_cases hstop : o = .serverStop
  · rw [hstop, deliver_silent lib media command number next rfl]
    exact h.stop (.perform command number .serverStop) hfinished
  · exact h.calm (calm_deliver lib media command number next hmark hstop)

theorem fits_deliverAll_idle (hout : ∀ o ∈ out, o.mark ≠ .finish) (h : Fits batch command past)
    (hfinished : Finished past number) :
    Fits batch (deliverAll lib media number next out command).command
      (past ++ (deliverAll lib media number next out command).out) := by
  induction out generalizing command past with
  | nil => exact h.calm (.still command)
  | cons o out ih =>
    obtain ⟨hmark, hrest⟩ := List.forall_mem_cons.mp hout
    have hfirst : Fits batch (command.deliver lib media number next o).command
        (past ++ (command.deliver lib media number next o).out) :=
      fits_deliver_idle hmark h hfinished
    exact Reaction.andThen_elim hfirst fun _ => ih hrest hfirst (hfinished.append _)

theorem call_mem_deliver (command : BatchUpload) (number : Nat) (next : Operation.StartResult)
    (o : Output) : .call number o ∈ (command.deliver lib media number next o).out := by
  unfold BatchUpload.deliver
  dsimp only
  split
  · exact List.mem_cons_self ..
  · exact List.mem_cons_self ..

/-- Without an operation in course the handler of the last one does nothing, and finds so. -/
structure Idle (command : BatchUpload) (number : Nat) (o : Output) (r : Reaction) : Prop where
  course : SameCourse command r.command
  thrown : r.thrown = false
  out : number + 1 = command.operations.length ∨ forHandler o = false →
    ∀ x ∈ r.out, x = .call number o ∨ x = .noOperation

theorem deliver_idle {o : Output} (hmark : o.mark ≠ .finish)
    (hidle : number + 1 = command.operations.length → command.operation = none) :
    Idle command number o (command.deliver lib media number next o) := by
  have hperform := SameCourse.perform command number o
  by_cases hfor : forHandler o = true
  · unfold BatchUpload.deliver
    dsimp only
    split
    next hother =>
      refine ⟨hperform, rfl, fun hlast => ?_⟩
      rcases hlast with hlast | hsilent
      · exact absurd (hlast.trans hperform.count.symm) hother.2
      · rw [hfor] at hsilent
        cases hsilent
    next hhandler =>
      -- the handler is there, so this is the last operation
      have hnone : (command.perform number o).operation = none :=
        hidle ((not_and_not_right.mp hhandler hfor).trans hperform.count)
      have hcalls : ∀ x ∈ [Observation.call number o, .noOperation],
          x = .call number o ∨ x = .noOperation := by simp
      have hcall : ∀ x ∈ [Observation.call number o], x = .call number o ∨ x = .noOperation := by
        simp
      unfold BatchUpload.handler
      split
      · exact absurd rfl hmark
      · unfold BatchUpload.status
        rw [hnone]
        exact ⟨hperform, rfl, fun _ => hcalls⟩
      · unfold BatchUpload.fileRequest
        rw [hnone]
        exact ⟨hperform, rfl, fun _ => hcalls⟩
      · exact ⟨hperform, rfl, fun _ => hcall⟩
  · rw [deliver_silent lib media command number next (Bool.eq_false_of_not_eq_true hfor)]
    exact ⟨hperform, rfl, fun _ => List.forall_mem_singleton.mpr (.inl rfl)⟩

/-- What an operation that has finished calls is seen, up to another call of `finished`. -/
theorem finish_mem_deliverAll
    (hidle : number + 1 = command.operations.length → command.operation = none)
    (hout : ∃ o ∈ out, o.mark = .finish) :
    ∃ code description, .call number (.finished code description) ∈
      (deliverAll lib media number next out command).out := by
  induction out generalizing command with
  | nil =>
    obtain ⟨o, ho, -⟩ := hout
    cases ho
  | cons o out ih =>
    have hcall : .call number o ∈ (command.deliver lib media number next o).out :=
      call_mem_deliver ..
    by_cases hmark : o.mark = .finish
    · cases o with
      | finished code description => exact ⟨code, description, Reaction.mem_andThen_left hcall⟩
      | _ => cases hmark
    · obtain ⟨hcourse, hthrown, -⟩ : Idle command number o
        (command.deliver lib media number next o) := deliver_idle hmark hidle
      have hrest : ∃ o ∈ out, o.mark = .finish := by
        obtain ⟨x, hx, hfinish⟩ := hout
        rcases List.mem_cons.mp hx with rfl | hx
        · exact absurd hfinish hmark
        · exact ⟨x, hx, hfinish⟩
      obtain ⟨code, description, hmem⟩ :=
        ih (fun hlast => hcourse.active.trans (hidle (hlast.trans hcourse.count))) hrest
      exact ⟨code, description, Reaction.mem_andThen_right hthrown hmem⟩

end Deliver

/-! ## Steps -/

section Steps

variable {command' : BatchUpload} {out : List Observation} {number : Nat}

theorem idle_of_fits (h : Fits batch command past) (hidle : command.operation ≠ some number)
    (hlast : number + 1 = command.operations.length) : command.operation = none := by
  cases hactive : command.operation with
  | none => rfl
  | some n =>
    obtain ⟨hn, -⟩ := (h.active n).mp hactive
    obtain rfl : n = number := by omega
    exact absurd hactive hidle

theorem fits_run {next : Operation.StartResult} {w : World} {r : Host.Reaction}
    (h : Fits batch command past) (hnumber : number < command.operations.length)
    (hclosing : Closing r.2)
    (hidle : command.operation ≠ some number → ∀ o ∈ r.2, o.mark ≠ .finish) :
    Fits batch (command.run lib media number next w r).command
      (past ++ (command.run lib media number next w r).out) := by
  have hset := SameCourse.set command number { w with operation := r.1 }
  have hfits := h.congr hset
  by_cases hactive : command.operation = some number
  · exact fits_deliverAll_active hclosing hfits (hset.active.trans hactive)
  · exact fits_deliverAll_idle (hidle hactive) hfits (h.finished_of_idle hnumber hactive)

/-- An operation that has finished would be seen to finish again. -/
theorem not_finish_of_once {next : Operation.StartResult} {w : World} {r : Host.Reaction}
    (h : Fits batch command past) (hnumber : number < command.operations.length)
    (honce : FinishedOnce (past ++ (command.run lib media number next w r).out))
    (hidle : command.operation ≠ some number) : ∀ o ∈ r.2, o.mark ≠ .finish := by
  intro o ho hmark
  have hset := SameCourse.set command number { w with operation := r.1 }
  obtain ⟨code, description, hmem⟩ : ∃ code description,
      .call number (.finished code description) ∈ (command.run lib media number next w r).out :=
    finish_mem_deliverAll (idle_of_fits (h.congr hset) (hset.active.trans_ne hidle)) ⟨o, ho, hmark⟩
  exact honce.notMem (h.finished_of_idle hnumber hidle) code description hmem

theorem fits_reach {seen : Nat → Observation} {slot : Operation → Host.Reaction}
    (hseen : ∀ n, (seen n).neutral = true) (hclosing : ∀ op, Closing (slot op).2)
    (h : Fits batch command past)
    (honce : FinishedOnce (past ++ (command.reach lib media seen slot number).out)) :
    Fits batch (command.reach lib media seen slot number).command
      (past ++ (command.reach lib media seen slot number).out) := by
  unfold reach at honce ⊢
  cases hw : command.operations[number]? with
  | none => exact h.calm (.still command)
  | some w =>
    obtain ⟨hnumber, -⟩ := List.getElem?_eq_some_iff.mp hw
    rw [hw] at honce
    dsimp only at honce ⊢
    rw [List.append_cons] at honce ⊢
    have hfits := h.neutral (.refl command) (List.forall_mem_singleton.mpr (hseen number))
    exact fits_run hfits hnumber (hclosing w.operation) (not_finish_of_once hfits hnumber honce)

theorem fits_signal {seen : Nat → Observation} {slot : Operation → Host.Reaction}
    (hseen : ∀ n, (seen n).neutral = true) (hclosing : ∀ op, Closing (slot op).2)
    {numbers : List Nat} (h : Fits batch command past)
    (honce : FinishedOnce (past ++ (signal lib media seen slot numbers command).out)) :
    Fits batch (signal lib media seen slot numbers command).command
      (past ++ (signal lib media seen slot numbers command).out) := by
  induction numbers generalizing command past with
  | nil => exact h.calm (.still command)
  | cons number numbers ih =>
    unfold signal at honce ⊢
    cases hthrown : (command.reach lib media seen slot number).thrown with
    | true =>
      rw [Reaction.andThen_of_thrown hthrown] at honce ⊢
      exact fits_reach hseen hclosing h honce
    | false =>
      rw [Reaction.andThen_of_not_thrown hthrown] at honce ⊢
      dsimp only at honce ⊢
      rw [← List.append_assoc] at honce ⊢
      exact ih (fits_reach hseen hclosing h honce.of_append) honce

theorem fits_execute (h : Fits batch command past) (hwaiting : command.executed = false)
    (next : Operation.StartResult) :
    Fits batch ({ command with executed := true }.nextBatchTarget next).command
      (past ++ ({ command with executed := true }.nextBatchTarget next).out) := by
  have hnone := h.waiting hwaiting
  have hcount : command.operations.length = 0 := List.length_eq_zero_iff.mpr hnone
  have hidle : command.operation = none := by
    refine Option.eq_none_iff_forall_ne_some.mpr fun n hactive => ?_
    have hlast := ((h.active n).mp hactive).1
    omega
  have hunfinished (n : Nat) : ¬Finished past n := fun hfinished =>
    absurd (h.known n hfinished) (by omega)
  have hadvanced : Advanced batch { command with executed := true } past :=
    { h.toAdvanced with }
  refine fits_nextBatchTarget hadvanced (fun n hn => ?_) ⟨fun n hmem => ?_, ?_⟩ ?_ rfl hidle next
  · exact absurd hn (by dsimp only; omega)
  · exact absurd (h.stopped n hmem) (hunfinished n)
  · exact fun n code description hmem => absurd ⟨code, description, hmem⟩ (hunfinished n)
  · rw [h.done, hwaiting]
    rfl

/-- The end of a file transfer concerns no target: nothing is called. -/
theorem fits_fileCompleted (h : Fits batch command past) (hsettled : Settled command)
    {operation : Nat} (hmem : operation ∈ command.transfers) :
    let next := { command with
      transfers := command.transfers.erase operation }.fileCompleted operation
    Fits batch next.command (past ++ next.out) := by
  obtain ⟨-, hcourse, hout⟩ := hsettled.fileCompleted hmem
  dsimp only
  rw [hout]
  exact h.neutral hcourse (List.forall_mem_nil _)

/-- The members still fit after a step, unless an operation has finished again. -/
theorem fits_step {event : Event} (h : Fits batch command past) (hsettled : Settled command)
    (hstep : command.step lib media event = some (command', out))
    (honce : FinishedOnce (past ++ out)) : Fits batch command' (past ++ out) := by
  cases event with
  | execute next =>
    obtain ⟨hwaiting, rfl, rfl⟩ := step_execute hstep
    exact fits_execute h hwaiting next
  | operation number event next =>
    obtain ⟨w, v, r, hw, hcallback, rfl, rfl⟩ := step_operation hstep
    obtain ⟨hnumber, -⟩ := List.getElem?_eq_some_iff.mp hw
    exact fits_run h hnumber ((hsettled.tracks hw).closing_callback hcallback)
      (not_finish_of_once h hnumber honce)
  | abortSignal =>
    cases hstep
    exact fits_signal (fun _ => rfl) (fun op => (Concluding.closing (.inl (op.modest_doAbort _)))) h
      honce
  | terminateSignal =>
    cases hstep
    exact fits_signal (fun _ => rfl) (fun op => (op.concluding_doTerminate _).closing) h honce
  | fileCompleted operation status =>
    obtain ⟨hmem, rfl, rfl⟩ := step_fileCompleted hstep
    exact fits_fileCompleted h hsettled hmem

end Steps

end BatchUpload

/-- What a run keeps: the members fit as long as no operation has finished again. -/
def Fitting (batch : BatchInformation) (command : BatchUpload) (past : List Observation) : Prop :=
  Settled command ∧ (FinishedOnce past → Fits batch command past)

theorem fitting_ofBatch (batch : BatchInformation) (dlpTimeout : Nat) (portOption : Bool) :
    Fitting batch (.ofBatch batch dlpTimeout portOption) [] :=
  ⟨.ofBatch batch dlpTimeout portOption, fun _ => .ofBatch batch dlpTimeout portOption⟩

theorem fitting_run {lib : Library} {media : MediaSet} {batch : BatchInformation} {dlpTimeout : Nat}
    {portOption : Bool} {events : List Event} {command : BatchUpload} {out : List Observation}
    (hrun : (batchSystem lib media).run (.ofBatch batch dlpTimeout portOption) events =
      some (command, out)) : Fitting batch command out := by
  have hstep : ∀ c past e c' o, Fitting batch c past →
      (batchSystem lib media).step c e = some (c', o) → Fitting batch c' (past ++ o) :=
    fun c past e c' o h hstep => ⟨h.1.step hstep, fun honce =>
      BatchUpload.fits_step (h.2 honce.of_append) h.1 hstep honce⟩
  exact (batchSystem lib media).run_history hstep (fitting_ofBatch batch dlpTimeout portOption) hrun

/-- A batch to look at: two targets, without loads. -/
def twoTargets : BatchInformation := ⟨[(text "ABCD_1", []), (text "ABCD_2", [])], by decide⟩

/-- A system to look at, with no files on the media set. -/
def plainSystem : Reactive BatchUpload Event Observation :=
  batchSystem { raw := .bigEndian, generateCheckValue := fun _ _ => {} }
    ⟨fun _ _ _ _ => none, fun _ => false⟩

end Arinc615a.Commands
