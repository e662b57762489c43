import Arinc615a.Commands.BatchUpload

/-!
# The calls of a batch, one by one

Most calls of an operation leave the batch where it is: it goes on to the next target only from
inside a call of `finished`.
-/

open Reasoning

namespace Arinc615a.Commands

open Files Information Tftp Host

/-! ## What is seen -/

namespace Observation

def started? : Observation → Option (Text × Nat)
  | .started number target => some (target, number)
  | _ => none

/-- The number of the operation that calls `finished`. -/
def finished? : Observation → Option Nat
  | .call number (.finished ..) => some number
  | _ => none

/-- Neither starts an operation, nor belongs to the end of one or of the batch. -/
def neutral : Observation → Bool
  | .started .. | .done | .call _ (.finished ..) | .call _ .serverStop => false
  | _ => true

theorem neutral_call {number : Nat} {o : Output} (hmark : o.mark ≠ .finish)
    (hstop : o ≠ .serverStop) : (Observation.call number o).neutral = true := by
  cases o with
  | finished => exact absurd rfl hmark
  | serverStop => exact absurd rfl hstop
  | _ => rfl

end Observation

/-! ## Parts of the command that may throw -/

/-- A part of the command that may throw, and what comes behind it if it does not. -/
theorem Reaction.andThen_elim {P : BatchUpload → List Observation → Prop}
    {past : List Observation} {r : Reaction} {f : BatchUpload → Reaction}
    (hfirst : P r.command (past ++ r.out))
    (hrest : r.thrown = false → P (f r.command).command (past ++ r.out ++ (f r.command).out)) :
    P (r.andThen f).command (past ++ (r.andThen f).out) := by
  unfold Reaction.andThen
  cases hthrown : r.thrown with
  | true => exact hfirst
  | false =>
    rw [List.append_assoc] at hrest
    exact hrest hthrown

theorem Reaction.andThen_of_thrown {r : Reaction} {f : BatchUpload → Reaction}
    (h : r.thrown = true) : r.andThen f = r :=
  if_pos h

theorem Reaction.andThen_of_not_thrown {r : Reaction} {f : BatchUpload → Reaction}
    (h : r.thrown = false) : r.andThen f = { f r.command with out := r.out ++ (f r.command).out } :=
  if_neg (by simp [h])

theorem Reaction.mem_andThen_left {r : Reaction} {f : BatchUpload → Reaction} {x : Observation}
    (h : x ∈ r.out) : x ∈ (r.andThen f).out := by
  unfold andThen
  split
  · exact h
  · exact List.mem_append_left _ h

theorem Reaction.mem_andThen_right {r : Reaction} {f : BatchUpload → Reaction} {x : Observation}
    (hthrown : r.thrown = false) (h : x ∈ (f r.command).out) : x ∈ (r.andThen f).out := by
  rw [andThen_of_not_thrown hthrown]
  exact List.mem_append_right _ h

/-! ## Calls that leave the course alone -/

structure SameCourse (command command' : BatchUpload) : Prop where
  count : command'.operations.length = command.operations.length
  active : command'.operation = command.operation
  left : command'.batchTargets = command.batchTargets
  executed : command'.executed = command.executed

namespace SameCourse

variable {command command' command'' : BatchUpload}

theorem refl (command : BatchUpload) : SameCourse command command := ⟨rfl, rfl, rfl, rfl⟩

theorem trans (h : SameCourse command command') (h' : SameCourse command' command'') :
    SameCourse command command'' :=
  ⟨h'.count.trans h.count, h'.active.trans h.active, h'.left.trans h.left,
    h'.executed.trans h.executed⟩

theorem perform (command : BatchUpload) (number : Nat) (o : Output) :
    SameCourse command (command.perform number o) :=
  ⟨List.length_modify .., rfl, rfl, rfl⟩

theorem react (command : BatchUpload) (number : Nat) (r : Host.Reaction) :
    SameCourse command (command.react number r).command :=
  ⟨List.length_modify .., rfl, rfl, rfl⟩

theorem set (command : BatchUpload) (number : Nat) (w : World) :
    SameCourse command { command with operations := command.operations.set number w } :=
  ⟨List.length_set .., rfl, rfl, rfl⟩

end SameCourse

/-- The batch stays where it is, and nothing is seen that would say otherwise. -/
structure Calm (command : BatchUpload) (r : Reaction) : Prop where
  course : SameCourse command r.command
  neutral : ∀ x ∈ r.out, x.neutral = true

namespace Calm

variable {command command' : BatchUpload} {r : Reaction}

theorem still (command : BatchUpload) : Calm command { command } :=
  ⟨.refl command, List.forall_mem_nil _⟩

theorem single {x : Observation} (hx : x.neutral = true) (h : SameCourse command command') :
    Calm command { command := command', out := [x] } :=
  ⟨h, List.forall_mem_singleton.mpr hx⟩

/-- Calls of an operation that do not end it. -/
theorem react {n : Nat} {reaction : Host.Reaction}
    (h : ∀ o ∈ reaction.2, o.mark ≠ .finish ∧ o ≠ .serverStop) :
    Calm command (command.react n reaction) where
  course := .react command n reaction
  neutral x hx := by
    obtain ⟨o, ho, rfl⟩ := List.mem_map.mp hx
    exact Observation.neutral_call (h o ho).1 (h o ho).2

end Calm

namespace BatchUpload

variable (lib : Library) (media : MediaSet)

theorem calm_status (command : BatchUpload) (status : UploadStatus) :
    Calm command (command.status lib status) := by
  unfold BatchUpload.status
  cases command.operation with
  | none => exact .single rfl (.refl command)
  | some active =>
    dsimp only
    split
    · cases command.operations[active]? with
      | none => exact .still command
      | some w =>
        dsimp only
        split
        next => exact ⟨.refl command, List.forall_mem_singleton.mpr rfl⟩
        next reaction hload =>
          obtain ⟨-, hmodest⟩ := w.operation.modest_loadList lib hload
          have hcalls : ∀ o ∈ reaction.2, o.mark ≠ .finish ∧ o ≠ .serverStop :=
            fun o ho => ⟨(hmodest o ho).1, (hmodest o ho).2.1⟩
          have hcalm : Calm command (command.react active reaction) := .react hcalls
          refine ⟨⟨hcalm.course.count, rfl, rfl, rfl⟩, ?_⟩
          exact List.forall_mem_cons.mpr ⟨rfl, hcalm.neutral⟩
    · exact .still command

theorem calm_fileRequest (command : BatchUpload) (remote : Endpoint)
    (filename loadPartNumber : Text) (checkValue : CheckValue) :
    Calm command (command.fileRequest media remote filename loadPartNumber checkValue) := by
  unfold BatchUpload.fileRequest
  cases hactive : command.operation with
  | none => exact .single rfl (.refl command)
  | some active =>
    dsimp only
    split
    · exact .single rfl (.refl command)
    · split
      · exact .single rfl (.refl command)
      · exact .single rfl ⟨rfl, hactive.symm, rfl, rfl⟩

/-- A call that does not end an operation leaves the course of the batch alone. -/
theorem calm_deliver (command : BatchUpload) (number : Nat) (next : Operation.StartResult)
    {o : Output} (hmark : o.mark ≠ .finish) (hstop : o ≠ .serverStop) :
    Calm command (command.deliver lib media number next o) := by
  have hcall : (Observation.call number o).neutral = true := Observation.neutral_call hmark hstop
  have hperform := SameCourse.perform command number o
  unfold BatchUpload.deliver
  dsimp only
  split
  · exact ⟨hperform, List.forall_mem_cons.mpr ⟨hcall, List.forall_mem_singleton.mpr rfl⟩⟩
  · have hhandler : Calm (command.perform number o)
        ((command.perform number o).handler lib media next o) := by
      unfold BatchUpload.handler
      split
      · exact absurd rfl hmark
      · exact calm_status lib _ _
      · exact calm_fileRequest media _ _ _ _ _
      · exact .still _
    exact ⟨hperform.trans hhandler.course, List.forall_mem_cons.mpr ⟨hcall, hhandler.neutral⟩⟩

/-- The calls behind `finished` are not for the handler. -/
theorem deliver_silent (command : BatchUpload) (number : Nat) (next : Operation.StartResult)
    {o : Output} (h : forHandler o = false) :
    command.deliver lib media number next o =
      { command := command.perform number o, out := [.call number o] } := by
  unfold BatchUpload.deliver BatchUpload.handler
  cases o <;> first | rfl | cases h

theorem nextBatchTarget_out (command : BatchUpload) (next : Operation.StartResult) :
    ∃ x rest, (command.nextBatchTarget next).out = x :: rest ∧
      (x = .done ∨ ∃ number target, x = .started number target) := by
  unfold nextBatchTarget
  split
  · exact ⟨_, _, rfl, .inl rfl⟩
  · exact ⟨_, _, rfl, .inr ⟨_, _, rfl⟩⟩

theorem finished_out (command : BatchUpload) (code : StatusCode) (next : Operation.StartResult) :
    ∃ x rest, (command.finished code next).out = x :: rest ∧
      (x = .done ∨ ∃ number target, x = .started number target) := by
  unfold BatchUpload.finished
  dsimp only
  split
  · exact ⟨_, _, rfl, .inl rfl⟩
  · exact nextBatchTarget_out _ next

theorem count_le_nextBatchTarget (command : BatchUpload) (next : Operation.StartResult) :
    command.operations.length ≤ (command.nextBatchTarget next).command.operations.length := by
  unfold nextBatchTarget
  split
  · exact Nat.le_refl _
  · simp [BatchUpload.react]

/-- Operations are never given up. -/
theorem count_le_deliver (command : BatchUpload) (number : Nat) (next : Operation.StartResult)
    (o : Output) : command.operations.length ≤
      (command.deliver lib media number next o).command.operations.length := by
  by_cases hmark : o.mark = .finish
  · have hcount := (SameCourse.perform command number o).count
    cases o with
    | finished code description =>
      unfold BatchUpload.deliver
      dsimp only
      split
      next => exact hcount.ge
      next =>
        unfold BatchUpload.handler BatchUpload.finished
        dsimp only
        split
        · exact hcount.ge
        · exact hcount.ge.trans (count_le_nextBatchTarget
            { command.perform number (.finished code description) with operation := none } next)
    | _ => cases hmark
  · by_cases hstop : o = .serverStop
    · rw [hstop, deliver_silent lib media command number next rfl]
      exact (SameCourse.perform command number .serverStop).count.ge
    · exact (calm_deliver lib media command number next hmark hstop).course.count.ge

/-! ## Steps -/

variable {lib : Library} {media : MediaSet} {command command' : BatchUpload}
  {out : List Observation}

theorem step_execute {next : Operation.StartResult}
    (h : command.step lib media (.execute next) = some (command', out)) :
    command.executed = false ∧ command' =
        ({ command with executed := true }.nextBatchTarget next).command ∧
      out = ({ command with executed := true }.nextBatchTarget next).out := by
  unfold step at h
  cases hexecuted : command.executed with
  | true => simp [hexecuted] at h
  | false =>
    rw [hexecuted] at h
    cases h
    exact ⟨rfl, rfl, rfl⟩

theorem step_operation {number : Nat} {event : Host.Event} {next : Operation.StartResult}
    (h : command.step lib media (.operation number event next) = some (command', out)) :
    ∃ w v r, command.operations[number]? = some w ∧ w.callback lib event = some (v, r) ∧
      command' = (command.run lib media number next v r).command ∧
      out = (command.run lib media number next v r).out := by
  simp only [step] at h
  cases hw : command.operations[number]? with
  | none =>
    rw [hw] at h
    cases h
  | some w =>
    rw [hw] at h
    obtain ⟨⟨v, r⟩, hcallback, hrun⟩ := Option.map_eq_some_iff.mp h
    cases hrun
    exact ⟨w, v, r, rfl, hcallback, rfl, rfl⟩

theorem step_fileCompleted {operation : Nat} {status : TransferStatus}
    (h : command.step lib media (.fileCompleted operation status) = some (command', out)) :
    operation ∈ command.transfers ∧ command' = ({ command with
        transfers := command.transfers.erase operation }.fileCompleted operation).command ∧
      out = ({ command with
        transfers := command.transfers.erase operation }.fileCompleted operation).out := by
  simp only [step] at h
  split at h
  next hmem =>
    cases h
    exact ⟨hmem, rfl, rfl⟩
  next => cases h

end BatchUpload

end Arinc615a.Commands
