import Arinc615a.Reasoning.Reactive

/-!
# Laws over what is seen of a run

A law keeps a memory of the outputs so far, and says of each output whether it may come at that
point.
-/

namespace Reasoning

structure Law (γ ω : Type) where
  next : γ → ω → γ
  Allowed : γ → ω → Prop

namespace Law

variable {γ ω : Type} (law : Law γ ω)

def after (memory : γ) (out : List ω) : γ := out.foldl law.next memory

def Obeyed : γ → List ω → Prop
  | _, [] => True
  | memory, o :: out => law.Allowed memory o ∧ Obeyed (law.next memory o) out

@[simp] theorem after_nil (memory : γ) : law.after memory [] = memory := rfl

@[simp] theorem after_cons (memory : γ) (o : ω) (out : List ω) :
    law.after memory (o :: out) = law.after (law.next memory o) out := rfl

@[simp] theorem obeyed_nil (memory : γ) : law.Obeyed memory [] := trivial

@[simp] theorem obeyed_cons (memory : γ) (o : ω) (out : List ω) :
    law.Obeyed memory (o :: out) ↔
      law.Allowed memory o ∧ law.Obeyed (law.next memory o) out := Iff.rfl

theorem obeyed_append (memory : γ) (out out' : List ω) :
    law.Obeyed memory (out ++ out') ↔
      law.Obeyed memory out ∧ law.Obeyed (law.after memory out) out' := by
  induction out generalizing memory with
  | nil => simp
  | cons o out ih => simp only [List.cons_append, obeyed_cons, after_cons, ih, and_assoc]

/-- Outputs that the law has nothing to do with. -/
theorem obeyed_of_forall {memory : γ} {out : List ω}
    (h : ∀ o ∈ out, law.Allowed memory o ∧ law.next memory o = memory) :
    law.Obeyed memory out ∧ law.after memory out = memory := by
  induction out with
  | nil => exact ⟨trivial, rfl⟩
  | cons o out ih =>
    obtain ⟨hallowed, hnext⟩ := h o (List.mem_cons_self ..)
    rw [obeyed_cons, after_cons, hnext]
    obtain ⟨hrest, hafter⟩ := ih fun x hx => h x (List.mem_cons_of_mem _ hx)
    exact ⟨⟨hallowed, hrest⟩, hafter⟩

/-- What is seen was allowed at its time. -/
theorem allowed_of_mem {memory : γ} {out : List ω} (h : law.Obeyed memory out) {o : ω}
    (ho : o ∈ out) : ∃ memory', law.Allowed memory' o := by
  obtain ⟨pre, post, rfl⟩ := List.append_of_mem ho
  exact ⟨_, ((law.obeyed_append memory pre (o :: post)).mp h).2.1⟩

/-- A run obeys the law exactly when its steps meet a condition, if single steps do, from states
that fit the memory, and if those that meet the condition lead to such states again. -/
theorem obeyed_run_iff {σ ε : Type} {sys : Reactive σ ε ω} {Fits : σ → γ → Prop}
    {Cond : σ → ε → Prop}
    (hobeyed : ∀ s memory e s' out, Fits s memory → sys.step s e = some (s', out) →
      (law.Obeyed memory out ↔ Cond s e))
    (hfits : ∀ s memory e s' out, Fits s memory → Cond s e → sys.step s e = some (s', out) →
      Fits s' (law.after memory out)) {s s' : σ} {memory : γ} {es : List ε} {out : List ω}
    (h0 : Fits s memory) (hrun : sys.run s es = some (s', out)) :
    law.Obeyed memory out ↔ sys.Throughout Cond s es := by
  induction es generalizing s memory out with
  | nil =>
    cases hrun
    exact iff_of_true trivial sys.throughout_nil
  | cons e es ih =>
    obtain ⟨s₁, out₁, out₂, hstep, hrest, rfl⟩ := sys.run_cons hrun
    rw [obeyed_append, hobeyed s memory e s₁ out₁ h0 hstep, sys.throughout_cons hstep]
    -- behind a step that meets the condition the memory fits again
    exact and_congr_right fun hcond =>
      ih (hfits s memory e s₁ out₁ h0 hcond hstep) hrest

/-- Each output is allowed by the memory of those before it. -/
theorem obeyed_iff (memory : γ) (out : List ω) :
    law.Obeyed memory out ↔ ∀ pre o post, out = pre ++ o :: post →
      law.Allowed (law.after memory pre) o := by
  constructor
  · rintro h pre o post rfl
    exact ((law.obeyed_append memory pre (o :: post)).mp h).2.1
  · intro h
    induction out generalizing memory with
    | nil => trivial
    | cons o out ih =>
      refine ⟨h [] o out rfl, ih _ fun pre x post hout => ?_⟩
      exact h (o :: pre) x post (by rw [hout, List.cons_append])

/-- A run obeys the law exactly when its steps meet a condition on the memory they are taken
with, if single steps do. -/
theorem obeyed_run_iff_taken {σ ε : Type} {sys : Reactive σ ε ω} {Cond : γ → σ → ε → Prop}
    (hobeyed : ∀ s memory e s' out, sys.step s e = some (s', out) →
      (law.Obeyed memory out ↔ Cond memory s e)) {s s' : σ} {memory : γ} {es : List ε}
    {out : List ω} (hrun : sys.run s es = some (s', out)) :
    law.Obeyed memory out ↔ ∀ pre e post s₁ out₁, es = pre ++ e :: post →
      sys.run s pre = some (s₁, out₁) → Cond (law.after memory out₁) s₁ e := by
  induction es generalizing s memory out with
  | nil =>
    cases hrun
    exact iff_of_true trivial sys.forall_taken_nil
  | cons e es ih =>
    obtain ⟨s₁, out₁, out₂, hstep, hrest, rfl⟩ := sys.run_cons hrun
    have hafter (out' : List ω) : law.after memory (out₁ ++ out') =
        law.after (law.after memory out₁) out' := List.foldl_append ..
    rw [obeyed_append, hobeyed s memory e s₁ out₁ hstep, ih hrest,
      sys.forall_taken_cons hstep (Q := fun s₁ out₁ e => Cond (law.after memory out₁) s₁ e)]
    simp only [hafter, after_nil]

/-- A law whose memory is all that has been seen. -/
def history (Allowed : List ω → ω → Prop) : Law (List ω) ω where
  next past o := past ++ [o]
  Allowed := Allowed

@[simp] theorem after_history (Allowed : List ω → ω → Prop) (past out : List ω) :
    (history Allowed).after past out = past ++ out := by
  induction out generalizing past with
  | nil => rw [after_nil, List.append_nil]
  | cons o out ih =>
    rw [after_cons, ih]
    show past ++ [o] ++ out = _
    rw [List.append_assoc, List.singleton_append]

theorem obeyed_history_iff (Allowed : List ω → ω → Prop) (out : List ω) :
    (history Allowed).Obeyed [] out ↔ ∀ pre o post, out = pre ++ o :: post → Allowed pre o := by
  rw [obeyed_iff]
  simp only [after_history, List.nil_append]
  exact Iff.rfl

end Law

/-! ## Rest behind a finish -/

namespace Mark

variable {ω : Type} (mark : ω → Mark)

/-- While a finish holds there is no activity; another finish may come. -/
def AtRest (out : List ω) : Prop :=
  ∀ pre o post, out = pre ++ o :: post → Closed mark pre → mark o ≠ .activity

def restLaw : Law Bool ω where
  next closed o := (mark o).next closed
  Allowed closed o := closed = true → mark o ≠ .activity

theorem rest_of_forall {out : List ω} (h : ∀ o ∈ out, mark o ≠ .activity) (closed : Bool) :
    (restLaw mark).Obeyed closed out := by
  rw [Law.obeyed_iff]
  rintro pre o post rfl -
  exact h o (List.mem_append_right _ (List.mem_cons_self ..))

theorem atRest_iff (out : List ω) : AtRest mark out ↔ (restLaw mark).Obeyed false out := by
  rw [Law.obeyed_iff]
  unfold AtRest
  simp only [closed_iff]
  exact Iff.rfl

end Mark

/-- A run is at rest behind its finishes exactly when it takes no harmful step there, if single
steps are. -/
theorem Reactive.atRest_run_iff {σ ε ω : Type} {sys : Reactive σ ε ω} {mark : ω → Mark}
    {Harmless : σ → ε → Prop}
    (hstep : ∀ s closed e s' out, sys.step s e = some (s', out) →
      ((Mark.restLaw mark).Obeyed closed out ↔ (closed = true → Harmless s e))) {s s' : σ}
    {es : List ε} {out : List ω} (hrun : sys.run s es = some (s', out)) :
    Mark.AtRest mark out ↔ sys.HarmlessRun mark Harmless s es := by
  rw [Mark.atRest_iff, (Mark.restLaw mark).obeyed_run_iff_taken hstep hrun]
  unfold HarmlessRun
  simp only [Mark.closed_iff]
  exact Iff.rfl

end Reasoning
