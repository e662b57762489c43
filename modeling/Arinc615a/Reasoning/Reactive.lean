import Mathlib.Data.List.Induction

/-!
# Systems that answer events

A `Reactive` system takes an event in a state and answers with outputs; an event that cannot happen
in a state has no step.  A run threads the state through a list of events.  The second half is
about protocols that start and finish: whether a run keeps still between a finish and the next
start is decided step by step.
-/

namespace Reasoning

/-- A specification of what is seen between two states, which holds of parts put together. -/
structure Composable {τ ω : Type} (Spec : τ → List ω → τ → Prop) : Prop where
  nil : ∀ t, Spec t [] t
  append : ∀ {t t' t'' out out'}, Spec t out t' → Spec t' out' t'' → Spec t (out ++ out') t''

structure Reactive (σ ε ω : Type) where
  step : σ → ε → Option (σ × List ω)

namespace Reactive

variable {σ ε ω : Type} (sys : Reactive σ ε ω)

def run : σ → List ε → Option (σ × List ω)
  | s, [] => some (s, [])
  | s, e :: es =>
    match sys.step s e with
    | none => none
    | some (s', out) =>
      match run s' es with
      | none => none
      | some (s'', out') => some (s'', out ++ out')

@[simp] theorem run_nil (s : σ) : sys.run s [] = some (s, []) := rfl

theorem run_cons {s : σ} {e : ε} {es : List ε} {r : σ × List ω}
    (h : sys.run s (e :: es) = some r) :
    ∃ s' out out', sys.step s e = some (s', out) ∧ sys.run s' es = some (r.1, out') ∧
      r.2 = out ++ out' := by
  unfold run at h
  cases hstep : sys.step s e with
  | none => simp [hstep] at h
  | some p =>
    obtain ⟨s', out⟩ := p
    cases hrun : sys.run s' es with
    | none => simp [hstep, hrun] at h
    | some q =>
      obtain ⟨s'', out'⟩ := q
      simp only [hstep, hrun, Option.some.injEq] at h
      subst h
      exact ⟨s', out, out', rfl, hrun, rfl⟩

theorem run_cons_of_step {s s' s'' : σ} {e : ε} {es : List ε} {out out' : List ω}
    (hstep : sys.step s e = some (s', out)) (hrun : sys.run s' es = some (s'', out')) :
    sys.run s (e :: es) = some (s'', out ++ out') := by
  unfold run
  simp only [hstep, hrun]

theorem run_append {s s₁ s₂ : σ} {es₁ es₂ : List ε} {out₁ out₂ : List ω}
    (h₁ : sys.run s es₁ = some (s₁, out₁)) (h₂ : sys.run s₁ es₂ = some (s₂, out₂)) :
    sys.run s (es₁ ++ es₂) = some (s₂, out₁ ++ out₂) := by
  induction es₁ generalizing s out₁ with
  | nil =>
    cases h₁
    exact h₂
  | cons e es₁ ih =>
    obtain ⟨s', out, out', hstep, hrest, rfl⟩ := sys.run_cons h₁
    rw [List.cons_append, List.append_assoc]
    exact sys.run_cons_of_step hstep (ih hrest)

theorem run_of_append {s s₁ s₂ : σ} {es₁ es₂ : List ε} {out₁ out : List ω}
    (h₁ : sys.run s es₁ = some (s₁, out₁)) (h : sys.run s (es₁ ++ es₂) = some (s₂, out)) :
    ∃ out₂, sys.run s₁ es₂ = some (s₂, out₂) ∧ out = out₁ ++ out₂ := by
  induction es₁ generalizing s out₁ out with
  | nil =>
    cases h₁
    exact ⟨out, h, rfl⟩
  | cons e es₁ ih =>
    obtain ⟨s', o, o', hstep, hrest, rfl⟩ := sys.run_cons h₁
    obtain ⟨t, p, p', hstep', hrest', rfl⟩ := sys.run_cons h
    rw [hstep] at hstep'
    cases hstep'
    obtain ⟨out₂, h₂, rfl⟩ := ih hrest hrest'
    exact ⟨out₂, h₂, (List.append_assoc ..).symm⟩

/-- A run stops on the way wherever it is cut. -/
theorem run_cut {s s' : σ} {es₁ es₂ : List ε} {out : List ω}
    (h : sys.run s (es₁ ++ es₂) = some (s', out)) :
    ∃ s₁ out₁ out₂, sys.run s es₁ = some (s₁, out₁) ∧ sys.run s₁ es₂ = some (s', out₂) := by
  induction es₁ generalizing s out with
  | nil => exact ⟨s, [], out, rfl, h⟩
  | cons e es₁ ih =>
    obtain ⟨t, o, o', hstep, hrest, -⟩ := sys.run_cons h
    obtain ⟨s₁, out₁, out₂, hfirst, hsecond⟩ := ih hrest
    exact ⟨s₁, o ++ out₁, out₂, sys.run_cons_of_step hstep hfirst, hsecond⟩

/-- What every step preserves holds after every run. -/
theorem run_invariant {Inv : σ → Prop}
    (hstep : ∀ s e s' out, Inv s → sys.step s e = some (s', out) → Inv s') {s s' : σ}
    {es : List ε} {out : List ω} (h0 : Inv s) (hrun : sys.run s es = some (s', out)) : Inv s' := by
  induction es generalizing s out with
  | nil =>
    cases hrun
    exact h0
  | cons e es ih =>
    obtain ⟨s₁, out₁, out₂, he, hrest, -⟩ := sys.run_cons hrun
    exact ih (hstep s e s₁ out₁ h0 he) hrest

/-- The same for what is preserved together with the events so far. -/
theorem run_past {P : List ε → σ → Prop}
    (hstep : ∀ past s e s' out, P past s → sys.step s e = some (s', out) →
      P (past ++ [e]) s') {s s' : σ} {past es : List ε} {out : List ω} (h0 : P past s)
    (hrun : sys.run s es = some (s', out)) : P (past ++ es) s' := by
  induction es generalizing s past out with
  | nil =>
    cases hrun
    simpa using h0
  | cons e es ih =>
    obtain ⟨s₁, out₁, out₂, he, hrest, -⟩ := sys.run_cons hrun
    rw [List.append_cons]
    exact ih (hstep past s e s₁ out₁ h0 he) hrest

/-- If every step keeps to a specification of what is seen between two states, so does a run; the
specification may see a part of the states only. -/
theorem run_conforms {τ : Type} {Inv : σ → Prop} {view : σ → τ} {Spec : τ → List ω → τ → Prop}
    (hspec : Composable Spec)
    (hstep : ∀ s e s' out, Inv s → sys.step s e = some (s', out) →
      Inv s' ∧ Spec (view s) out (view s')) {s s' : σ} {es : List ε} {out : List ω} (h0 : Inv s)
    (hrun : sys.run s es = some (s', out)) : Spec (view s) out (view s') := by
  induction es generalizing s out with
  | nil =>
    cases hrun
    exact hspec.nil _
  | cons e es ih =>
    obtain ⟨s₁, out₁, out₂, he, hrest, hout⟩ := sys.run_cons hrun
    dsimp only at hrest hout
    obtain ⟨hnext, hfirst⟩ := hstep s e s₁ out₁ h0 he
    rw [hout]
    exact hspec.append hfirst (ih hnext hrest)

/-- A run on fixed events is evaluated. -/
theorem exists_run_of_any {P : σ → List ω → Prop} [∀ s out, Decidable (P s out)] {s : σ}
    {es : List ε} (h : (sys.run s es).any (fun r => decide (P r.1 r.2)) = true) :
    ∃ s' out, sys.run s es = some (s', out) ∧ P s' out := by
  obtain ⟨⟨s', out⟩, hrun, hp⟩ := Option.any_eq_true .. |>.mp h
  exact ⟨s', out, hrun, of_decide_eq_true hp⟩

/-- The states that a run reaches, one by one: the first, and those reached behind the first
step. -/
theorem forall_reached_cons {Q : σ → List ω → Prop} {s s' : σ} {e : ε} {es : List ε}
    {out : List ω} (hstep : sys.step s e = some (s', out)) :
    (∀ pre post s₁ out₁, e :: es = pre ++ post → sys.run s pre = some (s₁, out₁) → Q s₁ out₁) ↔
      Q s [] ∧ ∀ pre post s₁ out₁, es = pre ++ post → sys.run s' pre = some (s₁, out₁) →
        Q s₁ (out ++ out₁) := by
  constructor
  · intro h
    refine ⟨h [] (e :: es) s [] rfl rfl, fun pre post s₁ out₁ hes hpre => ?_⟩
    exact h (e :: pre) post s₁ (out ++ out₁) (by rw [hes, List.cons_append])
      (sys.run_cons_of_step hstep hpre)
  · rintro ⟨hfirst, hrest⟩ pre post s₁ out₁ hsplit hpre
    cases pre with
    | nil =>
      cases hpre
      exact hfirst
    | cons e₀ pre =>
      cases hsplit
      obtain ⟨t, o, o', ht, hpre, rfl⟩ := sys.run_cons hpre
      rw [hstep] at ht
      cases ht
      exact hrest pre post s₁ o' rfl hpre

/-- The same for the steps of a run, each with the state it is taken in. -/
theorem forall_taken_cons {Q : σ → List ω → ε → Prop} {s s' : σ} {e : ε} {es : List ε}
    {out : List ω} (hstep : sys.step s e = some (s', out)) :
    (∀ pre e' post s₁ out₁, e :: es = pre ++ e' :: post → sys.run s pre = some (s₁, out₁) →
        Q s₁ out₁ e') ↔
      Q s [] e ∧ ∀ pre e' post s₁ out₁, es = pre ++ e' :: post →
        sys.run s' pre = some (s₁, out₁) → Q s₁ (out ++ out₁) e' := by
  constructor
  · intro h
    refine ⟨h [] e es s [] rfl rfl, fun pre e' post s₁ out₁ hes hpre => ?_⟩
    exact h (e :: pre) e' post s₁ (out ++ out₁) (by rw [hes, List.cons_append])
      (sys.run_cons_of_step hstep hpre)
  · rintro ⟨hfirst, hrest⟩ pre e' post s₁ out₁ hsplit hpre
    -- the step looked at is the first one, or one of the run behind it
    cases pre with
    | nil =>
      cases hsplit
      cases hpre
      exact hfirst
    | cons e₀ pre =>
      cases hsplit
      obtain ⟨t, o, o', ht, hpre, rfl⟩ := sys.run_cons hpre
      rw [hstep] at ht
      cases ht
      exact hrest pre e' post s₁ o' rfl hpre

/-- An empty run takes no step. -/
theorem forall_taken_nil {Q : σ → List ω → ε → Prop} {s : σ} (pre : List ε) (e : ε)
    (post : List ε) (s₁ : σ) (out₁ : List ω) (hes : [] = pre ++ e :: post) :
    sys.run s pre = some (s₁, out₁) → Q s₁ out₁ e := by
  cases pre <;> cases hes

/-- Every step of a run meets a condition on the state it is taken in. -/
def Throughout (Cond : σ → ε → Prop) (s : σ) (es : List ε) : Prop :=
  ∀ pre e post s₁ out₁, es = pre ++ e :: post → sys.run s pre = some (s₁, out₁) → Cond s₁ e

theorem throughout_nil {Cond : σ → ε → Prop} {s : σ} : sys.Throughout Cond s [] :=
  sys.forall_taken_nil

theorem throughout_cons {Cond : σ → ε → Prop} {s s' : σ} {e : ε} {es : List ε} {out : List ω}
    (hstep : sys.step s e = some (s', out)) :
    sys.Throughout Cond s (e :: es) ↔ Cond s e ∧ sys.Throughout Cond s' es :=
  sys.forall_taken_cons hstep

/-- A run ends at an event that cannot happen. -/
theorem throughout_stuck {Cond : σ → ε → Prop} {s : σ} {e : ε} {es : List ε}
    (hstep : sys.step s e = none) : sys.Throughout Cond s (e :: es) ↔ Cond s e := by
  constructor
  · intro h
    exact h [] e es s [] rfl rfl
  · intro hcond pre e' post s₁ out₁ hes hpre
    cases pre with
    | nil =>
      cases hes
      cases hpre
      exact hcond
    | cons e₁ pre =>
      cases hes
      obtain ⟨s₂, out₂, out₃, hfirst, -⟩ := sys.run_cons hpre
      rw [hstep] at hfirst
      cases hfirst

/-- Whether a condition holds throughout is found out by taking the steps. -/
instance instDecidableThroughout {Cond : σ → ε → Prop} [∀ s e, Decidable (Cond s e)] :
    (s : σ) → (es : List ε) → Decidable (sys.Throughout Cond s es)
  | _, [] => .isTrue sys.throughout_nil
  | s, e :: es =>
    match hstep : sys.step s e with
    | none => decidable_of_iff (Cond s e) (sys.throughout_stuck hstep).symm
    | some (s', _) =>
      letI : Decidable (sys.Throughout Cond s' es) := instDecidableThroughout s' es
      decidable_of_iff (Cond s e ∧ sys.Throughout Cond s' es) (sys.throughout_cons hstep).symm

/-- Every step of a run meets a condition on all that there is to a step. -/
def EachStep (P : σ → ε → σ → List ω → Prop) (s : σ) (es : List ε) : Prop :=
  sys.Throughout (fun s e => ∀ s' out, sys.step s e = some (s', out) → P s e s' out) s es

/-- What single steps do exactly under a condition, all steps of a run do exactly if the condition
holds throughout. -/
theorem eachStep_iff {Inv : σ → Prop} {P : σ → ε → σ → List ω → Prop} {Cond : σ → ε → Prop}
    (hiff : ∀ s e s' out, Inv s → sys.step s e = some (s', out) → (P s e s' out ↔ Cond s e))
    (hinv : ∀ s e s' out, Inv s → sys.step s e = some (s', out) → Inv s') {s s' : σ}
    {es : List ε} {out : List ω} (h0 : Inv s) (hrun : sys.run s es = some (s', out)) :
    sys.EachStep P s es ↔ sys.Throughout Cond s es := by
  induction es generalizing s out with
  | nil => exact iff_of_true sys.throughout_nil sys.throughout_nil
  | cons e es ih =>
    obtain ⟨s₁, out₁, out₂, hstep, hrest, -⟩ := sys.run_cons hrun
    have hfirst : (∀ s₂ out₂, sys.step s e = some (s₂, out₂) → P s e s₂ out₂) ↔ Cond s e := by
      rw [← hiff s e s₁ out₁ h0 hstep]
      refine ⟨fun h => h s₁ out₁ hstep, fun h s₂ out₂ hstep' => ?_⟩
      -- a step has one result
      rw [hstep] at hstep'
      cases hstep'
      exact h
    unfold EachStep at ih ⊢
    rw [sys.throughout_cons hstep, sys.throughout_cons hstep, hfirst,
      ih (hinv s e s₁ out₁ h0 hstep) hrest]

/-- What single steps keep exactly under a condition holds of all states that a run reaches exactly
if the condition holds throughout. -/
theorem reached_iff {P : σ → Prop} {Cond : σ → ε → Prop}
    (hiff : ∀ s e s' out, P s → sys.step s e = some (s', out) → (P s' ↔ Cond s e)) {s s' : σ}
    {es : List ε} {out : List ω} (h0 : P s) (hrun : sys.run s es = some (s', out)) :
    (∀ pre post s₁ out₁, es = pre ++ post → sys.run s pre = some (s₁, out₁) → P s₁) ↔
      sys.Throughout Cond s es := by
  induction es generalizing s out with
  | nil =>
    refine iff_of_true (fun pre post s₁ out₁ hes hpre => ?_) sys.throughout_nil
    obtain ⟨rfl, rfl⟩ := List.nil_eq_append_iff.mp hes
    cases hpre
    exact h0
  | cons e es ih =>
    obtain ⟨s₁, out₁, out₂, hstep, hrest, -⟩ := sys.run_cons hrun
    rw [sys.forall_reached_cons (Q := fun s₁ _ => P s₁) hstep, sys.throughout_cons hstep,
      ← hiff s e s₁ out₁ h0 hstep]
    constructor
    · rintro ⟨-, hreached⟩
      -- the state behind the first step is the first one of the rest
      have hnext := hreached [] es s₁ [] rfl rfl
      exact ⟨hnext, (ih hnext hrest).mp hreached⟩
    · rintro ⟨hnext, hthroughout⟩
      exact ⟨h0, (ih hnext hrest).mpr hthroughout⟩

theorem throughout_of_forall {Cond : σ → ε → Prop} {s : σ} {es : List ε}
    (h : ∀ e ∈ es, ∀ s, Cond s e) : sys.Throughout Cond s es := by
  intro pre e post s₁ out₁ hes _
  exact h e (by simp [hes]) s₁

/-- What steps under a condition preserve together with the outputs so far. -/
theorem run_history_throughout {Inv : σ → List ω → Prop} {Cond : σ → ε → Prop}
    (hstep : ∀ s past e s' out, Inv s past → Cond s e → sys.step s e = some (s', out) →
      Inv s' (past ++ out)) {s s' : σ} {past out : List ω} {es : List ε} (h0 : Inv s past)
    (hcond : sys.Throughout Cond s es) (hrun : sys.run s es = some (s', out)) :
    Inv s' (past ++ out) := by
  induction es generalizing s past out with
  | nil =>
    cases hrun
    simpa using h0
  | cons e es ih =>
    obtain ⟨s₁, out₁, out₂, he, hrest, hout⟩ := sys.run_cons hrun
    dsimp only at hrest hout
    obtain ⟨hfirst, hothers⟩ := (sys.throughout_cons he).mp hcond
    rw [hout, ← List.append_assoc]
    -- the outputs of the first step are past for the rest of the run
    exact ih (hstep s past e s₁ out₁ h0 hfirst he) hothers hrest

/-- What every step preserves together with the outputs so far. -/
theorem run_history {Inv : σ → List ω → Prop}
    (hstep : ∀ s past e s' out, Inv s past → sys.step s e = some (s', out) →
      Inv s' (past ++ out)) {s s' : σ} {past out : List ω} {es : List ε} (h0 : Inv s past)
    (hrun : sys.run s es = some (s', out)) : Inv s' (past ++ out) := by
  have hall : sys.Throughout (fun _ _ => True) s es :=
    sys.throughout_of_forall fun _ _ _ => trivial
  exact sys.run_history_throughout (fun s past e s' out h _ => hstep s past e s' out h) h0 hall hrun

/-- If single steps under a condition keep an invariant and output nothing bad, then so do runs in
which the condition holds throughout. -/
theorem forall_run {Inv : σ → Prop} {Good : ω → Prop} {Cond : σ → ε → Prop}
    (hgood : ∀ s e s' out, Inv s → Cond s e → sys.step s e = some (s', out) →
      Inv s' ∧ ∀ o ∈ out, Good o) {s s' : σ} {es : List ε} {out : List ω} (h0 : Inv s)
    (hcond : sys.Throughout Cond s es) (hrun : sys.run s es = some (s', out)) :
    ∀ o ∈ out, Good o := by
  induction es generalizing s out with
  | nil =>
    cases hrun
    exact List.forall_mem_nil _
  | cons e es ih =>
    obtain ⟨s₁, out₁, out₂, hstep, hrest, rfl⟩ := sys.run_cons hrun
    obtain ⟨hfirst, hothers⟩ := (sys.throughout_cons hstep).mp hcond
    obtain ⟨hnext, hout⟩ := hgood s e s₁ out₁ h0 hfirst hstep
    exact List.forall_mem_append.mpr ⟨hout, ih hnext hothers hrest⟩

/-- If single steps keep the outputs so far good exactly under a condition, and the condition keeps
the invariant that this rests on, then so do runs exactly if the condition holds throughout.  All
steps are known to meet another condition. -/
theorem history_run_iff {Inv : σ → Prop} {Good : List ω → Prop} {Known Cond : σ → ε → Prop}
    (hpast : ∀ past out, Good (past ++ out) → Good past)
    (hgood : ∀ s past e s' out, Inv s → Known s e → sys.step s e = some (s', out) →
      (Good (past ++ out) ↔ Good past ∧ Cond s e))
    (hinv : ∀ s e s' out, Inv s → Known s e → Cond s e → sys.step s e = some (s', out) → Inv s')
    {s s' : σ} {es : List ε} {past out : List ω} (h0 : Inv s) (hknown : sys.Throughout Known s es)
    (hrun : sys.run s es = some (s', out)) :
    Good (past ++ out) ↔ Good past ∧ sys.Throughout Cond s es := by
  induction es generalizing s past out with
  | nil =>
    cases hrun
    rw [List.append_nil]
    exact (and_iff_left sys.throughout_nil).symm
  | cons e es ih =>
    obtain ⟨s₁, out₁, out₂, hstep, hrest, rfl⟩ := sys.run_cons hrun
    obtain ⟨hknown₁, hknown₂⟩ := (sys.throughout_cons hstep).mp hknown
    have hfirst := hgood s past e s₁ out₁ h0 hknown₁ hstep
    rw [sys.throughout_cons hstep, ← List.append_assoc]
    constructor
    · intro h
      -- only a good first step is known to keep the invariant
      obtain ⟨hbefore, hcond⟩ := hfirst.mp (hpast _ _ h)
      have hnext := hinv s e s₁ out₁ h0 hknown₁ hcond hstep
      exact ⟨hbefore, hcond, ((ih hnext hknown₂ hrest).mp h).2⟩
    · rintro ⟨hbefore, hcond, hthroughout⟩
      have hnext := hinv s e s₁ out₁ h0 hknown₁ hcond hstep
      exact (ih hnext hknown₂ hrest).mpr ⟨hfirst.mpr ⟨hbefore, hcond⟩, hthroughout⟩

/-- The same where the outputs are good or bad by themselves. -/
theorem forall_run_iff_throughout {Inv : σ → Prop} {Good : ω → Prop} {Known Cond : σ → ε → Prop}
    (hgood : ∀ s e s' out, Inv s → Known s e → sys.step s e = some (s', out) →
      ((∀ o ∈ out, Good o) ↔ Cond s e))
    (hinv : ∀ s e s' out, Inv s → Known s e → Cond s e → sys.step s e = some (s', out) → Inv s')
    {s s' : σ} {es : List ε} {out : List ω} (h0 : Inv s) (hknown : sys.Throughout Known s es)
    (hrun : sys.run s es = some (s', out)) :
    (∀ o ∈ out, Good o) ↔ sys.Throughout Cond s es := by
  let Fine (out : List ω) : Prop := ∀ o ∈ out, Good o
  have hpast : ∀ past out, Fine (past ++ out) → Fine past :=
    fun past out h => (List.forall_mem_append.mp h).1
  have hhistory : ∀ s past e s' out, Inv s → Known s e → sys.step s e = some (s', out) →
      (Fine (past ++ out) ↔ Fine past ∧ Cond s e) := by
    intro s past e s' out hs hknown hstep
    rw [← hgood s e s' out hs hknown hstep]
    exact List.forall_mem_append
  have hempty : Fine [] := List.forall_mem_nil Good
  rw [← and_iff_right (b := sys.Throughout Cond s es) hempty, ← List.nil_append out]
  exact sys.history_run_iff hpast hhistory hinv h0 hknown hrun

/-- The same for steps of which nothing else is known. -/
theorem forall_run_iff {Inv : σ → Prop} {Good : ω → Prop} {Cond : σ → ε → Prop}
    (hgood : ∀ s e s' out, Inv s → sys.step s e = some (s', out) →
      ((∀ o ∈ out, Good o) ↔ Cond s e))
    (hinv : ∀ s e s' out, Inv s → Cond s e → sys.step s e = some (s', out) → Inv s') {s s' : σ}
    {es : List ε} {out : List ω} (h0 : Inv s) (hrun : sys.run s es = some (s', out)) :
    (∀ o ∈ out, Good o) ↔ sys.Throughout Cond s es := by
  have hall : sys.Throughout (fun _ _ => True) s es :=
    sys.throughout_of_forall fun _ _ _ => trivial
  exact sys.forall_run_iff_throughout (fun s e s' out h _ => hgood s e s' out h)
    (fun s e s' out h _ => hinv s e s' out h) h0 hall hrun

end Reactive

/-! ## Starting and finishing -/

/-- What an output means for the life of an operation. -/
inductive Mark where
  | start
  | finish
  | activity
  | neutral
  deriving DecidableEq, Repr

namespace Mark

/-- Whether a finish was seen, and no start since. -/
def next (closed : Bool) : Mark → Bool
  | .start => false
  | .finish => true
  | .activity => closed
  | .neutral => closed

/-- Nothing but starts and neutral outputs may come while a finish holds. -/
def Allowed (closed : Bool) (m : Mark) : Prop := closed = true → m ≠ .finish ∧ m ≠ .activity

variable {ω : Type} (mark : ω → Mark)

def closedAfter (closed : Bool) (out : List ω) : Bool :=
  out.foldl (fun closed o => (mark o).next closed) closed

def Quiet : Bool → List ω → Prop
  | _, [] => True
  | closed, o :: out => (mark o).Allowed closed ∧ Quiet ((mark o).next closed) out

instance (closed : Bool) (m : Mark) : Decidable (m.Allowed closed) :=
  inferInstanceAs (Decidable (closed = true → _))

instance decidableQuiet : (closed : Bool) → (out : List ω) → Decidable (Quiet mark closed out)
  | _, [] => .isTrue trivial
  | closed, o :: out =>
    have := decidableQuiet ((mark o).next closed) out
    inferInstanceAs (Decidable ((mark o).Allowed closed ∧ _))

@[simp] theorem closedAfter_nil (closed : Bool) : closedAfter mark closed [] = closed := rfl

@[simp] theorem closedAfter_cons (closed : Bool) (o : ω) (out : List ω) :
    closedAfter mark closed (o :: out) = closedAfter mark ((mark o).next closed) out := rfl

theorem closedAfter_append (closed : Bool) (out out' : List ω) :
    closedAfter mark closed (out ++ out') =
      closedAfter mark (closedAfter mark closed out) out' :=
  List.foldl_append ..

@[simp] theorem quiet_nil (closed : Bool) : Quiet mark closed [] := trivial

@[simp] theorem quiet_cons (closed : Bool) (o : ω) (out : List ω) :
    Quiet mark closed (o :: out) ↔
      (mark o).Allowed closed ∧ Quiet mark ((mark o).next closed) out := Iff.rfl

theorem quiet_append (closed : Bool) (out out' : List ω) :
    Quiet mark closed (out ++ out') ↔
      Quiet mark closed out ∧ Quiet mark (closedAfter mark closed out) out' := by
  induction out generalizing closed with
  | nil => simp
  | cons o out ih => simp only [List.cons_append, quiet_cons, closedAfter_cons, ih, and_assoc]

theorem quiet_map {ω' : Type} {mark' : ω' → Mark} (f : ω → ω') (hmark : ∀ o, mark' (f o) = mark o)
    (closed : Bool) (out : List ω) : Quiet mark' closed (out.map f) ↔ Quiet mark closed out := by
  induction out generalizing closed with
  | nil => exact Iff.rfl
  | cons o out ih => simp only [List.map_cons, quiet_cons, hmark, ih]

/-- A finish has been called, and no start since. -/
def Closed (out : List ω) : Prop :=
  ∃ pre f mid, out = pre ++ f :: mid ∧ mark f = .finish ∧ ∀ o ∈ mid, mark o ≠ .start

/-- Between a finish and the next start there is no other finish and no activity. -/
def FinishOnce (out : List ω) : Prop :=
  ∀ pre f mid o post, out = pre ++ f :: (mid ++ o :: post) → mark f = .finish →
    (∀ x ∈ mid, mark x ≠ .start) → mark o ≠ .finish ∧ mark o ≠ .activity

theorem closedAfter_true {out : List ω} (h : ∀ o ∈ out, mark o ≠ .start) :
    closedAfter mark true out = true := by
  induction out with
  | nil => rfl
  | cons o out ih =>
    have ho := h o (List.mem_cons_self ..)
    have hnext : (mark o).next true = true := by
      cases hm : mark o with
      | start => exact absurd hm ho
      | _ => rfl
    rw [closedAfter_cons, hnext]
    exact ih fun x hx => h x (List.mem_cons_of_mem _ hx)

theorem closed_iff (out : List ω) : Closed mark out ↔ closedAfter mark false out = true := by
  constructor
  · rintro ⟨pre, f, mid, rfl, hf, hmid⟩
    rw [closedAfter_append, closedAfter_cons, hf]
    exact closedAfter_true mark hmid
  · intro h
    -- from the last output back: a start opens, a finish closes, the others leave it
    induction out using List.reverseRecOn with
    | nil => cases h
    | append_singleton out o ih =>
      rw [closedAfter_append] at h
      cases hm : mark o with
      | start => simp [hm, next] at h
      | finish => exact ⟨out, o, [], rfl, hm, fun x hx => nomatch hx⟩
      | activity | neutral =>
        obtain ⟨pre, f, mid, rfl, hf, hmid⟩ := ih (by simpa [hm, next] using h)
        refine ⟨pre, f, mid ++ [o], by simp, hf, fun x hx => ?_⟩
        rcases List.mem_append.mp hx with hx | hx
        · exact hmid x hx
        · rw [List.mem_singleton.mp hx, hm]
          decide

/-- A start has been seen, and no finish since. -/
def Open (out : List ω) : Prop :=
  ∃ pre s mid, out = pre ++ s :: mid ∧ mark s = .start ∧ ∀ o ∈ mid, mark o ≠ .finish

theorem closedAfter_false {out : List ω} (h : ∀ o ∈ out, mark o ≠ .finish) :
    closedAfter mark false out = false := by
  induction out with
  | nil => rfl
  | cons o out ih =>
    have ho := h o (List.mem_cons_self ..)
    have hnext : (mark o).next false = false := by
      cases hm : mark o with
      | finish => exact absurd hm ho
      | _ => rfl
    rw [closedAfter_cons, hnext]
    exact ih fun x hx => h x (List.mem_cons_of_mem _ hx)

theorem open_iff (out : List ω) : Open mark out ↔ closedAfter mark true out = false := by
  constructor
  · rintro ⟨pre, s, mid, rfl, hs, hmid⟩
    rw [closedAfter_append, closedAfter_cons, hs]
    exact closedAfter_false mark hmid
  · intro h
    induction out using List.reverseRecOn with
    | nil => cases h
    | append_singleton out o ih =>
      rw [closedAfter_append] at h
      cases hm : mark o with
      | start => exact ⟨out, o, [], rfl, hm, fun x hx => nomatch hx⟩
      | finish => simp [hm, next] at h
      | activity | neutral =>
        obtain ⟨pre, s, mid, rfl, hs, hmid⟩ := ih (by simpa [hm, next] using h)
        refine ⟨pre, s, mid ++ [o], by simp, hs, fun x hx => ?_⟩
        rcases List.mem_append.mp hx with hx | hx
        · exact hmid x hx
        · rw [List.mem_singleton.mp hx, hm]
          decide

/-- Nothing finishes in outputs that leave things open, unless a start follows. -/
theorem noFinish_of_open {out : List ω} (hstart : ∀ o ∈ out, mark o ≠ .start) {closed : Bool}
    (h : closedAfter mark closed out = false) : ∀ o ∈ out, mark o ≠ .finish := by
  intro o ho hfinish
  obtain ⟨pre, post, rfl⟩ := List.append_of_mem ho
  rw [closedAfter_append, closedAfter_cons, hfinish] at h
  have hpost : closedAfter mark true post = true :=
    closedAfter_true mark fun x hx => hstart x (List.mem_append_right _ (List.mem_cons_of_mem _ hx))
  exact absurd (hpost.symm.trans h) (by decide)

theorem quiet_iff (closed : Bool) (out : List ω) :
    Quiet mark closed out ↔ ∀ pre o post, out = pre ++ o :: post →
      (mark o).Allowed (closedAfter mark closed pre) := by
  constructor
  · rintro h pre o post rfl
    exact ((quiet_append mark closed pre (o :: post)).mp h).2.1
  · intro h
    induction out generalizing closed with
    | nil => trivial
    | cons o out ih =>
      refine ⟨h [] o out rfl, ih _ fun pre x post hout => ?_⟩
      exact h (o :: pre) x post (by rw [hout, List.cons_append])

theorem finishOnce_iff (out : List ω) : FinishOnce mark out ↔ Quiet mark false out := by
  rw [quiet_iff]
  constructor
  · intro h pre o post hout hclosed
    obtain ⟨pre, f, mid, rfl, hf, hmid⟩ := (closed_iff mark pre).mpr hclosed
    exact h pre f mid o post (by rw [hout, List.append_assoc, List.cons_append]) hf hmid
  · intro h pre f mid o post hout hf hmid
    refine h (pre ++ f :: mid) o post (by rw [hout, List.append_assoc, List.cons_append]) ?_
    exact (closed_iff mark _).mp ⟨pre, f, mid, rfl, hf, hmid⟩

/-- The output comes only together with a finish. -/
def WithFinish (o : ω) (out : List ω) : Prop := o ∈ out → ∃ f ∈ out, mark f = .finish

section WithFinish

variable {mark} {o : ω} {out out' : List ω}

theorem WithFinish.nil : WithFinish mark o [] := fun h => nomatch h

theorem WithFinish.single {x : ω} (hne : x ≠ o) : WithFinish mark o [x] :=
  fun h => absurd (List.mem_singleton.mp h).symm hne

theorem WithFinish.append (h : WithFinish mark o out) (h' : WithFinish mark o out') :
    WithFinish mark o (out ++ out') := by
  intro hmem
  rcases List.mem_append.mp hmem with hmem | hmem
  · obtain ⟨f, hf, hfinish⟩ := h hmem
    exact ⟨f, List.mem_append_left _ hf, hfinish⟩
  · obtain ⟨f, hf, hfinish⟩ := h' hmem
    exact ⟨f, List.mem_append_right _ hf, hfinish⟩

/-- Such an output does not come in a callback that leaves things open. -/
theorem WithFinish.notMem {ω' : Type} {mark' : ω' → Mark} (f : ω → ω')
    (hmark : ∀ o, mark' (f o) = mark o) (h : WithFinish mark o out)
    (hstart : ∀ o ∈ out, mark o ≠ .start) {closed : Bool}
    (hopen : closedAfter mark' closed (out.map f) = false) :
    (∀ x ∈ out, mark x ≠ .finish) ∧ o ∉ out := by
  have hafter : closedAfter mark closed out = false := by
    simpa only [closedAfter, List.foldl_map, hmark] using hopen
  have hfinish := noFinish_of_open mark hstart hafter
  refine ⟨hfinish, fun hmem => ?_⟩
  obtain ⟨x, hx, hfinished⟩ := h hmem
  exact hfinish x hx hfinished

end WithFinish

/-- What the outputs of a callback that starts nothing come to. -/
inductive Effect where
  | calm
  | busy
  | finishing
  deriving DecidableEq, Repr

/-- The outputs do no more than `e` says: a calm callback may come at any time, a busy one is out
of place while a finish holds, and a finishing one ends with a finish. -/
structure HasEffect (e : Effect) (out : List ω) : Prop where
  noStart : ∀ o ∈ out, mark o ≠ .start
  quiet : Quiet mark false out
  closes : closedAfter mark false out = true ↔ e = .finishing
  calm : Quiet mark true out ↔ e = .calm

variable {mark}

namespace HasEffect

variable {e e' : Effect} {out out' : List ω}

theorem closedAfter_true (h : HasEffect mark e out) : closedAfter mark true out = true :=
  Mark.closedAfter_true mark h.noStart

theorem none : HasEffect mark .calm ([] : List ω) :=
  ⟨by simp, trivial, by simp, by simp⟩

theorem single {o : ω} {e : Effect} (hstart : mark o ≠ .start)
    (hfinish : mark o = .finish ↔ e = .finishing) (hneutral : mark o = .neutral ↔ e = .calm) :
    HasEffect mark e [o] := by
  refine ⟨fun x hx => List.mem_singleton.mp hx ▸ hstart, ?_, ?_, ?_⟩
  · exact ⟨fun hc => (nomatch hc), trivial⟩
  · rw [← hfinish]
    cases hm : mark o <;> simp [hm, next]
  · rw [← hneutral]
    cases hm : mark o <;> simp_all [Allowed]

/-- A callback that is not calm finishes or is active. -/
theorem exists_output (h : HasEffect mark e out) (he : e ≠ .calm) :
    ∃ o ∈ out, mark o = .finish ∨ mark o = .activity := by
  by_contra hnone
  refine he (h.calm.mp ((quiet_iff mark true out).mpr fun pre o post hout _ => ?_))
  have hmem : o ∈ out := hout ▸ List.mem_append_right _ (List.mem_cons_self ..)
  exact ⟨fun hfinish => hnone ⟨o, hmem, .inl hfinish⟩, fun hact => hnone ⟨o, hmem, .inr hact⟩⟩

/-- A callback that has not finished may go on. -/
theorem append (h : HasEffect mark e out) (he : e ≠ .finishing) (h' : HasEffect mark e' out') :
    HasEffect mark (if e' = .calm then e else e') (out ++ out') := by
  -- the first part leaves things open, so the second one starts from there
  have hopen : closedAfter mark false out = false := by
    simpa [he] using h.closes
  refine ⟨fun o ho => ?_, ?_, ?_, ?_⟩
  · rcases List.mem_append.mp ho with ho | ho
    · exact h.noStart o ho
    · exact h'.noStart o ho
  · rw [quiet_append, hopen]
    exact ⟨h.quiet, h'.quiet⟩
  · rw [closedAfter_append, hopen, h'.closes]
    cases e' <;> simp [he]
  · rw [quiet_append, h.closedAfter_true, h.calm, h'.calm]
    cases e' <;> simp

theorem calm_append (h : HasEffect mark .calm out) (h' : HasEffect mark e out') :
    HasEffect mark e (out ++ out') := by
  have hboth := h.append (by decide) h'
  cases e <;> exact hboth

theorem append_calm (h : HasEffect mark e out) (h' : HasEffect mark .calm out') :
    HasEffect mark e (out ++ out') := by
  by_cases he : e = .finishing
  · -- what follows a finish is calm, and calm outputs are quiet in either state
    subst he
    have hclosed : closedAfter mark false out = true := h.closes.mpr rfl
    refine ⟨fun o ho => ?_, ?_, ?_, ?_⟩
    · rcases List.mem_append.mp ho with ho | ho
      · exact h.noStart o ho
      · exact h'.noStart o ho
    · rw [quiet_append, hclosed]
      exact ⟨h.quiet, h'.calm.mpr rfl⟩
    · rw [closedAfter_append, hclosed, h'.closedAfter_true]
      exact iff_of_true rfl rfl
    · rw [quiet_append, h.calm]
      exact iff_of_false (fun hc => nomatch hc.1) (fun hc => nomatch hc)
  · exact h.append he h'

/-- Renaming the outputs does not change their effect. -/
theorem map {ω' : Type} {mark' : ω' → Mark} (f : ω → ω') (hmark : ∀ o, mark' (f o) = mark o)
    (h : HasEffect mark e out) : HasEffect mark' e (out.map f) := by
  have hclosed : closedAfter mark' false (out.map f) = closedAfter mark false out := by
    simp only [closedAfter, List.foldl_map, hmark]
  refine ⟨fun o ho => ?_, (quiet_map mark f hmark false out).mpr h.quiet, ?_,
    (quiet_map mark f hmark true out).trans h.calm⟩
  · obtain ⟨o, hmem, rfl⟩ := List.mem_map.mp ho
    rw [hmark]
    exact h.noStart o hmem
  · rw [hclosed]
    exact h.closes

end HasEffect

end Mark

namespace Reactive

variable {σ ε ω : Type} (sys : Reactive σ ε ω) (mark : ω → Mark)

/-- What has to be shown of single steps to know which runs finish once: an open step is quiet, and
a step taken while a finish holds is quiet exactly when it is harmless. -/
structure FinishSteps (Inv : σ → Bool → Prop) (Harmless : σ → ε → Prop) : Prop where
  opened : ∀ s e s' out, Inv s false → sys.step s e = some (s', out) → Mark.Quiet mark false out
  closed : ∀ s e s' out, Inv s true → sys.step s e = some (s', out) →
    (Mark.Quiet mark true out ↔ Harmless s e)
  inv : ∀ s c e s' out, Inv s c → sys.step s e = some (s', out) →
    Inv s' (Mark.closedAfter mark c out)

/-- Every step that a run takes while a finish holds is harmless. -/
def HarmlessRun (Harmless : σ → ε → Prop) (s : σ) (es : List ε) : Prop :=
  ∀ pre e post s₁ out₁, es = pre ++ e :: post → sys.run s pre = some (s₁, out₁) →
    Mark.Closed mark out₁ → Harmless s₁ e

variable {sys mark}

theorem FinishSteps.quiet_run_iff {Inv : σ → Bool → Prop} {Harmless : σ → ε → Prop}
    (h : FinishSteps sys mark Inv Harmless) {s s' : σ} {c : Bool} {es : List ε} {out : List ω}
    (hinv : Inv s c) (hrun : sys.run s es = some (s', out)) :
    Mark.Quiet mark c out ↔ ∀ pre e post s₁ out₁, es = pre ++ e :: post →
      sys.run s pre = some (s₁, out₁) → Mark.closedAfter mark c out₁ = true → Harmless s₁ e := by
  induction es generalizing s c out with
  | nil =>
    cases hrun
    exact iff_of_true trivial sys.forall_taken_nil
  | cons e es ih =>
    obtain ⟨s₁, out₁, out₂, hstep, hrest, rfl⟩ := sys.run_cons hrun
    -- the first step counts only if a finish holds when it is taken
    have hfirst : Mark.Quiet mark c out₁ ↔ (c = true → Harmless s e) := by
      cases c with
      | false => exact iff_of_true (h.opened s e s₁ out₁ hinv hstep) fun hc => nomatch hc
      | true => rw [h.closed s e s₁ out₁ hinv hstep]; simp
    rw [Mark.quiet_append, hfirst, ih (h.inv s c e s₁ out₁ hinv hstep) hrest,
      sys.forall_taken_cons hstep]
    -- whether a finish holds is the same, seen from the first state or from the second
    simp only [Mark.closedAfter_nil, Mark.closedAfter_append]

/-- A run finishes once exactly when it takes no harmful step while a finish holds. -/
theorem FinishSteps.finishOnce_run_iff {Inv : σ → Bool → Prop} {Harmless : σ → ε → Prop}
    (h : FinishSteps sys mark Inv Harmless) {s s' : σ} {es : List ε} {out : List ω}
    (hinv : Inv s false) (hrun : sys.run s es = some (s', out)) :
    Mark.FinishOnce mark out ↔ HarmlessRun sys mark Harmless s es := by
  rw [Mark.finishOnce_iff, h.quiet_run_iff hinv hrun]
  simp only [HarmlessRun, Mark.closed_iff]

/-! ## What holds from a start to the finish -/

variable (sys mark)

/-- Between a start and the finish every state of the run has the property. -/
def WhileOpen (P : σ → Prop) (s : σ) (es : List ε) : Prop :=
  ∀ pre post s₁ out₁, es = pre ++ post → sys.run s pre = some (s₁, out₁) →
    Mark.Open mark out₁ → P s₁

/-- The condition holds of each step that is a start or is taken between a start and the finish. -/
def OpenSteps (Starts : ε → Prop) (Cond : σ → ε → Prop) (s : σ) (es : List ε) : Prop :=
  ∀ pre e post s₁ out₁, es = pre ++ e :: post → sys.run s pre = some (s₁, out₁) →
    Mark.Open mark out₁ ∨ Starts e → Cond s₁ e

/-- A step that is a start, or is taken while things are open, leaves the property behind exactly
under a condition; no other step opens anything. -/
structure Sustains (P : σ → Prop) (Starts : ε → Prop) (Cond : σ → ε → Prop) : Prop where
  step : ∀ s c e s' out, (c = false → P s) → sys.step s e = some (s', out) →
    c = false ∨ Starts e → ((Mark.closedAfter mark c out = false → P s') ↔ Cond s e)
  still : ∀ s e s' out, sys.step s e = some (s', out) → ¬Starts e →
    Mark.closedAfter mark true out = true

variable {sys mark}

theorem Sustains.run_iff {P : σ → Prop} {Starts : ε → Prop} {Cond : σ → ε → Prop}
    (h : Sustains sys mark P Starts Cond) {s s' : σ} {c : Bool} {es : List ε} {out : List ω}
    (hprop : c = false → P s) (hrun : sys.run s es = some (s', out)) :
    (∀ pre post s₁ out₁, es = pre ++ post → sys.run s pre = some (s₁, out₁) →
        Mark.closedAfter mark c out₁ = false → P s₁) ↔
      ∀ pre e post s₁ out₁, es = pre ++ e :: post → sys.run s pre = some (s₁, out₁) →
        Mark.closedAfter mark c out₁ = false ∨ Starts e → Cond s₁ e := by
  induction es generalizing s c out with
  | nil =>
    refine iff_of_true (fun pre post s₁ out₁ hes hpre => ?_) sys.forall_taken_nil
    obtain ⟨rfl, rfl⟩ := List.nil_eq_append_iff.mp hes
    cases hpre
    exact hprop
  | cons e es ih =>
    obtain ⟨s₁, out₁, out₂, hstep, hrest, rfl⟩ := sys.run_cons hrun
    -- the first step sustains the property, or it is not looked at
    have hfirst : (Mark.closedAfter mark c out₁ = false → P s₁) ↔
        (c = false ∨ Starts e → Cond s e) := by
      by_cases hlooked : c = false ∨ Starts e
      · rw [h.step s c e s₁ out₁ hprop hstep hlooked]
        simp [hlooked]
      · rw [not_or, Bool.not_eq_false] at hlooked
        have hclosed := h.still s e s₁ out₁ hstep hlooked.2
        rw [hlooked.1, hclosed]
        simp [hlooked.2]
    rw [sys.forall_reached_cons hstep, sys.forall_taken_cons hstep]
    simp only [Mark.closedAfter_nil, Mark.closedAfter_append]
    constructor
    · rintro ⟨-, hrest'⟩
      -- the state behind the first step is the first one of the rest
      have hnext := hrest' [] es s₁ [] rfl rfl
      exact ⟨hfirst.mp hnext, (ih hnext hrest).mp hrest'⟩
    · rintro ⟨hcond, hrest'⟩
      exact ⟨hprop, (ih (hfirst.mpr hcond) hrest).mpr hrest'⟩

/-- A run keeps the property while it is open exactly when its steps meet the condition. -/
theorem Sustains.whileOpen_iff {P : σ → Prop} {Starts : ε → Prop} {Cond : σ → ε → Prop}
    (h : Sustains sys mark P Starts Cond) {s s' : σ} {es : List ε} {out : List ω}
    (hrun : sys.run s es = some (s', out)) :
    WhileOpen sys mark P s es ↔ OpenSteps sys mark Starts Cond s es := by
  -- nothing is open before the first start
  simp only [WhileOpen, OpenSteps, Mark.open_iff]
  exact h.run_iff (fun hc => nomatch hc) hrun

/-- A run finishes once exactly if its marks are quiet. -/
theorem exists_run_finishOnce_iff {s : σ} {es : List ε} {marks : List Mark}
    (hmarks : (sys.run s es).map (fun r => r.2.map mark) = some marks) :
    ∃ s' out, sys.run s es = some (s', out) ∧
      (Mark.FinishOnce mark out ↔ Mark.Quiet id false marks) := by
  obtain ⟨⟨s', out⟩, hrun, hout⟩ := Option.map_eq_some_iff.mp hmarks
  refine ⟨s', out, hrun, ?_⟩
  rw [← hout, Mark.finishOnce_iff]
  exact (Mark.quiet_map mark mark (fun _ => rfl) false out).symm

theorem exists_run_not_finishOnce {s : σ} {es : List ε} {marks : List Mark}
    (hmarks : (sys.run s es).map (fun r => r.2.map mark) = some marks)
    (hnoisy : ¬Mark.Quiet id false marks) :
    ∃ s' out, sys.run s es = some (s', out) ∧ ¬Mark.FinishOnce mark out := by
  obtain ⟨s', out, hrun, hiff⟩ := exists_run_finishOnce_iff hmarks
  exact ⟨s', out, hrun, hiff.not.mpr hnoisy⟩

end Reactive

end Reasoning
