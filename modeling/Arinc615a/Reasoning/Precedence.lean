import Arinc615a.Reasoning.Reactive

/-!
# What comes before an output

A relation `P past o` says how an output `o` is explained by the outputs before it.  If every step
explains its outputs by what has been seen up to it, every output of a run is explained by what has
been seen before it.
-/

namespace Reasoning

/-- Every output is explained by the past and the outputs in front of it. -/
def Preceded {ω : Type} (P : List ω → ω → Prop) (past out : List ω) : Prop :=
  ∀ pre o post, out = pre ++ o :: post → P (past ++ pre) o

/-- What has happened explains what it explains for good. -/
def Lasting {ω : Type} (P : List ω → ω → Prop) : Prop :=
  ∀ past more o, P past o → P (past ++ more) o

namespace Preceded

variable {ω : Type} {P : List ω → ω → Prop} {past out out' : List ω} {o : ω}

theorem nil : Preceded P past [] := fun pre _ _ h => by cases pre <;> cases h

theorem cons (ho : P past o) (h : Preceded P (past ++ [o]) out) : Preceded P past (o :: out) := by
  intro pre o' post hsplit
  cases pre with
  | nil =>
    cases hsplit
    rwa [List.append_nil]
  | cons o₁ pre =>
    cases hsplit
    have hexplained := h pre o' post rfl
    rwa [List.append_assoc] at hexplained

theorem append (h : Preceded P past out) (h' : Preceded P (past ++ out) out') :
    Preceded P past (out ++ out') := by
  induction out generalizing past with
  | nil =>
    rw [List.append_nil] at h'
    exact h'
  | cons o out ih =>
    have hfirst := h [] o out rfl
    rw [List.append_nil] at hfirst
    refine cons hfirst (ih (fun pre o' post hsplit => ?_) ?_)
    · have hexplained := h (o :: pre) o' post (by rw [hsplit, List.cons_append])
      rwa [List.append_assoc]
    · rwa [List.append_assoc]

/-- Outputs that the past explains alone. -/
theorem of_forall (hlasting : Lasting P) (h : ∀ o ∈ out, P past o) : Preceded P past out := by
  intro pre o post hsplit
  exact hlasting past pre o (h o (by simp [hsplit]))

/-- What is made of the outputs one by one is explained, if each explanation carries over. -/
theorem filterMap {ω' : Type} {Q : List ω' → ω' → Prop} {f : ω → Option ω'} {base : List ω'}
    (hmap : ∀ pre o o', f o = some o' → P pre o → Q (base ++ pre.filterMap f) o')
    (h : Preceded P [] out) : Preceded Q base (out.filterMap f) := by
  intro pre o' post hsplit
  obtain ⟨front, back, rfl, hfront, hback⟩ := List.filterMap_eq_append_iff.mp hsplit
  obtain ⟨skipped, o, rest, rfl, hskipped, ho, -⟩ := List.filterMap_eq_cons_iff.mp hback
  have hexplained := h (front ++ skipped) o rest (by rw [List.append_assoc])
  have hpre : (front ++ skipped).filterMap f = pre := by
    rw [List.filterMap_append, hfront, List.filterMap_eq_nil_iff.mpr hskipped, List.append_nil]
  have hcarried := hmap _ o o' ho hexplained
  rwa [List.nil_append, hpre] at hcarried

/-- Outputs of which something explained is made are explained by what is made of the past. -/
theorem of_filterMap {ω' : Type} {Q : List ω' → ω' → Prop} {f : ω → Option ω'}
    (h : Preceded Q (past.filterMap f) (out.filterMap f)) :
    Preceded (fun past o => ∀ o', f o = some o' → Q (past.filterMap f) o') past out := by
  intro pre o post hsplit o' ho
  rw [List.filterMap_append]
  refine h _ o' (post.filterMap f) ?_
  rw [hsplit, List.filterMap_append, List.filterMap_cons_some ho]

end Preceded

/-- If every step under a condition keeps an invariant of the state and the past, and explains its
outputs, then a run in which the condition holds throughout explains all of its outputs. -/
theorem Reactive.run_preceded {σ ε ω : Type} (sys : Reactive σ ε ω) {Inv : σ → List ω → Prop}
    {P : List ω → ω → Prop} {Cond : σ → ε → Prop}
    (hstep : ∀ s past e s' out, Inv s past → Cond s e → sys.step s e = some (s', out) →
      Inv s' (past ++ out) ∧ Preceded P past out) {s s' : σ} {past out : List ω} {es : List ε}
    (h0 : Inv s past) (hcond : sys.Throughout Cond s es) (hrun : sys.run s es = some (s', out)) :
    Preceded P past out := by
  induction es generalizing s past out with
  | nil =>
    cases hrun
    exact .nil
  | cons e es ih =>
    obtain ⟨s₁, out₁, out₂, he, hrest, rfl⟩ := sys.run_cons hrun
    obtain ⟨hfirst, hothers⟩ := (sys.throughout_cons he).mp hcond
    obtain ⟨hinv, hexplained⟩ := hstep s past e s₁ out₁ h0 hfirst he
    exact hexplained.append (ih hinv hothers hrest)

end Reasoning
