import Arinc615a.Reasoning.Reactive
import Mathlib.Data.List.Perm.Basic
import Mathlib.Data.List.Range

/-!
# Tokens

A system that hands out numbered tokens and takes each back once.  A token is held at one place of
the state until an output gives it back.
-/

namespace Reasoning

variable {σ ε ω : Type}

/-- A step hands out new tokens, moves those that are held, and gives some of them back. -/
structure Tokens (sys : Reactive σ ε ω) where
  held : σ → List Nat
  /-- The number of tokens handed out. -/
  issued : σ → Nat
  spent : ω → Option Nat
  issued_le : ∀ s e s' out, sys.step s e = some (s', out) → issued s ≤ issued s'
  perm : ∀ s e s' out, sys.step s e = some (s', out) →
    (held s' ++ out.filterMap spent).Perm
      (held s ++ List.range' (issued s) (issued s' - issued s))

namespace Tokens

variable {sys : Reactive σ ε ω} (tokens : Tokens sys)

theorem issued_le_run {s s' : σ} {es : List ε} {out : List ω}
    (hrun : sys.run s es = some (s', out)) : tokens.issued s ≤ tokens.issued s' := by
  induction es generalizing s out with
  | nil =>
    cases hrun
    exact Nat.le_refl _
  | cons e es ih =>
    obtain ⟨s₁, out₁, out₂, hstep, hrest, -⟩ := sys.run_cons hrun
    exact Nat.le_trans (tokens.issued_le s e s₁ out₁ hstep) (ih hrest)

/-- What is held after a run or was given back in it, was held before or handed out in it. -/
theorem perm_run {s s' : σ} {es : List ε} {out : List ω}
    (hrun : sys.run s es = some (s', out)) :
    (tokens.held s' ++ out.filterMap tokens.spent).Perm
      (tokens.held s ++ List.range' (tokens.issued s) (tokens.issued s' - tokens.issued s)) := by
  induction es generalizing s out with
  | nil =>
    cases hrun
    rw [Nat.sub_self]
    exact List.Perm.refl _
  | cons e es ih =>
    obtain ⟨s₁, out₁, out₂, hstep, hrest, rfl⟩ := sys.run_cons hrun
    have hfirst := tokens.perm s e s₁ out₁ hstep
    have hle := tokens.issued_le s e s₁ out₁ hstep
    have hle' := tokens.issued_le_run hrest
    -- the tokens of the whole run are those of the first step and those of the rest
    have hnew : List.range' (tokens.issued s) (tokens.issued s₁ - tokens.issued s) ++
          List.range' (tokens.issued s₁) (tokens.issued s' - tokens.issued s₁) =
        List.range' (tokens.issued s) (tokens.issued s' - tokens.issued s) := by
      obtain ⟨a, ha⟩ := Nat.exists_eq_add_of_le hle
      obtain ⟨b, hb⟩ := Nat.exists_eq_add_of_le hle'
      rw [hb, ha, Nat.add_sub_cancel_left, Nat.add_sub_cancel_left, Nat.add_assoc,
        Nat.add_sub_cancel_left, List.range'_append_1]
    rw [List.filterMap_append, ← hnew]
    have hswap : (tokens.held s' ++
          (out₁.filterMap tokens.spent ++ out₂.filterMap tokens.spent)).Perm
        (tokens.held s' ++ out₂.filterMap tokens.spent ++ out₁.filterMap tokens.spent) := by
      rw [List.append_assoc]
      exact List.perm_append_comm.append_left _
    refine hswap.trans (((ih hrest).append_right _).trans ?_)
    rw [List.append_assoc, ← List.append_assoc (tokens.held s)]
    -- what the first step gave back was held or new at its end
    refine (List.perm_append_comm.append_left _).trans ?_
    rw [← List.append_assoc]
    exact hfirst.append_right _

/-- Each token is given back at most once, and only after it was handed out. -/
theorem spent_run {s s' : σ} {es : List ε} {out : List ω} (hheld : tokens.held s = [])
    (hissued : tokens.issued s = 0) (hrun : sys.run s es = some (s', out)) :
    (out.filterMap tokens.spent).Nodup ∧
      ∀ r ∈ out.filterMap tokens.spent, r < tokens.issued s' := by
  have hperm := tokens.perm_run hrun
  rw [hheld, hissued, Nat.sub_zero, List.nil_append, ← List.range_eq_range'] at hperm
  have hnodup := hperm.nodup_iff.mpr List.nodup_range
  refine ⟨(List.nodup_append.mp hnodup).2.1, fun r hr => ?_⟩
  exact List.mem_range.mp (hperm.mem_iff.mp (List.mem_append_right _ hr))

end Tokens

end Reasoning
