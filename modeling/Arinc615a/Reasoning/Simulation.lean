import Mathlib.Data.List.Perm.Subperm
import Arinc615a.Reasoning.EventLoop
import Arinc615a.Reasoning.Reactive

/-!
# Simulation

A `Reactive` system does what another one does: it answers each event of the other one by events of
its own, with outputs that look the same.  For components in an event loop, what one loop can do the
other one must be able to do as well.
-/

namespace Reasoning

/-- Related states stay related, and what the outputs look like is the same on both sides. -/
structure Simulation {σ σ' ε ε' ω ω' χ : Type} (sys : Reactive σ ε ω) (sys' : Reactive σ' ε' ω')
    (answer : ε → List ε') (view : ω → χ) (view' : ω' → χ) (R : σ → σ' → Prop) : Prop where
  step : ∀ s t e s' out, R s t → sys.step s e = some (s', out) →
    ∃ t' out', sys'.run t (answer e) = some (t', out') ∧ out'.map view' = out.map view ∧ R s' t'

section

variable {σ σ' ε ε' ω ω' χ : Type} {sys : Reactive σ ε ω} {sys' : Reactive σ' ε' ω'}
  {answer : ε → List ε'} {view : ω → χ} {view' : ω' → χ} {R : σ → σ' → Prop}

theorem Simulation.run (h : Simulation sys sys' answer view view' R) {s s' : σ} {t : σ'}
    {es : List ε} {out : List ω} (hR : R s t) (hrun : sys.run s es = some (s', out)) :
    ∃ t' out', sys'.run t (es.flatMap answer) = some (t', out') ∧
      out'.map view' = out.map view ∧ R s' t' := by
  induction es generalizing s t out with
  | nil =>
    cases hrun
    exact ⟨t, [], rfl, rfl, hR⟩
  | cons e es ih =>
    obtain ⟨s₁, out₁, out₂, hstep, hrest, rfl⟩ := sys.run_cons hrun
    obtain ⟨t₁, out₁', hrun₁, hview₁, hR₁⟩ := h.step s t e s₁ out₁ hR hstep
    obtain ⟨t', out₂', hrun₂, hview₂, hR'⟩ := ih hR₁ hrest
    refine ⟨t', out₁' ++ out₂', ?_, ?_, hR'⟩
    · rw [List.flatMap_cons]
      exact sys'.run_append hrun₁ hrun₂
    · rw [List.map_append, List.map_append, hview₁, hview₂]

end

theorem exists_of_rel_some {α β : Type} {R : α → β → Prop} {a : α} {b : Option β}
    (h : Option.Rel R (some a) b) : ∃ b', b = some b' ∧ R a b' := by
  cases h with
  | some h => exact ⟨_, rfl, h⟩

theorem exists_of_some_rel {α β : Type} {R : α → β → Prop} {a : Option α} {b : β}
    (h : Option.Rel R a (some b)) : ∃ a', a = some a' ∧ R a' b := by
  cases h with
  | some h => exact ⟨_, rfl, h⟩

/-! ## Event loops -/

/-- A command for transfers under other names. -/
def Command.map {τ τ' : Type} (f : τ → τ') : Command τ → Command τ'
  | .arm => .arm
  | .cancel => .cancel
  | .launch transfer => .launch (f transfer)
  | .none => .none

namespace EventLoop

variable {τ τ' : Type}

/-- What one loop can do the other one can do as well, with the transfers under other names.  Of the
queued handlers only some are looked at. -/
structure Covers (f : τ → τ') (Counts : WaitResult → Prop) (small : EventLoop τ)
    (large : EventLoop τ') : Prop where
  armed : small.armed = true → large.armed = true
  queue : ∀ result, Counts result → small.queue.count result ≤ large.queue.count result
  pending : (small.pending.map f).Subperm large.pending

namespace Covers

variable {f : τ → τ'} {Counts : WaitResult → Prop} {small small' : EventLoop τ}
  {large : EventLoop τ'}

theorem abortWait (h : Covers f Counts small large) :
    Covers f Counts small.abortWait large.abortWait := by
  unfold EventLoop.abortWait
  by_cases hsmall : small.armed = true
  · rw [if_pos hsmall, if_pos (h.armed hsmall)]
    refine ⟨id, fun result hcounts => ?_, h.pending⟩
    have hqueue := h.queue result hcounts
    simpa only [List.count_append, Nat.add_le_add_iff_right] using hqueue
  · rw [if_neg hsmall]
    split
    · refine ⟨fun harmed => absurd harmed hsmall, fun result hcounts => ?_, h.pending⟩
      rw [List.count_append]
      exact Nat.le_add_right_of_le (h.queue result hcounts)
    · exact h

theorem perform (h : Covers f Counts small large) (command : Command τ) :
    Covers f Counts (small.perform command) (large.perform (command.map f)) := by
  cases command with
  | arm => exact ⟨fun _ => rfl, h.abortWait.queue, h.abortWait.pending⟩
  | cancel => exact h.abortWait
  | launch transfer => exact ⟨h.armed, h.queue, (List.subperm_cons _).mpr h.pending⟩
  | none => exact h

theorem performAll (h : Covers f Counts small large) (commands : List (Command τ)) :
    Covers f Counts (small.performAll commands)
      (large.performAll (commands.map (Command.map f))) := by
  unfold EventLoop.performAll
  induction commands generalizing small large with
  | nil => exact h
  | cons command commands ih => exact ih (h.perform command)

theorem elapse (h : Covers f Counts small large) {result : WaitResult}
    (helapse : small.elapse result = some small') :
    ∃ large', large.elapse result = some large' ∧ Covers f Counts small' large' := by
  unfold EventLoop.elapse at helapse ⊢
  split at helapse
  case isTrue hresult =>
    cases helapse
    obtain ⟨harmed, haborted⟩ := Bool.and_eq_true_iff.mp hresult
    rw [if_pos (Bool.and_eq_true_iff.mpr ⟨h.armed harmed, haborted⟩)]
    refine ⟨_, rfl, id, fun other hcounts => ?_, h.pending⟩
    have hqueue := h.queue other hcounts
    simpa only [List.count_append, Nat.add_le_add_iff_right] using hqueue
  case isFalse => cases helapse

theorem take (h : Covers f Counts small large) {result : WaitResult} (hcounts : Counts result)
    (htake : small.take result = some small') :
    ∃ large', large.take result = some large' ∧ Covers f Counts small' large' := by
  unfold EventLoop.take at htake ⊢
  split at htake
  case isTrue hmem =>
    cases htake
    have hcount := h.queue result hcounts
    have hpos := List.count_pos_iff.mpr hmem
    rw [if_pos (List.count_pos_iff.mp (Nat.lt_of_lt_of_le hpos hcount))]
    refine ⟨_, rfl, h.armed, fun other hother => ?_, h.pending⟩
    have hqueue := h.queue other hother
    simp only [List.count_erase]
    omega
  case isFalse => cases htake

/-- A handler that is not looked at may be taken without the other loop. -/
theorem take_uncounted (h : Covers f Counts small large) {result : WaitResult}
    (hcounts : ¬Counts result) (htake : small.take result = some small') :
    Covers f Counts small' large := by
  unfold EventLoop.take at htake
  split at htake
  · cases htake
    refine ⟨h.armed, fun other hother => ?_, h.pending⟩
    have hne : other ≠ result := fun heq => hcounts (heq ▸ hother)
    show (small.queue.erase result).count other ≤ large.queue.count other
    rw [List.count_erase_of_ne hne]
    exact h.queue other hother
  · cases htake

theorem complete [DecidableEq τ] [DecidableEq τ'] (h : Covers f Counts small large)
    {transfer : τ} (hcomplete : small.complete transfer = some small') :
    ∃ large', large.complete (f transfer) = some large' ∧ Covers f Counts small' large' := by
  unfold EventLoop.complete at hcomplete ⊢
  split at hcomplete
  case isTrue hmem =>
    cases hcomplete
    rw [if_pos (h.pending.subset (List.mem_map_of_mem hmem))]
    have hperm := (List.perm_cons_erase hmem).map f
    have herase := (hperm.symm.subperm.trans h.pending).erase (f transfer)
    rw [List.map_cons, List.erase_cons_head] at herase
    exact ⟨_, rfl, h.armed, h.queue, herase⟩
  case isFalse => cases hcomplete

theorem mem_pending (h : Covers f Counts small large) {transfer : τ}
    (hmem : transfer ∈ small.pending) : f transfer ∈ large.pending :=
  h.pending.subset (List.mem_map_of_mem hmem)

end Covers

end EventLoop

end Reasoning
