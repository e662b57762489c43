import Arinc615a.Reasoning.Reactive
import Mathlib.Algebra.Order.Monoid.Canonical.Defs

/-!
# A timer and its handler

A system sets one timer, again and again.  When a wait elapses, its handler is queued, and setting
the timer anew does not take the handler back.  The clock tells when the timer was set last, and a
wait elapses once its time has passed.
-/

namespace Reasoning

variable {σ ε ω τ : Type}

/-- How a system uses its timer: only a wait that elapses queues the handler, and an event that sets
the timer leaves the handler in the queue. -/
structure TimerUse (sys : Reactive σ ε ω) (τ : Type) where
  /-- The time an output sets the timer for. -/
  set? : ω → Option τ
  elapses : ε → Bool
  /-- The handler of an elapsed wait is queued. -/
  Queued : σ → Prop
  queued_of_step : ∀ s e s' out, sys.step s e = some (s', out) → Queued s' →
    Queued s ∨ elapses e = true
  quiet_elapses : ∀ s e s' out, sys.step s e = some (s', out) → elapses e = true → out = []
  queued_set : ∀ s e s' out o time, sys.step s e = some (s', out) → o ∈ out → set? o = some time →
    Queued s → Queued s'

/-- A state with the clock, and with the last setting of the timer: when it was, and for what
time. -/
structure Clocked (σ τ : Type) where
  state : σ
  now : τ
  timer : Option (τ × τ) := none

variable [AddCommMonoid τ] [LinearOrder τ]

/-- The time that was set last has passed. -/
def Clocked.Passed (c : Clocked σ τ) (t : τ) : Prop :=
  match c.timer with
  | none => False
  | some (called, time) => called + time ≤ t

instance : (c : Clocked σ τ) → (t : τ) → Decidable (c.Passed t)
  | ⟨_, _, none⟩, _ => .isFalse id
  | ⟨_, _, some (called, time)⟩, t => inferInstanceAs (Decidable (called + time ≤ t))

namespace TimerUse

variable {sys : Reactive σ ε ω} (use : TimerUse sys τ)

/-- The time that the last of the outputs sets the timer for. -/
def last? (out : List ω) : Option τ := (out.filterMap use.set?).getLast?

omit [AddCommMonoid τ] [LinearOrder τ] in
theorem last?_eq_some {out : List ω} {time : τ} (h : use.last? out = some time) :
    ∃ o ∈ out, use.set? o = some time :=
  List.mem_filterMap.mp (List.mem_of_getLast? h)

/-- The system with the clock: each event comes with its time.  Time does not run back, and the
pending wait elapses when its time has passed. -/
def clocked : Reactive (Clocked σ τ) (τ × ε) ω where
  step c e :=
    if c.now ≤ e.1 ∧ (use.elapses e.2 = true → c.Passed e.1) then
      (sys.step c.state e.2).map fun r =>
        ({ state := r.1
           now := e.1
           timer :=
             match use.last? r.2 with
             | some time => some (e.1, time)
             | none => c.timer },
          r.2)
    else none

/-- What a step of the clocked system is. -/
structure ClockedStep (c : Clocked σ τ) (e : τ × ε) (c' : Clocked σ τ) (out : List ω) : Prop where
  now_le : c.now ≤ e.1
  passed : use.elapses e.2 = true → c.Passed e.1
  step : sys.step c.state e.2 = some (c'.state, out)
  now : c'.now = e.1
  timer : c'.timer = match use.last? out with
    | some time => some (e.1, time)
    | none => c.timer

/-- Whenever the handler of an elapsed wait can run, the time that was set last has passed. -/
def Due (c : Clocked σ τ) : Prop := use.Queued c.state → c.Passed c.now

/-- While a handler is queued, an event does not set the timer anew for a time other than zero. -/
def Undisturbed (c : Clocked σ τ) (e : τ × ε) : Prop :=
  use.Queued c.state → ∀ c' out time, use.clocked.step c e = some (c', out) →
    use.last? out = some time → time = 0

variable {use} {c c' : Clocked σ τ} {e : τ × ε} {out : List ω}

theorem step_clocked (h : use.clocked.step c e = some (c', out)) : use.ClockedStep c e c' out := by
  simp only [clocked] at h
  split at h
  case isTrue hallowed =>
    obtain ⟨⟨s', out'⟩, hstep, heq⟩ := Option.map_eq_some_iff.mp h
    cases heq
    exact ⟨hallowed.1, hallowed.2, hstep, rfl, rfl⟩
  case isFalse => cases h

variable (use) in
/-- An event other than the end of a wait can come at any time. -/
theorem exists_step_clocked {t : τ} {event : ε} {s' : σ} (hnow : c.now ≤ t)
    (helapses : use.elapses event = false) (hstep : sys.step c.state event = some (s', out)) :
    ∃ c', use.clocked.step c (t, event) = some (c', out) := by
  have hallowed : c.now ≤ t ∧ (use.elapses event = true → c.Passed t) :=
    ⟨hnow, fun h => absurd (helapses.symm.trans h) (by decide)⟩
  simp only [clocked]
  rw [if_pos hallowed, hstep]
  exact ⟨_, rfl⟩

variable [IsOrderedCancelAddMonoid τ] [CanonicallyOrderedAdd τ]

theorem due_step_iff (hdue : use.Due c) (hstep : use.clocked.step c e = some (c', out)) :
    use.Due c' ↔ use.Undisturbed c e := by
  have h := step_clocked hstep
  have hundisturbed : use.Undisturbed c e ↔
      (use.Queued c.state → ∀ time, use.last? out = some time → time = 0) := by
    refine forall_congr' fun _ => ⟨fun hset time => hset c' out time hstep, ?_⟩
    intro hset c₁ out₁ time hstep₁
    -- a step has one result
    rw [hstep] at hstep₁
    cases hstep₁
    exact hset time
  rw [hundisturbed]
  cases hlast : use.last? out with
  | none =>
    have htimer : c'.timer = c.timer := by rw [h.timer, hlast]
    refine iff_of_true (fun hqueued => ?_) (by simp)
    have hpassed : c.Passed e.1 := by
      rcases use.queued_of_step _ _ _ _ h.step hqueued with hbefore | helapses
      · have hnow := hdue hbefore
        unfold Clocked.Passed at hnow ⊢
        split at hnow
        · exact hnow
        · exact hnow.trans h.now_le
      · exact h.passed helapses
    unfold Clocked.Passed at hpassed ⊢
    rw [htimer, h.now]
    exact hpassed
  | some time =>
    obtain ⟨o, ho, hset⟩ := use.last?_eq_some hlast
    have htimer : c'.timer = some (e.1, time) := by rw [h.timer, hlast]
    have hqueued : use.Queued c'.state ↔ use.Queued c.state := by
      refine ⟨fun hafter => ?_, use.queued_set _ _ _ _ o time h.step ho hset⟩
      refine (use.queued_of_step _ _ _ _ h.step hafter).resolve_right fun helapses => ?_
      rw [use.quiet_elapses _ _ _ _ h.step helapses] at ho
      exact List.not_mem_nil ho
    -- the time that has just been set has passed only if it is zero
    have hpassed : c'.Passed c'.now ↔ time = 0 := by
      unfold Clocked.Passed
      rw [htimer, h.now]
      exact add_le_iff_nonpos_right e.1 |>.trans nonpos_iff_eq_zero
    unfold Due
    rw [hqueued, hpassed]
    simp

/-- Handlers are due in all states that a run reaches, exactly if it is undisturbed throughout. -/
theorem due_run_iff {es : List (τ × ε)} (hdue : use.Due c)
    (hrun : use.clocked.run c es = some (c', out)) :
    (∀ pre post c₁ out₁, es = pre ++ post → use.clocked.run c pre = some (c₁, out₁) →
        use.Due c₁) ↔
      use.clocked.Throughout use.Undisturbed c es :=
  use.clocked.reached_iff (fun _ _ _ _ h hstep => due_step_iff h hstep) hdue hrun

end TimerUse

end Reasoning
