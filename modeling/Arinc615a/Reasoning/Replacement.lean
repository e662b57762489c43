import Arinc615a.Reasoning.Member

/-!
# Reports of replaced transfers

A transfer that another one has replaced reports that it was aborted, at any time later, or before
the call that replaces it returns.  Its completion handler is the one of the new transfer, and
cannot tell the two apart.
-/

namespace Reasoning

/-- Transfers that may report in the middle of the event that replaces them. -/
structure Replacements (σ ε ω α : Type) extends Transfers σ ε ω α where
  /-- The event when the transfer that it replaces reports: the next state, and what is output in
  front of the report, by it and behind it. -/
  reporting : σ → ε → α → Option (σ × List ω × List ω × List ω)

/-- An event, or one in the middle of which the transfer of that number reports. -/
inductive Replacing (ε : Type) where
  | numbered (e : Numbered ε)
  | reporting (number : Nat) (e : ε)
  deriving DecidableEq

namespace Replacements

variable {σ ε ω α : Type} (r : Replacements σ ε ω α)

def step [DecidableEq α] (s : σ × Member α) :
    Replacing ε → Option ((σ × Member α) × List (Seen ε ω))
  | .numbered e => r.toTransfers.step s e
  | .reporting number e =>
    if s.2.held = some number then
      match s.2.active.lookup number with
      | none => none
      | some replaced =>
        (r.reporting s.1 e replaced).map fun (s', front, report, behind) =>
          let stored := r.store s.2 front
          -- the report resets the member, whatever it holds by then
          let reported := r.store (stored.1.reset number) (report ++ behind)
          ((s', reported.1), stored.2 ++ reported.2)
    else none

/-- The system in which replaced transfers report. -/
def system [DecidableEq α] : Reactive (σ × Member α) (Replacing ε) (Seen ε ω) := ⟨r.step⟩

/-- The report of a replaced transfer leaves the system alone, and the new transfer in the
member. -/
def Undisturbed (Alone : σ → σ → List ω → Prop) (s : σ × Member α) :
    Replacing ε → σ × Member α → List (Seen ε ω) → Prop
  | .numbered (.event _), _, _ => True
  | .numbered (.completion number _), s', seen =>
    s.2.held ≠ some number →
      Alone s.1 s'.1 (seen.filterMap Seen.output?) ∧ s'.2.held = s.2.held
  | .reporting _ _, s', seen =>
    Alone s.1 s'.1 (seen.filterMap Seen.output?) ∧ s'.2.held = some s.2.next

/-- Replaced transfers report to a system that does not care, and not while the member holds a
transfer, unless it is in the middle of the replacement. -/
def ReportsUnheeded (Unheeding : σ → Prop) (s : σ × Member α) : Replacing ε → Prop
  | .numbered (.event _) => True
  | .numbered (.completion number _) =>
    s.2.held ≠ some number → Unheeding s.1 ∧ s.2.held = none
  | .reporting _ _ => Unheeding s.1

/-- What a report of a transfer that was aborted does to a system, later and in the middle of its
replacement. -/
structure Reports (Inv : σ → Prop) (Alone : σ → σ → List ω → Prop) (Unheeding : σ → Prop) :
    Prop where
  /-- Without the report the event does what it does in front of it and behind it. -/
  uninterrupted : ∀ s e replaced s' front report behind,
    r.reporting s e replaced = some (s', front, report, behind) →
      ∃ s'', r.sys.step s e = some (s'', front ++ behind)
  later : ∀ s e s' out, Inv s → r.completes e ≠ none → r.aborted e = true →
    r.sys.step s e = some (s', out) →
      out.filterMap r.starts = [] ∧ (Alone s s' out ↔ Unheeding s)
  within : ∀ s e replaced s' front report behind, Inv s →
    r.reporting s e replaced = some (s', front, report, behind) →
      (Alone s s' (front ++ (report ++ behind)) ↔ Unheeding s)
  /-- The report comes before the new transfer is stored, if the system does not care for it. -/
  before : ∀ s e replaced s' front report behind, Inv s → Unheeding s →
    r.reporting s e replaced = some (s', front, report, behind) →
      front.filterMap r.starts = [] ∧
        ∃ transfer, (report ++ behind).filterMap r.starts = [transfer]
  inv : ∀ s e s' out, Inv s → r.sys.step s e = some (s', out) → Inv s'
  invWithin : ∀ s e replaced s' front report behind, Inv s →
    r.reporting s e replaced = some (s', front, report, behind) → Inv s'

variable {r} [DecidableEq α] {Inv : σ → Prop} {Alone : σ → σ → List ω → Prop}
  {Unheeding : σ → Prop}

/-- The report in a step, and its outputs. -/
theorem step_reporting {s s' : σ × Member α} {number : Nat} {e : ε} {seen : List (Seen ε ω)}
    (hstep : r.step s (.reporting number e) = some (s', seen)) :
    ∃ replaced front report behind,
      r.reporting s.1 e replaced = some (s'.1, front, report, behind) ∧
        s'.2 = (r.store ((r.store s.2 front).1.reset number) (report ++ behind)).1 ∧
        seen.filterMap Seen.output? = front ++ (report ++ behind) := by
  simp only [step] at hstep
  split at hstep
  · split at hstep
    · cases hstep
    case h_2 replaced _ =>
      obtain ⟨⟨v, front, report, behind⟩, hv, heq⟩ := Option.map_eq_some_iff.mp hstep
      cases heq
      refine ⟨replaced, front, report, behind, hv, rfl, ?_⟩
      rw [List.filterMap_append, r.store_outputs, r.store_outputs]
  · cases hstep

theorem Reports.step_iff (h : r.Reports Inv Alone Unheeding) {s s' : σ × Member α}
    {e : Replacing ε} {seen : List (Seen ε ω)} (hinv : Inv s.1)
    (hstep : r.step s e = some (s', seen)) :
    Undisturbed Alone s e s' seen ↔ ReportsUnheeded Unheeding s e := by
  cases e with
  | numbered e =>
    cases e with
    | event e => exact Iff.rfl
    | completion number e =>
      obtain ⟨v, o, hmay, hv, rfl, rfl⟩ := r.toTransfers.step_completion hstep
      refine forall_congr' fun hreplaced => ?_
      obtain ⟨⟨transfer, hcompletes, -⟩, habort⟩ := hmay
      have haborted : r.aborted e = true := habort.resolve_left hreplaced
      have hsome : r.completes e ≠ none := by
        rw [hcompletes]
        exact Option.some_ne_none transfer
      obtain ⟨hstarts, halone⟩ := h.later s.1 e v o hinv hsome haborted hv
      rw [r.store_none hstarts, List.filterMap_cons_none rfl, List.filterMap_map]
      -- the report has reset the member
      refine and_congr ?_ ⟨fun hheld => hheld.symm, fun hheld => hheld.symm⟩
      rw [← halone]
      have houtputs : o.filterMap (Seen.output? ∘ Seen.output (ε := ε)) = o :=
        List.filterMap_some
      rw [houtputs]
  | reporting number e =>
    obtain ⟨replaced, front, report, behind, hv, hmember, houtputs⟩ := step_reporting hstep
    simp only [Undisturbed, ReportsUnheeded]
    rw [houtputs, h.within _ _ _ _ _ _ _ hinv hv, and_iff_left_iff_imp]
    intro hunheeding
    obtain ⟨hfront, transfer, hbehind⟩ := h.before _ _ _ _ _ _ _ hinv hunheeding hv
    rw [hmember, r.store_none hfront, (r.store_one hbehind _).1]
    rfl

theorem Reports.step_inv (h : r.Reports Inv Alone Unheeding) {s s' : σ × Member α}
    {e : Replacing ε} {seen : List (Seen ε ω)} (hinv : Inv s.1)
    (hstep : r.step s e = some (s', seen)) : Inv s'.1 := by
  cases e with
  | numbered e =>
    obtain ⟨e', -, hv⟩ := r.toTransfers.step_sys hstep
    exact h.inv _ _ _ _ hinv hv
  | reporting number e =>
    obtain ⟨replaced, front, report, behind, hv, -, -⟩ := step_reporting hstep
    exact h.invWithin _ _ _ _ _ _ _ hinv hv

/-- In a run no report of a replaced transfer disturbs the system or the new transfer, exactly when
all of them are unheeded. -/
theorem Reports.run_iff (h : r.Reports Inv Alone Unheeding) {s s' : σ × Member α}
    {es : List (Replacing ε)} {seen : List (Seen ε ω)} (hinv : Inv s.1)
    (hrun : r.system.run s es = some (s', seen)) :
    r.system.EachStep (Undisturbed Alone) s es ↔
      r.system.Throughout (ReportsUnheeded Unheeding) s es := by
  have hiff : ∀ (s : σ × Member α) (e : Replacing ε) (s' : σ × Member α)
      (out : List (Seen ε ω)), Inv s.1 → r.system.step s e = some (s', out) →
        (Undisturbed Alone s e s' out ↔ ReportsUnheeded Unheeding s e) :=
    fun _ _ _ _ => h.step_iff
  have hnext : ∀ (s : σ × Member α) (e : Replacing ε) (s' : σ × Member α)
      (out : List (Seen ε ω)), Inv s.1 → r.system.step s e = some (s', out) → Inv s'.1 :=
    fun _ _ _ _ => h.step_inv
  exact r.system.eachStep_iff hiff hnext hinv hrun

end Replacements

end Reasoning
