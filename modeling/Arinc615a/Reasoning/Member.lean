import Arinc615a.Reasoning.Reactive

/-!
# One member for many transfers

A component keeps the transfer that it started last in one member.  Storing a transfer replaces the
one that was held, which can only report that it was aborted from then on; the completion of a
transfer resets the member, whatever it holds.  The transfers of a `Reactive` system are numbered
here to tell them apart.
-/

namespace Reasoning

/-- The transfers that are active, with what their completion handlers are bound to, and the
transfer that the member holds. -/
structure Member (α : Type) where
  active : List (Nat × α) := []
  held : Option Nat := none
  next : Nat := 0
  deriving DecidableEq

namespace Member

variable {α : Type}

def start (m : Member α) (transfer : α) : Member α where
  active := (m.next, transfer) :: m.active
  held := some m.next
  next := m.next + 1

def reset (m : Member α) (number : Nat) : Member α :=
  { m with active := m.active.filter (·.1 ≠ number), held := none }

/-- Nothing is active but what the member holds. -/
def Exclusive (m : Member α) : Prop := m.active.map Prod.fst = m.held.toList

theorem exclusive_start {m : Member α} (h : m.active = []) (transfer : α) :
    (m.start transfer).Exclusive := by
  simp [Exclusive, start, h]

theorem Exclusive.held_of_mem {m : Member α} (h : m.Exclusive) {number : Nat} {transfer : α}
    (hmem : (number, transfer) ∈ m.active) : m.held = some number := by
  have hnumber : number ∈ m.active.map Prod.fst := List.mem_map.mpr ⟨_, hmem, rfl⟩
  rw [h] at hnumber
  simpa using hnumber

theorem Exclusive.reset_active {m : Member α} (h : m.Exclusive) {number : Nat}
    (hheld : m.held = some number) : (m.reset number).active = [] := by
  have hfirst : ∀ p ∈ m.active, p.1 = number := by
    intro p hp
    have hnumber : p.1 ∈ m.active.map Prod.fst := List.mem_map.mpr ⟨_, hp, rfl⟩
    rw [h, hheld] at hnumber
    simpa using hnumber
  exact List.filter_eq_nil_iff.mpr fun p hp => by simp [hfirst p hp]

theorem exclusive_reset {m : Member α} {number : Nat} (h : (m.reset number).active = []) :
    (m.reset number).Exclusive := by
  rw [Exclusive, h]
  rfl

end Member

/-- What the events and outputs of a system have to do with the transfers of a member. -/
structure Transfers (σ ε ω α : Type) where
  sys : Reactive σ ε ω
  /-- The transfer that an output starts and stores in the member. -/
  starts : ω → Option α
  /-- The transfer that an event completes. -/
  completes : ε → Option α
  /-- The transfer reports that it was aborted. -/
  aborted : ε → Bool

/-- An event, with the number of the transfer that it completes. -/
inductive Numbered (ε : Type) where
  | event (e : ε)
  | completion (number : Nat) (e : ε)
  deriving DecidableEq

/-- An output, and what becomes of the member. -/
inductive Seen (ε ω : Type) where
  | output (o : ω)
  | started (number : Nat) (active : List Nat)
  | completed (number : Nat) (held : Option Nat) (e : ε)
  deriving DecidableEq

/-- No transfer is started while another one is active, and no completion resets another
transfer. -/
def Seen.Alone {ε ω : Type} : Seen ε ω → Prop
  | .output _ => True
  | .started _ active => active = []
  | .completed number held _ => ∀ other, held = some other → other = number

def Seen.output? {ε ω : Type} : Seen ε ω → Option ω
  | .output o => some o
  | .started .. | .completed .. => none

namespace Transfers

variable {σ ε ω α : Type} (t : Transfers σ ε ω α)

/-- Stores the transfers that the outputs start. -/
def store : Member α → List ω → Member α × List (Seen ε ω)
  | m, [] => (m, [])
  | m, o :: out =>
    match t.starts o with
    | none => ((store m out).1, .output o :: (store m out).2)
    | some transfer =>
      ((store (m.start transfer) out).1,
        .output o :: .started m.next (m.active.map Prod.fst) :: (store (m.start transfer) out).2)

/-- A transfer that the member no longer holds can only report that it was aborted. -/
def MayComplete (m : Member α) (number : Nat) (e : ε) : Prop :=
  (∃ transfer, t.completes e = some transfer ∧ (number, transfer) ∈ m.active) ∧
    (m.held = some number ∨ t.aborted e = true)

instance [DecidableEq α] (m : Member α) (number : Nat) (e : ε) :
    Decidable (t.MayComplete m number e) :=
  have : Decidable (∃ transfer, t.completes e = some transfer ∧ (number, transfer) ∈ m.active) :=
    match h : t.completes e with
    | none => .isFalse (by simp)
    | some transfer => decidable_of_iff ((number, transfer) ∈ m.active) (by simp)
  inferInstanceAs (Decidable (_ ∧ _))

def step [DecidableEq α] (s : σ × Member α) :
    Numbered ε → Option ((σ × Member α) × List (Seen ε ω))
  | .event e =>
    if t.completes e = none then
      (t.sys.step s.1 e).map fun r => ((r.1, (t.store s.2 r.2).1), (t.store s.2 r.2).2)
    else none
  | .completion number e =>
    if t.MayComplete s.2 number e then
      -- the member is reset before anything else is done
      (t.sys.step s.1 e).map fun r =>
        ((r.1, (t.store (s.2.reset number) r.2).1),
          .completed number s.2.held e :: (t.store (s.2.reset number) r.2).2)
    else none

/-- The system with numbered transfers. -/
def numbered [DecidableEq α] : Reactive (σ × Member α) (Numbered ε) (Seen ε ω) := ⟨t.step⟩

theorem store_none {out : List ω} (h : out.filterMap t.starts = []) (m : Member α) :
    t.store m out = (m, out.map .output) := by
  induction out with
  | nil => rfl
  | cons o out ih =>
    cases ho : t.starts o with
    | none =>
      rw [List.filterMap_cons_none ho] at h
      simp only [store, ho, ih h, List.map_cons]
    | some transfer =>
      rw [List.filterMap_cons_some ho] at h
      cases h

theorem store_one {out : List ω} {transfer : α} (h : out.filterMap t.starts = [transfer])
    (m : Member α) : (t.store m out).1 = m.start transfer ∧
      ∀ P : Seen ε ω → Prop, (∀ x ∈ (t.store m out).2, P x) ↔
        (∀ o ∈ out, P (.output o)) ∧ P (.started m.next (m.active.map Prod.fst)) := by
  induction out with
  | nil => cases h
  | cons o out ih =>
    cases ho : t.starts o with
    | none =>
      rw [List.filterMap_cons_none ho] at h
      obtain ⟨hmember, hseen⟩ := ih h
      simp only [store, ho, List.forall_mem_cons, hmember, hseen, true_and]
      exact fun P => and_assoc.symm
    | some first =>
      rw [List.filterMap_cons_some ho] at h
      obtain ⟨rfl, hrest⟩ := List.cons.inj h
      simp only [store, ho, t.store_none hrest, List.forall_mem_cons, List.forall_mem_map,
        true_and]
      exact fun P => ⟨fun ⟨ho, hs, hout⟩ => ⟨⟨ho, hout⟩, hs⟩,
        fun ⟨⟨ho, hout⟩, hs⟩ => ⟨ho, hs, hout⟩⟩

/-- Nothing is lost of the outputs. -/
theorem store_outputs (m : Member α) (out : List ω) :
    (t.store m out).2.filterMap Seen.output? = out := by
  induction out generalizing m with
  | nil => rfl
  | cons o out ih =>
    cases ho : t.starts o with
    | none => simp only [store, ho, Seen.output?, List.filterMap_cons, ih]
    | some transfer => simp only [store, ho, Seen.output?, List.filterMap_cons, ih]

/-- An event that completes no transfer. -/
theorem step_event [DecidableEq α] {s s' : σ × Member α} {e : ε} {seen : List (Seen ε ω)}
    (h : t.step s (.event e) = some (s', seen)) :
    ∃ v out, t.completes e = none ∧ t.sys.step s.1 e = some (v, out) ∧
      s' = (v, (t.store s.2 out).1) ∧ seen = (t.store s.2 out).2 := by
  simp only [step] at h
  split at h
  case isTrue hnone =>
    obtain ⟨⟨v, out⟩, hv, heq⟩ := Option.map_eq_some_iff.mp h
    cases heq
    exact ⟨v, out, hnone, hv, rfl, rfl⟩
  case isFalse => cases h

/-- A completion: the member is reset, and then stores what the outputs start. -/
theorem step_completion [DecidableEq α] {s s' : σ × Member α} {number : Nat} {e : ε}
    {seen : List (Seen ε ω)} (h : t.step s (.completion number e) = some (s', seen)) :
    ∃ v out, t.MayComplete s.2 number e ∧ t.sys.step s.1 e = some (v, out) ∧
      s' = (v, (t.store (s.2.reset number) out).1) ∧
      seen = .completed number s.2.held e :: (t.store (s.2.reset number) out).2 := by
  simp only [step] at h
  split at h
  case isTrue hmay =>
    obtain ⟨⟨v, out⟩, hv, heq⟩ := Option.map_eq_some_iff.mp h
    cases heq
    exact ⟨v, out, hmay, hv, rfl, rfl⟩
  case isFalse => cases h

/-- A step of the numbered system is one of the system below. -/
theorem step_sys [DecidableEq α] {s s' : σ × Member α} {e : Numbered ε} {seen : List (Seen ε ω)}
    (h : t.step s e = some (s', seen)) :
    ∃ e', (e = .event e' ∨ ∃ number, e = .completion number e') ∧
      t.sys.step s.1 e' = some (s'.1, seen.filterMap Seen.output?) := by
  cases e with
  | event e =>
    obtain ⟨v, out, -, hv, rfl, rfl⟩ := t.step_event h
    refine ⟨e, .inl rfl, ?_⟩
    rw [store_outputs]
    exact hv
  | completion number e =>
    obtain ⟨v, out, -, hv, rfl, rfl⟩ := t.step_completion h
    refine ⟨e, .inr ⟨number, rfl⟩, ?_⟩
    rw [List.filterMap_cons_none rfl, store_outputs]
    exact hv

/-! ## One transfer at a time -/

/-- A step starts one transfer under a condition, and otherwise none. -/
structure StartsOne (Starts : σ → ε → Prop) : Prop where
  one : ∀ s e s' out, t.sys.step s e = some (s', out) → Starts s e →
    ∃ transfer, out.filterMap t.starts = [transfer]
  none : ∀ s e s' out, t.sys.step s e = some (s', out) → ¬Starts s e →
    out.filterMap t.starts = []

/-- An event that starts a transfer finds none active. -/
def Vacant (Starts : σ → ε → Prop) (s : σ × Member α) : Numbered ε → Prop
  | .event e => Starts s.1 e → s.2.active = []
  | .completion .. => True

variable {t} {Starts : σ → ε → Prop}

theorem StartsOne.alone_store (h : t.StartsOne Starts) {s s' : σ} {e : ε} {out : List ω}
    (hstep : t.sys.step s e = some (s', out)) (m : Member α) :
    (∀ x ∈ (t.store m out).2, x.Alone) ↔ (Starts s e → m.active = []) := by
  by_cases hstarts : Starts s e
  · obtain ⟨transfer, hone⟩ := h.one s e s' out hstep hstarts
    rw [(t.store_one hone m).2]
    simp [Seen.Alone, hstarts]
  · rw [t.store_none (h.none s e s' out hstep hstarts)]
    simp [Seen.Alone, hstarts]

theorem StartsOne.exclusive_store (h : t.StartsOne Starts) {s s' : σ} {e : ε} {out : List ω}
    (hstep : t.sys.step s e = some (s', out)) {m : Member α} (hm : m.Exclusive)
    (hvacant : Starts s e → m.active = []) : (t.store m out).1.Exclusive := by
  by_cases hstarts : Starts s e
  · obtain ⟨transfer, hone⟩ := h.one s e s' out hstep hstarts
    rw [(t.store_one hone m).1]
    exact Member.exclusive_start (hvacant hstarts) transfer
  · rw [t.store_none (h.none s e s' out hstep hstarts)]
    exact hm

/-- A completion leaves the member vacant, if the transfer was the only one. -/
theorem reset_of_mayComplete {m : Member α} (hm : m.Exclusive) {number : Nat} {e : ε}
    (h : t.MayComplete m number e) : m.held = some number ∧ (m.reset number).active = [] := by
  obtain ⟨⟨transfer, -, hmem⟩, -⟩ := h
  have hheld := hm.held_of_mem hmem
  exact ⟨hheld, hm.reset_active hheld⟩

variable [DecidableEq α]

theorem StartsOne.step_spec (h : t.StartsOne Starts) {s s' : σ × Member α} {e : Numbered ε}
    {out : List (Seen ε ω)} (hm : s.2.Exclusive) (hstep : t.step s e = some (s', out)) :
    ((∀ x ∈ out, x.Alone) ↔ Vacant Starts s e) ∧ (Vacant Starts s e → s'.2.Exclusive) := by
  cases e with
  | event e =>
    obtain ⟨v, o, -, hv, rfl, rfl⟩ := t.step_event hstep
    exact ⟨h.alone_store hv s.2, h.exclusive_store hv hm⟩
  | completion number e =>
    obtain ⟨v, o, hmay, hv, rfl, rfl⟩ := t.step_completion hstep
    obtain ⟨hheld, hvacant⟩ := reset_of_mayComplete hm hmay
    refine ⟨iff_of_true ?_ trivial, fun _ => h.exclusive_store hv
      (Member.exclusive_reset hvacant) fun _ => hvacant⟩
    rw [List.forall_mem_cons]
    exact ⟨fun other hother => Option.some.inj (hother.symm.trans hheld),
      (h.alone_store hv _).mpr fun _ => hvacant⟩

/-- In a run transfers are started one at a time, and reset by their own completions, exactly when
every event that starts a transfer finds none active. -/
theorem StartsOne.alone_run_iff (h : t.StartsOne Starts) {s s' : σ × Member α}
    {es : List (Numbered ε)} {out : List (Seen ε ω)} (hm : s.2.Exclusive)
    (hrun : t.numbered.run s es = some (s', out)) :
    (∀ x ∈ out, x.Alone) ↔ t.numbered.Throughout (Vacant Starts) s es :=
  t.numbered.forall_run_iff (fun _ _ _ _ hm hstep => (h.step_spec hm hstep).1)
    (fun _ _ _ _ hm hcond hstep => (h.step_spec hm hstep).2 hcond) hm hrun

end Transfers

end Reasoning
