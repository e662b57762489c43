import Arinc615a.Reasoning.Decoder

/-!
# What a decoder that ended well has done

Each step of a decoder is inverted: from the outcome of a sequence, the outcomes of its parts.  A
loop is described by an invariant that sees the object, the values so far and the unread bytes.
-/

namespace Reasoning.Decoder

variable {χ σ α β : Type}

theorem bind_done {x : Decoder χ σ α} {f : α → Decoder χ σ β} {o o'' : σ} {bs rest : Bytes} {b : β}
    (h : (x >>= f) o bs = .done b o'' rest) :
    ∃ a o' mid, x o bs = .done a o' mid ∧ f a o' mid = .done b o'' rest := by
  rw [bind_run] at h
  cases hx : x o bs with
  | done a o' mid =>
    rw [hx] at h
    exact ⟨a, o', mid, rfl, h⟩
  | thrown e o' =>
    rw [hx] at h
    cases h

theorem read_done {r : Reader χ α} {o o' : σ} {bs rest : Bytes} {a : α}
    (h : (read r : Decoder χ σ α) o bs = .done a o' rest) : r bs = .ok (a, rest) ∧ o' = o := by
  unfold read at h
  cases hr : r bs with
  | ok p =>
    rw [hr] at h
    cases h
    exact ⟨rfl, rfl⟩
  | error e =>
    rw [hr] at h
    cases h

theorem read_bind_done {r : Reader χ α} {f : α → Decoder χ σ β} {o o' : σ} {bs rest : Bytes}
    {b : β} (h : (read r >>= f) o bs = .done b o' rest) :
    ∃ a mid, r bs = .ok (a, mid) ∧ f a o mid = .done b o' rest := by
  obtain ⟨a, o₁, mid, hread, hf⟩ := bind_done h
  obtain ⟨hr, rfl⟩ := read_done hread
  exact ⟨a, mid, hr, hf⟩

theorem check_bind_done {x : Except χ α} {f : α → Decoder χ σ β} {o o' : σ} {bs rest : Bytes}
    {b : β} (h : (check x >>= f) o bs = .done b o' rest) :
    ∃ a, x = .ok a ∧ f a o bs = .done b o' rest := by
  cases x with
  | ok a => exact ⟨a, rfl, h⟩
  | error e => cases h

theorem require_bind_done {p : Bytes → Bool} {e : χ} {f : Unit → Decoder χ σ β} {o o' : σ}
    {bs rest : Bytes} {b : β} (h : (require p e >>= f) o bs = .done b o' rest) :
    p bs = true ∧ f () o bs = .done b o' rest := by
  rw [bind_run] at h
  cases hp : p bs with
  | true =>
    rw [require_pos hp] at h
    exact ⟨rfl, h⟩
  | false =>
    rw [require_neg hp] at h
    cases h

theorem require_done {p : Bytes → Bool} {e : χ} {o o' : σ} {bs rest : Bytes}
    (h : (require p e : Decoder χ σ Unit) o bs = .done () o' rest) :
    p bs = true ∧ o' = o ∧ rest = bs := by
  have hbind : (require p e >>= pure) o bs = .done () o' rest := by rwa [bind_pure]
  obtain ⟨hp, hpure⟩ := require_bind_done hbind
  cases hpure
  exact ⟨hp, rfl, rfl⟩

/-- A counted loop keeps an invariant that counts its rounds. -/
theorem times_done {I : Nat → σ → Bytes → Prop} {body : Decoder χ σ Unit}
    (step : ∀ k o bs o' rest, I k o bs → body o bs = .done () o' rest → I (k + 1) o' rest)
    {n k : Nat} {o o' : σ} {bs rest : Bytes} (ho : I k o bs)
    (h : times n body o bs = .done () o' rest) : I (k + n) o' rest := by
  induction n generalizing k o bs with
  | zero =>
    cases h
    exact ho
  | succ n ih =>
    obtain ⟨⟨⟩, o₁, mid, hbody, h⟩ := bind_done h
    have hrest := ih (step k o bs o₁ mid ho hbody) h
    rwa [Nat.add_right_comm] at hrest

theorem collect_append {I : List α → σ → Bytes → Prop} {body : Decoder χ σ α}
    (step : ∀ as o bs a o' rest, I as o bs → body o bs = .done a o' rest → I (as ++ [a]) o' rest)
    {n : Nat} {before as : List α} {o o' : σ} {bs rest : Bytes} (ho : I before o bs)
    (h : collect n body o bs = .done as o' rest) : I (before ++ as) o' rest ∧ as.length = n := by
  induction n generalizing before as o bs with
  | zero =>
    cases h
    rw [List.append_nil]
    exact ⟨ho, rfl⟩
  | succ n ih =>
    obtain ⟨a, o₁, mid, hbody, h⟩ := bind_done h
    obtain ⟨as', o₂, mid', hloop, h⟩ := bind_done h
    cases h
    obtain ⟨hI, hlen⟩ := ih (step before o bs a o₁ mid ho hbody) hloop
    rw [List.append_assoc, List.singleton_append] at hI
    exact ⟨hI, by rw [List.length_cons, hlen]⟩

/-- A collecting loop keeps an invariant that sees the values so far. -/
theorem collect_done {I : List α → σ → Bytes → Prop} {body : Decoder χ σ α}
    (step : ∀ as o bs a o' rest, I as o bs → body o bs = .done a o' rest → I (as ++ [a]) o' rest)
    {n : Nat} {as : List α} {o o' : σ} {bs rest : Bytes} (ho : I [] o bs)
    (h : collect n body o bs = .done as o' rest) : I as o' rest ∧ as.length = n :=
  collect_append step ho h

/-- A loop whose body leaves the object alone and gives good values. -/
theorem collect_forall {P : α → Prop} {body : Decoder χ σ α}
    (hbody : ∀ o bs a o' rest, body o bs = .done a o' rest → o' = o ∧ P a) {n : Nat}
    {as : List α} {o o' : σ} {bs rest : Bytes} (h : collect n body o bs = .done as o' rest) :
    o' = o ∧ as.length = n ∧ ∀ a ∈ as, P a := by
  have hloop := collect_done (I := fun as o₁ _ => o₁ = o ∧ ∀ a ∈ as, P a) ?_
    ⟨rfl, List.forall_mem_nil _⟩ h
  · exact ⟨hloop.1.1, hloop.2, hloop.1.2⟩
  · rintro as o₁ bs a o₂ rest ⟨rfl, has⟩ ha
    obtain ⟨rfl, hP⟩ := hbody _ _ _ _ _ ha
    refine ⟨rfl, fun b hb => ?_⟩
    rcases List.mem_append.mp hb with hb | hb
    · exact has b hb
    · rw [List.mem_singleton.mp hb]
      exact hP

end Reasoning.Decoder
