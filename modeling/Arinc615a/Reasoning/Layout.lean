import Arinc615a.Reasoning.WordCodec
import Mathlib.Logic.Function.Iterate

/-!
# Layouts and the spans they are cut off in

A `Layout` lists the fields of a format, with the number of bytes that the reader of each field
takes without looking at the size of the span.  `Layout.cut` is then a statement about the bytes
alone: the span ends inside such a field, after fields that are well formed.  The rules for `Cuts`
show that a decoder runs past its span on just these spans.
-/

namespace Reasoning

/-- The well-formed bytes of a field, and how many bytes its reader takes unguarded. -/
structure Field where
  Matches : Bytes → Prop
  unguarded : Nat

namespace Field

/-- The span ends inside this field, or `K` holds of the bytes after it. -/
def cut (f : Field) (K : Bytes → Prop) (bs : Bytes) : Prop :=
  bs.length < f.unguarded ∨ ∃ w rest, bs = w ++ rest ∧ f.Matches w ∧ K rest

/-- A word of `width` bytes. -/
def word (width : Nat) : Field where
  Matches w := w.length = width
  unguarded := width

/-- A word that has to pass a check once it is read. -/
def checkedWord {α : Type} {width : Nat} (codec : WordCodec α width) (ok : α → Prop) :
    Field where
  Matches w := w.length = width ∧ ok (codec.decode w)
  unguarded := width

/-- A field whose reader looks at the size of the span first. -/
def guarded (Matches : Bytes → Prop) : Field where
  Matches := Matches
  unguarded := 0

theorem cut_and (f : Field) (h : f.unguarded = 0) (p : Prop) (K : Bytes → Prop) (bs : Bytes) :
    f.cut (fun bs => p ∧ K bs) bs ↔ p ∧ f.cut K bs := by
  unfold cut
  rw [h]
  constructor
  · rintro (hlt | ⟨w, rest, hbs, hw, hp, hK⟩)
    · exact absurd hlt (Nat.not_lt_zero _)
    · exact ⟨hp, .inr ⟨w, rest, hbs, hw, hK⟩⟩
  · rintro ⟨hp, hlt | ⟨w, rest, hbs, hw, hK⟩⟩
    · exact absurd hlt (Nat.not_lt_zero _)
    · exact .inr ⟨w, rest, hbs, hw, hp, hK⟩

theorem checkedWord_cut {α : Type} {width : Nat} (codec : WordCodec α width) (ok : α → Prop)
    (K : Bytes → Prop) (bs : Bytes) :
    (checkedWord codec ok).cut K bs ↔ bs.length < width ∨
      (width ≤ bs.length ∧ ok (codec.decode (bs.take width)) ∧ K (bs.drop width)) := by
  unfold cut
  apply or_congr Iff.rfl
  constructor
  · rintro ⟨w, rest, rfl, ⟨hw, hok⟩, hK⟩
    rw [List.take_left' hw, List.drop_left' hw]
    exact ⟨by simp [hw], hok, hK⟩
  · rintro ⟨hle, hok, hK⟩
    exact ⟨bs.take width, bs.drop width, (List.take_append_drop ..).symm,
      ⟨List.length_take_of_le hle, hok⟩, hK⟩

end Field

/-- The fields of a format in order.  `counted` is a number of entries followed by the entries. -/
inductive Layout where
  | nil
  | field (f : Field) (next : Layout)
  | counted (width : Nat) (count : Bytes → Nat) (entry next : Layout)

namespace Layout

/-- A single byte, guarded. -/
def byte : Layout := .field (.guarded fun w => w.length = 1) .nil

/-- The span ends inside an unguarded field, or `K` holds of the bytes after the layout. -/
def cut : Layout → (Bytes → Prop) → Bytes → Prop
  | .nil, K => K
  | .field f next, K => f.cut (next.cut K)
  | .counted width count entry next, K => fun bs =>
      bs.length < width ∨
        (width ≤ bs.length ∧
          (entry.cut)^[count (bs.take width)] (next.cut K) (bs.drop width))

/-- The span ends inside an unguarded field. -/
def Cut (layout : Layout) : Bytes → Prop := layout.cut fun _ => False

/-- No field of the layout is read unguarded. -/
def Guarded : Layout → Prop
  | .nil => True
  | .field f next => f.unguarded = 0 ∧ next.Guarded
  | .counted .. => False

/-- A layout of guarded fields is never cut off itself. -/
theorem Guarded.not_cut {layout : Layout} (h : layout.Guarded) {K : Bytes → Prop}
    (hK : ∀ bs, ¬K bs) (bs : Bytes) : ¬layout.cut K bs := by
  induction layout generalizing bs with
  | nil => exact hK bs
  | field f next ih =>
    -- a guarded field is never too short, and after it the layout goes on
    rintro (hlt | ⟨w, rest, -, -, hcut⟩)
    · rw [h.1] at hlt
      exact Nat.not_lt_zero _ hlt
    · exact ih h.2 rest hcut
  | counted width count entry next => exact absurd h id

theorem Guarded.not_iterate {entry : Layout} (h : entry.Guarded) {K : Bytes → Prop}
    (hK : ∀ bs, ¬K bs) (n : Nat) (bs : Bytes) : ¬(entry.cut)^[n] K bs := by
  induction n generalizing bs with
  | zero => exact hK bs
  | succ n ih =>
    -- the first entry stands outermost
    rw [Function.iterate_succ_apply']
    exact h.not_cut ih bs

/-- Fields of fixed size come first, within `n` bytes, and only guarded fields follow. -/
def CoveredBy : Nat → Layout → Prop
  | _, .nil => True
  | n, .field f next =>
      (Layout.field f next).Guarded ∨
        (f.unguarded ≤ n ∧ (∀ w, f.Matches w → w.length = f.unguarded) ∧
          next.CoveredBy (n - f.unguarded))
  | n, .counted width _ entry next => width ≤ n ∧ entry.Guarded ∧ next.Guarded

/-- A check of the size at the beginning protects every fixed field within that size. -/
theorem CoveredBy.not_cut {layout : Layout} {n : Nat} (h : layout.CoveredBy n) {bs : Bytes}
    (hn : n ≤ bs.length) : ¬layout.Cut bs := by
  unfold Cut
  induction layout generalizing n bs with
  | nil => exact id
  | field f next ih =>
    rcases h with hguarded | ⟨hle, hfixed, hnext⟩
    · exact hguarded.not_cut (fun _ => id) bs
    · rintro (hlt | ⟨w, rest, rfl, hw, hcut⟩)
      · omega
      -- the field used up its own part of the covered bytes
      · have hw := hfixed w hw
        rw [List.length_append] at hn
        exact ih hnext (by omega) hcut
  | counted width count entry next =>
    obtain ⟨hle, hentry, hnext⟩ := h
    rintro (hlt | ⟨-, hcut⟩)
    · omega
    · exact hentry.not_iterate (hnext.not_cut fun _ => id) _ _ hcut

end Layout

variable {χ σ α β : Type}

/-- The reader takes exactly the well-formed bytes of the field. -/
structure Reader.Reads (r : Reader χ α) (f : Field) : Prop where
  overrun : ∀ bs, r bs = .error .overrun ↔ bs.length < f.unguarded
  ok : ∀ bs rest, (∃ a, r bs = .ok (a, rest)) ↔ ∃ w, bs = w ++ rest ∧ f.Matches w

theorem WordCodec.read_reads {width : Nat} (codec : WordCodec α width) :
    Reader.Reads (χ := χ) codec.read (Field.word width) where
  overrun bs := by
    unfold WordCodec.read
    by_cases h : bs.length < width
    · rw [if_pos h]
      exact iff_of_true rfl h
    · rw [if_neg h]
      exact iff_of_false (fun h => nomatch h) h
  ok bs rest := by
    constructor
    · rintro ⟨a, ha⟩
      by_cases h : bs.length < width
      · rw [codec.read_of_lt h] at ha
        cases ha
      · rw [codec.read_of_le (Nat.not_lt.mp h)] at ha
        cases ha
        exact ⟨bs.take width, (List.take_append_drop ..).symm,
          List.length_take_of_le (Nat.not_lt.mp h)⟩
    · rintro ⟨w, rfl, hw⟩
      have hw : w.length = width := hw
      refine ⟨codec.decode w, ?_⟩
      rw [codec.read_of_le (by simp [hw]), List.take_left' hw, List.drop_left' hw]

namespace Decoder

/-- The decoder runs past its span exactly on the spans in `C`, whatever object it works on. -/
def Cuts (d : Decoder χ σ α) (C : Bytes → Prop) : Prop :=
  ∀ o bs, (d o bs).Overran ↔ C bs

/-- The decoder runs past its span exactly where `layout` is cut off, and otherwise goes on after
the bytes of `layout`. -/
def Follows (d : Decoder χ σ α) (layout : Layout) : Prop :=
  ∀ {β : Type} {k : α → Decoder χ σ β} {K : Bytes → Prop},
    (∀ a, Cuts (k a) K) → Cuts (d >>= k) (layout.cut K)

/-- Taking all that is left cannot fail. -/
theorem cuts_require_unread (p : Bytes → Bool) (e : χ) (f : Bytes → σ → σ) :
    Cuts (require p e >>= fun _ => unread >>= fun bs => update (f bs)) fun _ => False := by
  intro o bs
  rw [bind_run]
  cases h : p bs with
  | true => rw [require_pos h]; exact Iff.rfl
  | false => rw [require_neg h]; exact Iff.rfl

theorem Cuts.update_bind {f : σ → σ} {k : Unit → Decoder χ σ β} {C : Bytes → Prop}
    (h : Cuts (k ()) C) : Cuts (update f >>= k) C :=
  fun o bs => h (f o) bs

theorem Cuts.check_bind (x : Except χ α) {k : α → Decoder χ σ β} {C : Bytes → Prop}
    (h : ∀ a, Cuts (k a) C) : Cuts (check x >>= k) fun bs => (∃ a, x = .ok a) ∧ C bs := by
  intro o bs
  rw [bind_run]
  cases x with
  | ok a =>
    rw [check_ok, Outcome.andThen_done, h a o bs]
    exact ⟨fun hc => ⟨⟨a, rfl⟩, hc⟩, fun hc => hc.2⟩
  | error e =>
    rw [check_error, Outcome.andThen_thrown]
    exact iff_of_false id fun hc => nomatch hc.1

theorem Cuts.read_bind {r : Reader χ α} {f : Field} {k : α → Decoder χ σ β} {K : Bytes → Prop}
    (hr : r.Reads f) (hk : ∀ a, Cuts (k a) K) : Cuts (Decoder.read r >>= k) (f.cut K) := by
  intro o bs
  rw [bind_run]
  unfold Field.cut
  cases h : r bs with
  | ok p =>
    obtain ⟨a, rest⟩ := p
    obtain ⟨w, hbs, hw⟩ := (hr.ok bs rest).mp ⟨a, h⟩
    -- a reader that came back did not run past its span
    have hlong : ¬bs.length < f.unguarded := by
      rw [← hr.overrun, h]
      exact fun h => nomatch h
    rw [read_ok h, Outcome.andThen_done, hk a o rest]
    constructor
    · exact fun hK => .inr ⟨w, rest, hbs, hw, hK⟩
    · rintro (hshort | ⟨w', rest', hbs', hw', hK⟩)
      · exact absurd hshort hlong
      -- the reader is a function: both ways to split the span are the same
      · obtain ⟨a', ha'⟩ := (hr.ok bs rest').mpr ⟨w', hbs', hw'⟩
        rw [h] at ha'
        cases ha'
        exact hK
  | error e =>
    -- no well-formed bytes stand at the front, or the reader would have taken them
    have hnone : ¬∃ w rest, bs = w ++ rest ∧ f.Matches w ∧ K rest := by
      rintro ⟨w, rest, hbs, hw, -⟩
      obtain ⟨a, ha⟩ := (hr.ok bs rest).mpr ⟨w, hbs, hw⟩
      rw [h] at ha
      cases ha
    rw [read_error h, Outcome.andThen_thrown, ← hr.overrun, h]
    cases e with
    | exception e => exact iff_of_false id (by simp [hnone])
    | overrun => exact iff_of_true trivial (.inl rfl)

theorem Cuts.field {r : Reader χ α} {f : Field} {next : Layout} {k : α → Decoder χ σ β}
    {K : Bytes → Prop} (hr : r.Reads f) (hk : ∀ a, Cuts (k a) (next.cut K)) :
    Cuts (Decoder.read r >>= k) ((Layout.field f next).cut K) :=
  Cuts.read_bind hr hk

/-- A loop whose body follows a layout. -/
theorem Follows.times {body : Decoder χ σ Unit} {entry : Layout} (h : Follows body entry)
    (n : Nat) {k : Unit → Decoder χ σ β} {K : Bytes → Prop} (hk : Cuts (k ()) K) :
    Cuts (Decoder.times n body >>= k) ((entry.cut)^[n] K) := by
  induction n with
  | zero => exact hk
  | succ n ih =>
    rw [times_succ, bind_assoc, Function.iterate_succ_apply']
    exact h fun _ => ih

theorem Follows.collect {body : Decoder χ σ α} {entry : Layout} (h : Follows body entry)
    (n : Nat) {k : List α → Decoder χ σ β} {K : Bytes → Prop} (hk : ∀ as, Cuts (k as) K) :
    Cuts (Decoder.collect n body >>= k) ((entry.cut)^[n] K) := by
  induction n generalizing k with
  | zero => exact hk []
  | succ n ih =>
    rw [Decoder.collect, bind_assoc, Function.iterate_succ_apply']
    refine h fun a => ?_
    rw [bind_assoc]
    exact ih fun as => hk (a :: as)

/-- An unguarded count and what its value decides. -/
theorem Cuts.word_bind {width : Nat} (codec : WordCodec α width) {k : α → Decoder χ σ β}
    {C : α → Bytes → Prop} (hk : ∀ a, Cuts (k a) (C a)) :
    Cuts (Decoder.read codec.read >>= k) fun bs => bs.length < width ∨
      (width ≤ bs.length ∧ C (codec.decode (bs.take width)) (bs.drop width)) := by
  intro o bs
  rw [bind_run]
  by_cases h : bs.length < width
  · rw [read_error (codec.read_of_lt h), Outcome.andThen_thrown]
    exact iff_of_true trivial (.inl h)
  · rw [read_ok (codec.read_of_le (Nat.not_lt.mp h)), Outcome.andThen_done, hk _ o _]
    simp [h, Nat.not_lt.mp h]

theorem Cuts.times_counted {width : Nat} {codec : WordCodec α width} {toNat : α → Nat}
    {body : Decoder χ σ Unit} {entry next : Layout} {k : Unit → Decoder χ σ β}
    {K : Bytes → Prop} (hbody : Follows body entry) (hk : Cuts (k ()) (next.cut K)) :
    Cuts (Decoder.read codec.read >>= fun a => Decoder.times (toNat a) body >>= k)
      ((Layout.counted width (fun w => toNat (codec.decode w)) entry next).cut K) :=
  Cuts.word_bind codec fun a => hbody.times (toNat a) hk

theorem Cuts.collect_counted {γ : Type} {width : Nat} {codec : WordCodec α width}
    {toNat : α → Nat} {body : Decoder χ σ γ} {entry next : Layout}
    {k : List γ → Decoder χ σ β} {K : Bytes → Prop} (hbody : Follows body entry)
    (hk : ∀ as, Cuts (k as) (next.cut K)) :
    Cuts (Decoder.read codec.read >>= fun a => Decoder.collect (toNat a) body >>= k)
      ((Layout.counted width (fun w => toNat (codec.decode w)) entry next).cut K) :=
  Cuts.word_bind codec fun a => hbody.collect (toNat a) hk

/-- Bytes without further structure. -/
theorem iterate_byte_cut (n : Nat) (K : Bytes → Prop) (bs : Bytes) :
    (Layout.byte.cut)^[n] (fun rest => rest = [] ∧ K rest) bs ↔ bs.length = n ∧ K [] := by
  induction n generalizing bs with
  | zero =>
    rw [List.length_eq_zero_iff]
    exact ⟨fun ⟨hbs, hK⟩ => ⟨hbs, hbs ▸ hK⟩, fun ⟨hbs, hK⟩ => ⟨hbs, hbs.symm ▸ hK⟩⟩
  | succ n ih =>
    rw [Function.iterate_succ_apply']
    constructor
    · rintro (hshort | ⟨w, rest, rfl, hw, hcut⟩)
      · exact absurd hshort (Nat.not_lt_zero _)
      · have hw : w.length = 1 := hw
        obtain ⟨hlen, hK⟩ := (ih rest).mp hcut
        exact ⟨by rw [List.length_append, hw, hlen, Nat.add_comm], hK⟩
    · rintro ⟨hlen, hK⟩
      refine .inr ⟨bs.take 1, bs.drop 1, (List.take_append_drop ..).symm,
        List.length_take_of_le (by omega), (ih _).mpr ⟨?_, hK⟩⟩
      rw [List.length_drop]
      omega

/-- A length and all that is left, which has to have that length. -/
theorem Cuts.counted_unread {width : Nat} {codec : WordCodec α width} {toNat : α → Nat} {e : χ}
    {f : Bytes → σ → σ} {k : Unit → Decoder χ σ β} {K : Bytes → Prop} (hk : Cuts (k ()) K) :
    Cuts (Decoder.read codec.read >>= fun a =>
        require (fun rest => rest.length == toNat a) e >>= fun _ =>
          unread >>= fun rest => update (f rest) >>= k)
      ((Layout.counted width (fun w => toNat (codec.decode w)) Layout.byte .nil).cut
        fun rest => rest = [] ∧ K rest) := by
  have hend : ∀ a, Cuts (require (fun rest => rest.length == toNat a) e >>= fun _ =>
      unread >>= fun rest => update (f rest) >>= k) fun bs => bs.length = toNat a ∧ K [] := by
    intro a o bs
    rw [bind_run]
    by_cases hlen : bs.length = toNat a
    · rw [require_pos (by simpa using hlen), Outcome.andThen_done]
      exact (hk _ []).trans (and_iff_right hlen).symm
    · rw [require_neg (by simpa using hlen), Outcome.andThen_thrown]
      exact iff_of_false id fun hc => hlen hc.1
  have hcut := Cuts.word_bind codec hend
  -- the bytes behind the length are the entries of the layout
  simp only [Layout.cut, iterate_byte_cut]
  exact hcut

/-- A word that is checked as soon as it is read. -/
theorem Cuts.checked {γ : Type} {width : Nat} {codec : WordCodec α width} {g : α → Except χ γ}
    {next : Layout} {k : γ → Decoder χ σ β} {K : Bytes → Prop}
    (hk : ∀ c, Cuts (k c) (next.cut K)) :
    Cuts (Decoder.read codec.read >>= fun a => check (g a) >>= k)
      ((Layout.field (Field.checkedWord codec fun a => ∃ c, g a = .ok c) next).cut K) := by
  intro o bs
  have h := Cuts.word_bind codec (fun a => Cuts.check_bind (g a) hk) o bs
  rw [h, Layout.cut, Field.checkedWord_cut]

/-- A word that is checked after the guarded field behind it is read. -/
theorem Cuts.checked_late {γ δ : Type} {width : Nat} {codec : WordCodec α width}
    {g : α → Except χ γ} {r : Reader χ δ} {f : Field} {next : Layout}
    {k : δ → γ → Decoder χ σ β} {K : Bytes → Prop} (hr : r.Reads f) (hf : f.unguarded = 0)
    (hk : ∀ d c, Cuts (k d c) (next.cut K)) :
    Cuts (Decoder.read codec.read >>= fun a => Decoder.read r >>= fun d => check (g a) >>= k d)
      ((Layout.field (Field.checkedWord codec fun a => ∃ c, g a = .ok c)
        (Layout.field f next)).cut K) := by
  intro o bs
  have h := Cuts.word_bind codec
    (fun a => Cuts.read_bind hr fun d => Cuts.check_bind (g a) (hk d)) o bs
  -- the check can be moved in front of the guarded field, which cannot run past the span
  simp only [f.cut_and hf] at h
  rw [h, Layout.cut, Field.checkedWord_cut, Layout.cut]

end Decoder

end Reasoning
