import Arinc615a.Reasoning.Layout

/-!
# The spans a layout describes

`Layout.Matches` says that a span consists of the fields of a layout and nothing else.  The rules
for `Cuts` hold for every continuation, so a continuation that itself overruns shows which bytes a
decoder leaves to it: a decoder that follows a layout accepts just what the layout describes.
-/

namespace Reasoning

namespace Layout

/-- The span consists of the fields of the layout. -/
def Matches : Layout → Bytes → Prop
  | .nil, bs => bs = []
  | .field f next, bs => ∃ w rest, bs = w ++ rest ∧ f.Matches w ∧ next.Matches rest
  | .counted width count entry next, bs =>
      ∃ w entries rest, bs = w ++ (List.flatten entries ++ rest) ∧ w.length = width ∧
        entries.length = count w ∧ (∀ e ∈ entries, entry.Matches e) ∧ next.Matches rest

/-- The span starts with the fields of the layout, and `K` holds of the bytes after them. -/
def Leaves (layout : Layout) (K : Bytes → Prop) (bs : Bytes) : Prop :=
  ∃ w rest, bs = w ++ rest ∧ layout.Matches w ∧ K rest

theorem leaves_or (layout : Layout) (K L : Bytes → Prop) (bs : Bytes) :
    layout.Leaves (fun bs => K bs ∨ L bs) bs ↔ layout.Leaves K bs ∨ layout.Leaves L bs := by
  constructor
  · rintro ⟨w, rest, hbs, hw, hK | hL⟩
    · exact .inl ⟨w, rest, hbs, hw, hK⟩
    · exact .inr ⟨w, rest, hbs, hw, hL⟩
  · rintro (⟨w, rest, hbs, hw, hK⟩ | ⟨w, rest, hbs, hw, hL⟩)
    · exact ⟨w, rest, hbs, hw, .inl hK⟩
    · exact ⟨w, rest, hbs, hw, .inr hL⟩

theorem nil_leaves (K : Bytes → Prop) (bs : Bytes) : Layout.nil.Leaves K bs ↔ K bs := by
  constructor
  · rintro ⟨w, rest, rfl, hw, hK⟩
    have hw : w = [] := hw
    rwa [hw]
  · exact fun hK => ⟨[], bs, rfl, rfl, hK⟩

theorem field_leaves (f : Field) (next : Layout) (K : Bytes → Prop) (bs : Bytes) :
    (Layout.field f next).Leaves K bs ↔
      ∃ w rest, bs = w ++ rest ∧ f.Matches w ∧ next.Leaves K rest := by
  constructor
  · rintro ⟨_, rest, rfl, ⟨w, v, rfl, hw, hv⟩, hK⟩
    exact ⟨w, v ++ rest, List.append_assoc .., hw, v, rest, rfl, hv, hK⟩
  · rintro ⟨w, _, rfl, hw, v, rest, rfl, hv, hK⟩
    exact ⟨w ++ v, rest, (List.append_assoc ..).symm, ⟨w, v, rfl, hw, hv⟩, hK⟩

/-- Entries one after the other, each described by `entry`. -/
def Entries (entry : Layout) (n : Nat) (K : Bytes → Prop) (bs : Bytes) : Prop :=
  ∃ entries rest, bs = List.flatten entries ++ rest ∧ entries.length = n ∧
    (∀ e ∈ entries, entry.Matches e) ∧ K rest

theorem entries_zero (entry : Layout) (K : Bytes → Prop) (bs : Bytes) :
    entry.Entries 0 K bs ↔ K bs := by
  constructor
  · rintro ⟨entries, rest, rfl, hlen, -, hK⟩
    rw [List.length_eq_zero_iff.mp hlen]
    exact hK
  · exact fun hK => ⟨[], bs, rfl, rfl, List.forall_mem_nil _, hK⟩

theorem entries_or (entry : Layout) (n : Nat) (K L : Bytes → Prop) (bs : Bytes) :
    entry.Entries n (fun bs => K bs ∨ L bs) bs ↔ entry.Entries n K bs ∨ entry.Entries n L bs := by
  constructor
  · rintro ⟨entries, rest, hbs, hlen, hentries, hK | hL⟩
    · exact .inl ⟨entries, rest, hbs, hlen, hentries, hK⟩
    · exact .inr ⟨entries, rest, hbs, hlen, hentries, hL⟩
  · rintro (⟨entries, rest, hbs, hlen, hentries, hK⟩ | ⟨entries, rest, hbs, hlen, hentries, hL⟩)
    · exact ⟨entries, rest, hbs, hlen, hentries, .inl hK⟩
    · exact ⟨entries, rest, hbs, hlen, hentries, .inr hL⟩

theorem entries_succ (entry : Layout) (n : Nat) (K : Bytes → Prop) (bs : Bytes) :
    entry.Entries (n + 1) K bs ↔ entry.Leaves (entry.Entries n K) bs := by
  constructor
  · rintro ⟨entries, rest, rfl, hlen, hentries, hK⟩
    obtain ⟨e, entries, rfl⟩ := List.exists_cons_of_length_eq_add_one hlen
    rw [List.forall_mem_cons] at hentries
    rw [List.flatten_cons, List.append_assoc]
    exact ⟨e, _, rfl, hentries.1, entries, rest, rfl, Nat.succ.inj hlen, hentries.2, hK⟩
  · rintro ⟨e, _, rfl, he, entries, rest, rfl, hlen, hentries, hK⟩
    refine ⟨e :: entries, rest, ?_, by rw [List.length_cons, hlen], ?_, hK⟩
    · rw [List.flatten_cons, List.append_assoc]
    · rw [List.forall_mem_cons]
      exact ⟨he, hentries⟩

theorem counted_leaves (width : Nat) (count : Bytes → Nat) (entry next : Layout)
    (K : Bytes → Prop) (bs : Bytes) :
    (Layout.counted width count entry next).Leaves K bs ↔
      width ≤ bs.length ∧
        entry.Entries (count (bs.take width)) (next.Leaves K) (bs.drop width) := by
  constructor
  · rintro ⟨_, rest, rfl, ⟨w, entries, v, rfl, hw, hlen, hentries, hv⟩, hK⟩
    simp only [List.append_assoc]
    rw [List.take_left' hw, List.drop_left' hw]
    exact ⟨by simp [hw], entries, v ++ rest, rfl, hlen, hentries, v, rest, rfl, hv, hK⟩
  · rintro ⟨hle, entries, _, hdrop, hlen, hentries, v, rest, rfl, hv, hK⟩
    refine ⟨bs.take width ++ (entries.flatten ++ v), rest, ?_,
      ⟨bs.take width, entries, v, rfl, List.length_take_of_le hle, hlen, hentries, hv⟩, hK⟩
    rw [List.append_assoc, List.append_assoc, ← hdrop, List.take_append_drop]

/-- The span is cut off inside the layout, or it is described by it and `K` holds of the rest. -/
theorem cut_iff (layout : Layout) (K : Bytes → Prop) (bs : Bytes) :
    layout.cut K bs ↔ layout.Cut bs ∨ layout.Leaves K bs := by
  induction layout generalizing K bs with
  | nil => rw [nil_leaves]; exact iff_of_eq (false_or _).symm
  | field f next ih =>
    rw [field_leaves]
    unfold Cut
    simp only [cut, Field.cut]
    constructor
    · rintro (hshort | ⟨w, rest, hbs, hw, hcut⟩)
      · exact .inl (.inl hshort)
      · rcases (ih K rest).mp hcut with hcut | hleaves
        · exact .inl (.inr ⟨w, rest, hbs, hw, hcut⟩)
        · exact .inr ⟨w, rest, hbs, hw, hleaves⟩
    · rintro ((hshort | ⟨w, rest, hbs, hw, hcut⟩) | ⟨w, rest, hbs, hw, hleaves⟩)
      · exact .inl hshort
      · exact .inr ⟨w, rest, hbs, hw, (ih K rest).mpr (.inl hcut)⟩
      · exact .inr ⟨w, rest, hbs, hw, (ih K rest).mpr (.inr hleaves)⟩
  | counted width count entry next ihentry ihnext =>
    -- the loop over the entries, by induction on their number
    have hloop : ∀ n K bs, (entry.cut)^[n] K bs ↔
        (entry.cut)^[n] (fun _ => False) bs ∨ entry.Entries n K bs := by
      intro n K
      induction n with
      | zero => intro bs; rw [entries_zero]; exact iff_of_eq (false_or _).symm
      | succ n ih =>
        intro bs
        have ih := funext fun bs => propext (ih bs)
        rw [Function.iterate_succ_apply', Function.iterate_succ_apply', entries_succ,
          ihentry, ihentry ((entry.cut)^[n] fun _ => False), ih, leaves_or, or_assoc]
    unfold Cut
    simp only [cut]
    rw [counted_leaves]
    have hnext := funext fun bs => propext (ihnext K bs)
    rw [hloop, hloop _ (next.cut fun _ => False), hnext, entries_or]
    -- the cut inside the loop, in what follows, or nowhere: the same three cases on both sides
    rw [← or_assoc, and_or_left, or_assoc]
    rfl

end Layout

variable {χ σ α β : Type}

namespace Decoder

theorem overran_thrown (e : Failure χ) (o : σ) :
    (Outcome.thrown e o : Outcome χ σ α).Overran ↔ e = .overrun := by
  cases e with
  | exception e => exact iff_of_false id (fun h => nomatch h)
  | overrun => exact iff_of_true trivial rfl

/-- A continuation that overruns on the spans in `P`. -/
noncomputable def probe (P : Bytes → Prop) : Decoder χ σ Unit := fun o bs =>
  open Classical in if P bs then .thrown .overrun o else .done () o bs

theorem cuts_probe (P : Bytes → Prop) : Cuts (probe P : Decoder χ σ Unit) P := by
  intro o bs
  unfold probe
  by_cases h : P bs
  · rw [if_pos h]
    exact iff_of_true trivial h
  · rw [if_neg h]
    exact iff_of_false id h

theorem overran_bind_probe (d : Decoder χ σ α) (P : Bytes → Prop) (o : σ) (bs : Bytes) :
    ((d >>= fun _ => probe P) o bs).Overran ↔
      (d o bs).Overran ∨ ∃ a o' rest, d o bs = .done a o' rest ∧ P rest := by
  rw [bind_run]
  cases h : d o bs with
  | done a o' rest =>
    rw [Outcome.andThen_done, cuts_probe P o' rest]
    constructor
    · exact fun hP => .inr ⟨a, o', rest, rfl, hP⟩
    · rintro (hover | ⟨_, _, _, hdone, hP⟩)
      · exact absurd hover id
      · cases hdone
        exact hP
  | thrown e o' =>
    rw [Outcome.andThen_thrown, overran_thrown, overran_thrown]
    constructor
    · exact .inl
    · rintro (hover | ⟨_, _, _, hdone, -⟩)
      · exact hover
      · cases hdone

end Decoder

end Reasoning

