import Mathlib.Algebra.BigOperators.Group.Finset.Basic
import Mathlib.Algebra.Ring.Nat
import Mathlib.Data.List.Induction
import Mathlib.Data.List.Sort
import Mathlib.Order.Defs.LinearOrder

/-!
# Maps in the order of a rank

An ordered map that compares its keys by a rank.  Keys of one rank are the same to it, and an entry
is taken in only if there is none of its rank yet.
-/

namespace Reasoning

/-- The entries are in strictly rising order. -/
structure OrderedMap {κ ρ : Type} [LinearOrder ρ] (rank : κ → ρ) (α : Type) where
  entries : List (κ × α)
  sorted : entries.Pairwise fun a b => rank a.1 < rank b.1

namespace OrderedMap

variable {κ ρ α : Type} [LinearOrder ρ] {rank : κ → ρ}

/-- Looks for the place of a key from the front. -/
def emplaceEntry (rank : κ → ρ) (key : κ) (value : α) : List (κ × α) → List (κ × α)
  | [] => [(key, value)]
  | entry :: entries =>
    if rank key < rank entry.1 then (key, value) :: entry :: entries
    else if rank entry.1 < rank key then entry :: emplaceEntry rank key value entries
    else entry :: entries

theorem mem_emplaceEntry {key : κ} {value : α} {entries : List (κ × α)}
    (hsorted : entries.Pairwise fun a b => rank a.1 < rank b.1) {e : κ × α} :
    e ∈ emplaceEntry rank key value entries ↔
      e ∈ entries ∨ (e = (key, value) ∧ ∀ entry ∈ entries, rank entry.1 ≠ rank key) := by
  induction entries with
  | nil => simp [emplaceEntry]
  | cons entry entries ih =>
    obtain ⟨hfront, hrest⟩ := List.pairwise_cons.mp hsorted
    rw [emplaceEntry]
    split_ifs with hbefore hbehind
    · -- all entries come behind the new one
      have hfree : ∀ e ∈ entry :: entries, rank e.1 ≠ rank key :=
        List.forall_mem_cons.mpr
          ⟨hbefore.ne', fun e he => (hbefore.trans (hfront e he)).ne'⟩
      rw [List.mem_cons, or_comm]
      exact or_congr_right (iff_self_and.mpr fun _ => hfree)
    · rw [List.mem_cons, ih hrest, List.mem_cons, List.forall_mem_cons, or_assoc]
      simp only [ne_eq, hbehind.ne, not_false_eq_true, true_and]
    · have heq : rank entry.1 = rank key := le_antisymm (not_lt.mp hbefore) (not_lt.mp hbehind)
      refine ⟨.inl, fun h => h.resolve_right ?_⟩
      rintro ⟨-, hfree⟩
      exact hfree entry (List.mem_cons_self ..) heq

theorem sorted_emplaceEntry (key : κ) (value : α) {entries : List (κ × α)}
    (hsorted : entries.Pairwise fun a b => rank a.1 < rank b.1) :
    (emplaceEntry rank key value entries).Pairwise fun a b => rank a.1 < rank b.1 := by
  induction entries with
  | nil => exact List.pairwise_singleton _ _
  | cons entry entries ih =>
    obtain ⟨hfront, hrest⟩ := List.pairwise_cons.mp hsorted
    rw [emplaceEntry]
    split_ifs with hbefore hbehind
    · refine List.pairwise_cons.mpr ⟨List.forall_mem_cons.mpr ⟨hbefore, fun e he => ?_⟩, hsorted⟩
      exact hbefore.trans (hfront e he)
    · refine List.pairwise_cons.mpr ⟨fun e he => ?_, ih hrest⟩
      rcases (mem_emplaceEntry hrest).mp he with he | ⟨rfl, -⟩
      · exact hfront e he
      · exact hbehind
    · exact hsorted

def empty (rank : κ → ρ) (α : Type) : OrderedMap rank α := ⟨[], List.Pairwise.nil⟩

def emplace (map : OrderedMap rank α) (key : κ) (value : α) : OrderedMap rank α :=
  ⟨emplaceEntry rank key value map.entries, sorted_emplaceEntry key value map.sorted⟩

theorem mem_emplace {map : OrderedMap rank α} {key : κ} {value : α} {e : κ × α} :
    e ∈ (map.emplace key value).entries ↔
      e ∈ map.entries ∨ (e = (key, value) ∧ ∀ entry ∈ map.entries, rank entry.1 ≠ rank key) :=
  mem_emplaceEntry map.sorted

/-- There is one entry of a rank at most. -/
theorem eq_of_rank_eq {map : OrderedMap rank α} {a b : κ × α} (ha : a ∈ map.entries)
    (hb : b ∈ map.entries) (h : rank a.1 = rank b.1) : a = b := by
  by_contra hne
  rcases List.pairwise_iff_getElem.mp map.sorted with hsorted
  obtain ⟨i, hi, rfl⟩ := List.getElem_of_mem ha
  obtain ⟨j, hj, rfl⟩ := List.getElem_of_mem hb
  rcases Nat.lt_trichotomy i j with hij | rfl | hji
  · exact (hsorted i j hi hj hij).ne h
  · exact hne rfl
  · exact (hsorted j i hj hi hji).ne' h

/-- Takes in the entries of a list one after the other. -/
def ofList (rank : κ → ρ) (list : List (κ × α)) : OrderedMap rank α :=
  list.foldl (fun map entry => map.emplace entry.1 entry.2) (empty rank α)

/-- The entries are those of the list that come first of their rank. -/
theorem mem_ofList {list : List (κ × α)} {e : κ × α} :
    e ∈ (ofList rank list).entries ↔ list.find? (fun entry => rank entry.1 = rank e.1) = some e := by
  induction list using List.reverseRecOn generalizing e with
  | nil => simp [ofList, empty]
  | append_singleton list entry ih =>
    have hlast : ofList rank (list ++ [entry]) = (ofList rank list).emplace entry.1 entry.2 :=
      List.foldl_concat ..
    rw [hlast, mem_emplace, ih, List.find?_append]
    cases hfind : list.find? fun entry => rank entry.1 = rank e.1 with
    | some first =>
      have hrank : rank first.1 = rank e.1 := by simpa using List.find?_some hfind
      have hfirst : first ∈ (ofList rank list).entries := by
        rw [ih, hrank]
        exact hfind
      rw [Option.some_or]
      refine or_iff_left ?_
      rintro ⟨rfl, hfree⟩
      exact hfree first hfirst hrank
    | none =>
      rw [Option.none_or, or_iff_right (fun h => nomatch h), List.find?_singleton]
      constructor
      · rintro ⟨rfl, -⟩
        rw [if_pos (decide_eq_true rfl)]
      · intro h
        split at h
        case isFalse => cases h
        case isTrue =>
          obtain rfl := Option.some.inj h
          refine ⟨rfl, fun earlier hearlier hrank => ?_⟩
          -- an entry of the same rank would have been found in the list
          have hmem := List.mem_of_find?_eq_some (ih.mp hearlier)
          exact List.find?_eq_none.mp hfind earlier hmem (decide_eq_true hrank)

/-! ## Changing the entry of a key -/

def find? (map : OrderedMap rank α) (key : κ) : Option α :=
  (map.entries.find? fun entry => rank entry.1 = rank key).map (·.2)

/-- The value of a key becomes what a function makes of it, or of `none` if there is no entry. -/
def alterEntry (rank : κ → ρ) (key : κ) (f : Option α → α) : List (κ × α) → List (κ × α)
  | [] => [(key, f none)]
  | entry :: entries =>
    if rank key < rank entry.1 then (key, f none) :: entry :: entries
    else if rank entry.1 < rank key then entry :: alterEntry rank key f entries
    else (entry.1, f (some entry.2)) :: entries

theorem rank_of_mem_alterEntry {key : κ} {f : Option α → α} {entries : List (κ × α)} {e : κ × α}
    (h : e ∈ alterEntry rank key f entries) :
    rank e.1 = rank key ∨ ∃ entry ∈ entries, rank entry.1 = rank e.1 := by
  induction entries with
  | nil => exact .inl (by rw [List.mem_singleton.mp h])
  | cons entry entries ih =>
    rw [alterEntry] at h
    split_ifs at h with hbefore hbehind
    · rcases List.mem_cons.mp h with rfl | h
      · exact .inl rfl
      · exact .inr ⟨e, h, rfl⟩
    · rcases List.mem_cons.mp h with rfl | h
      · exact .inr ⟨e, List.mem_cons_self .., rfl⟩
      · rcases ih h with hkey | ⟨other, hother, hrank⟩
        · exact .inl hkey
        · exact .inr ⟨other, List.mem_cons_of_mem _ hother, hrank⟩
    · rcases List.mem_cons.mp h with rfl | h
      · exact .inr ⟨entry, List.mem_cons_self .., rfl⟩
      · exact .inr ⟨e, List.mem_cons_of_mem _ h, rfl⟩

theorem sorted_alterEntry (key : κ) (f : Option α → α) {entries : List (κ × α)}
    (hsorted : entries.Pairwise fun a b => rank a.1 < rank b.1) :
    (alterEntry rank key f entries).Pairwise fun a b => rank a.1 < rank b.1 := by
  induction entries with
  | nil => exact List.pairwise_singleton _ _
  | cons entry entries ih =>
    obtain ⟨hfront, hrest⟩ := List.pairwise_cons.mp hsorted
    rw [alterEntry]
    split_ifs with hbefore hbehind
    · refine List.pairwise_cons.mpr ⟨List.forall_mem_cons.mpr ⟨hbefore, fun e he => ?_⟩, hsorted⟩
      exact hbefore.trans (hfront e he)
    · refine List.pairwise_cons.mpr ⟨fun e he => ?_, ih hrest⟩
      rcases rank_of_mem_alterEntry he with hkey | ⟨other, hother, hrank⟩
      · rwa [hkey]
      · rw [← hrank]
        exact hfront other hother
    · exact List.pairwise_cons.mpr ⟨hfront, hrest⟩

def alter (map : OrderedMap rank α) (key : κ) (f : Option α → α) : OrderedMap rank α :=
  ⟨alterEntry rank key f map.entries, sorted_alterEntry key f map.sorted⟩

theorem find?_eq_some_iff {map : OrderedMap rank α} {key : κ} {value : α} :
    map.find? key = some value ↔ ∃ entry ∈ map.entries, rank entry.1 = rank key ∧ entry.2 = value := by
  unfold find?
  rw [Option.map_eq_some_iff]
  constructor
  · rintro ⟨entry, hfind, rfl⟩
    exact ⟨entry, List.mem_of_find?_eq_some hfind, by simpa using List.find?_some hfind, rfl⟩
  · rintro ⟨entry, hentry, hrank, rfl⟩
    refine ⟨entry, ?_, rfl⟩
    cases hfind : map.entries.find? fun entry => rank entry.1 = rank key with
    | none => exact absurd (decide_eq_true hrank) (List.find?_eq_none.mp hfind entry hentry)
    | some first =>
      have hfirst : rank first.1 = rank key := by simpa using List.find?_some hfind
      rw [eq_of_rank_eq (List.mem_of_find?_eq_some hfind) hentry (hfirst.trans hrank.symm)]

/-- One key changes, and no other. -/
theorem find?_alter (map : OrderedMap rank α) (key : κ) (f : Option α → α) (other : κ) :
    (map.alter key f).find? other =
      if rank other = rank key then some (f (map.find? key)) else map.find? other := by
  obtain ⟨entries, hsorted⟩ := map
  show ((alterEntry rank key f entries).find? fun e => rank e.1 = rank other).map (·.2) =
    if rank other = rank key
      then some (f ((entries.find? fun e => rank e.1 = rank key).map (·.2)))
      else (entries.find? fun e => rank e.1 = rank other).map (·.2)
  induction entries with
  | nil =>
    by_cases hother : rank other = rank key
    · simp [alterEntry, hother]
    · simp [alterEntry, hother, Ne.symm hother]
  | cons entry entries ih =>
    obtain ⟨hfront, hrest⟩ := List.pairwise_cons.mp hsorted
    have ih := ih hrest
    rw [alterEntry]
    split_ifs with hbefore hother hbehind hother hother
    · have hnone : entries.find? (fun e => rank e.1 = rank key) = none :=
        List.find?_eq_none.mpr fun e he => by
          simpa using (hbefore.trans (hfront e he)).ne'
      simp [hother, hbefore.ne', hnone]
    · simp [Ne.symm hother]
    · rw [if_pos hother] at ih
      simp only [List.find?_cons, hother, hbehind.ne, decide_false] at ih ⊢
      exact ih
    · rw [if_neg hother] at ih
      by_cases hentry : rank entry.1 = rank other
      · simp [hentry]
      · simp only [List.find?_cons, hentry, decide_false]
        exact ih
    · have heq : rank entry.1 = rank key := le_antisymm (not_lt.mp hbefore) (not_lt.mp hbehind)
      simp [hother, heq]
    · have heq : rank entry.1 = rank key := le_antisymm (not_lt.mp hbefore) (not_lt.mp hbehind)
      have hne : rank entry.1 ≠ rank other := fun h => hother (h.symm.trans heq)
      simp [hne]

theorem isSome_find?_alter {map : OrderedMap rank α} {other : κ} (h : (map.find? other).isSome)
    (key : κ) (f : Option α → α) : ((map.alter key f).find? other).isSome := by
  rw [find?_alter]
  split
  · rfl
  · exact h

/-- Where no two keys have one rank, the map is a function of the keys. -/
theorem find?_alter_eq_update [DecidableEq κ] (hrank : Function.Injective rank)
    (map : OrderedMap rank α) (key : κ) (f : Option α → α) :
    (map.alter key f).find? = Function.update map.find? key (some (f (map.find? key))) := by
  funext other
  rw [find?_alter, Function.update_apply]
  simp only [hrank.eq_iff]

/-- A sum over the entries is one over the keys that have an entry, if no two have one rank. -/
theorem sum_entries [DecidableEq κ] (map : OrderedMap rank α) (size : α → Nat)
    (hrank : Function.Injective rank) {keys : Finset κ}
    (hkeys : ∀ key, key ∈ keys ↔ (map.find? key).isSome) :
    (map.entries.map fun entry => size entry.2).sum =
      ∑ key ∈ keys, ((map.find? key).map size).getD 0 := by
  have hnodup : (map.entries.map (·.1)).Nodup :=
    List.Pairwise.map _ (fun _ _ h heq => h.ne (congrArg rank heq)) map.sorted
  have hfinset : keys = (map.entries.map (·.1)).toFinset := by
    ext key
    rw [hkeys, Option.isSome_iff_exists, List.mem_toFinset, List.mem_map]
    simp only [find?_eq_some_iff]
    constructor
    · rintro ⟨value, entry, hentry, heq, -⟩
      exact ⟨entry, hentry, hrank heq⟩
    · rintro ⟨entry, hentry, rfl⟩
      exact ⟨entry.2, entry, hentry, rfl, rfl⟩
  rw [hfinset, List.sum_toFinset _ hnodup, List.map_map]
  refine congrArg List.sum (List.map_congr_left fun entry hentry => ?_)
  have hfind : map.find? entry.1 = some entry.2 :=
    find?_eq_some_iff.mpr ⟨entry, hentry, rfl, rfl⟩
  show size entry.2 = ((map.find? entry.1).map size).getD 0
  rw [hfind]
  rfl

end OrderedMap

end Reasoning
