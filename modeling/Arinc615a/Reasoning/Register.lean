import Mathlib.Data.List.Induction
import Mathlib.Data.List.Nodup

/-!
# Registers

A register is a list of entries, each found by its key.  An entry is added at the end, or the first
one with a key is changed, or all of them.  As long as no key is added that is there already, each
key has one entry, and what has become of it can be told from the changes to this key alone.
-/

namespace Reasoning

namespace Register

variable {κ α : Type} [DecidableEq κ]

/-- Changes the first entry with a key, or a new one at the end. -/
def updateFirst (key : α → κ) (k : κ) (new : α) (f : α → α) : List α → List α
  | [] => [f new]
  | a :: as => if key a = k then f a :: as else a :: updateFirst key k new f as

/-- A function on entries that leaves the key as it is. -/
structure KeyKeeping (key : α → κ) where
  apply : α → α
  key_apply : ∀ a, key (apply a) = key a

inductive Change (key : α → κ) where
  | add (entry : α)
  | update (new : α) (f : KeyKeeping key)
  | sweep (f : KeyKeeping key)

namespace Change

variable {key : α → κ}

def apply (entries : List α) : Change key → List α
  | .add entry => entries ++ [entry]
  | .update new f => updateFirst key (key new) new f.apply entries
  | .sweep f => entries.map f.apply

/-- The key that a change names. -/
def mention : Change key → Option κ
  | .add entry => some (key entry)
  | .update new _ => some (key new)
  | .sweep _ => none

/-- What a change makes of the entry with a key. -/
def see (k : κ) (found? : Option α) : Change key → Option α
  | .add entry => if key entry = k then some entry else found?
  | .update new f => if key new = k then some (f.apply (found?.getD new)) else found?
  | .sweep f => found?.map f.apply

end Change

variable {key : α → κ}

def run (entries : List α) (changes : List (Change key)) : List α :=
  changes.foldl Change.apply entries

/-- What has become of the entry with a key. -/
def latest? (k : κ) (changes : List (Change key)) : Option α :=
  changes.foldl (Change.see k) none

/-- The elements of a list in the order in which they come first. -/
def distinct (ks : List κ) : List κ := ks.eraseDups

/-- The keys in the order in which they are named first. -/
def keys (changes : List (Change key)) : List κ := distinct (changes.filterMap Change.mention)

/-- No key is added that has been named before. -/
def Fresh (changes : List (Change key)) : Prop :=
  ∀ before entry after, changes = before ++ .add entry :: after → key entry ∉ keys before

@[simp] theorem mem_distinct {ks : List κ} {k : κ} : k ∈ distinct ks ↔ k ∈ ks :=
  List.mem_eraseDups

theorem mem_keys {changes : List (Change key)} {k : κ} :
    k ∈ keys changes ↔ ∃ change ∈ changes, change.mention = some k := by
  simp [keys]

theorem distinct_append_singleton (ks : List κ) (k : κ) :
    distinct (ks ++ [k]) = if k ∈ ks then distinct ks else distinct ks ++ [k] := by
  unfold distinct
  rw [List.eraseDups_append]
  by_cases hmem : k ∈ ks
  · simp [List.removeAll, hmem]
  · simp [List.removeAll, hmem, List.eraseDups_cons]

theorem keys_append_singleton (changes : List (Change key)) (change : Change key) :
    keys (changes ++ [change]) =
      match change.mention with
      | none => keys changes
      | some k => if k ∈ keys changes then keys changes else keys changes ++ [k] := by
  unfold keys
  rw [List.filterMap_append]
  cases hmention : change.mention with
  | none => simp [hmention]
  | some k => simp [hmention, distinct_append_singleton]

theorem Fresh.append_singleton {changes : List (Change key)} {change : Change key}
    (h : Fresh (changes ++ [change])) :
    Fresh changes ∧ ∀ entry, change = .add entry → key entry ∉ keys changes := by
  refine ⟨fun before entry after hsplit => ?_, fun entry hentry => ?_⟩
  · exact h before entry (after ++ [change]) (by rw [hsplit]; simp)
  · exact h changes entry [] (by rw [hentry])

/-- A list of keys whose entries are known is changed at the first entry with a key. -/
theorem updateFirst_filterMap {ks : List κ} {state : κ → Option α} {k : κ} {new : α}
    {f : KeyKeeping key} (hnodup : ks.Nodup)
    (hkey : ∀ k' ∈ ks, ∃ a, state k' = some a ∧ key a = k') :
    updateFirst key k new f.apply (ks.filterMap state) =
      (if k ∈ ks then ks else ks ++ [k]).filterMap fun k' =>
        if k = k' then
          if k ∈ ks then (state k').map f.apply else some (f.apply new)
        else state k' := by
  induction ks with
  | nil => simp [updateFirst]
  | cons first ks ih =>
    obtain ⟨hfirst, hnodup⟩ := List.nodup_cons.mp hnodup
    obtain ⟨a, ha, hkeya⟩ := hkey first (List.mem_cons_self ..)
    have hrest := ih hnodup fun k' hk' => hkey k' (List.mem_cons_of_mem _ hk')
    rw [List.filterMap_cons_some ha, updateFirst, hkeya]
    by_cases heq : first = k
    · -- the others have other keys
      subst heq
      have hothers : ks.filterMap (fun k' =>
          if first = k' then (state k').map f.apply else state k') = ks.filterMap state := by
        refine List.filterMap_congr fun k' hk' => if_neg fun heq => ?_
        exact hfirst (heq ▸ hk')
      simp [ha, hothers]
    · rw [if_neg heq, hrest]
      by_cases hmem : k ∈ ks
      · simp [hmem, Ne.symm heq, ha]
      · simp [hmem, Ne.symm heq, ha]

theorem latest?_append_singleton (k : κ) (changes : List (Change key)) (change : Change key) :
    latest? k (changes ++ [change]) = change.see k (latest? k changes) := by
  simp [latest?]

theorem run_append_singleton (entries : List α) (changes : List (Change key))
    (change : Change key) :
    run entries (changes ++ [change]) = change.apply (run entries changes) := by
  simp [run]

theorem nodup_keys (changes : List (Change key)) : (keys changes).Nodup := by
  induction changes using List.reverseRecOn with
  | nil => exact List.nodup_nil
  | append_singleton changes change ih =>
    rw [keys_append_singleton]
    cases change.mention with
    | none => exact ih
    | some k =>
      dsimp only
      split
      case isTrue => exact ih
      case isFalse hnew => exact ih.append (by simp) (by simpa using hnew)

/-- A key has an entry, with this key, if and only if it has been named. -/
theorem latest?_of_mem {changes : List (Change key)} (k : κ) :
    (k ∈ keys changes → ∃ a, latest? k changes = some a ∧ key a = k) ∧
      (k ∉ keys changes → latest? k changes = none) := by
  induction changes using List.reverseRecOn with
  | nil => exact ⟨fun h => (nomatch h), fun _ => rfl⟩
  | append_singleton changes change ih =>
    rw [keys_append_singleton, latest?_append_singleton]
    cases change with
    | add entry =>
      dsimp only [Change.mention, Change.see]
      by_cases heq : key entry = k
      · subst heq
        rw [if_pos rfl]
        refine ⟨fun _ => ⟨entry, rfl, rfl⟩, fun h => absurd ?_ h⟩
        split
        · assumption
        · simp
      · rw [if_neg heq]
        split <;> simpa [Ne.symm heq] using ih
    | update new f =>
      dsimp only [Change.mention, Change.see]
      by_cases heq : key new = k
      · subst heq
        rw [if_pos rfl]
        refine ⟨fun _ => ⟨_, rfl, ?_⟩, fun h => absurd ?_ h⟩
        · rw [f.key_apply]
          by_cases hmem : key new ∈ keys changes
          · obtain ⟨a, ha, hkey⟩ := ih.1 hmem
            rw [ha, Option.getD_some, hkey]
          · rw [ih.2 hmem, Option.getD_none]
        · split
          · assumption
          · simp
      · rw [if_neg heq]
        split <;> simpa [Ne.symm heq] using ih
    | sweep f =>
      dsimp only [Change.mention, Change.see]
      refine ⟨fun hmem => ?_, fun hmem => by rw [ih.2 hmem]; rfl⟩
      obtain ⟨a, ha, hkey⟩ := ih.1 hmem
      exact ⟨f.apply a, by rw [ha]; rfl, (f.key_apply a).trans hkey⟩

/-- The register holds one entry for each key, in the order in which they are named first. -/
theorem run_of_fresh {changes : List (Change key)} (h : Fresh changes) :
    run [] changes = (keys changes).filterMap fun k => latest? k changes := by
  induction changes using List.reverseRecOn with
  | nil => rfl
  | append_singleton changes change ih =>
    obtain ⟨hfresh, hnew⟩ := h.append_singleton
    have hentry : ∀ k, (k ∈ keys changes → ∃ a, latest? k changes = some a ∧ key a = k) ∧
        (k ∉ keys changes → latest? k changes = none) := latest?_of_mem
    rw [run_append_singleton, ih hfresh, keys_append_singleton]
    simp only [latest?_append_singleton]
    cases change with
    | add entry =>
      have hnot : key entry ∉ keys changes := hnew entry rfl
      dsimp only [Change.apply, Change.mention, Change.see]
      rw [if_neg hnot, List.filterMap_append]
      -- the entries that are there have other keys
      have hothers : (keys changes).filterMap (fun k =>
          if key entry = k then some entry else latest? k changes) =
            (keys changes).filterMap fun k => latest? k changes := by
        refine List.filterMap_congr fun k hk => if_neg fun heq => ?_
        exact hnot (heq ▸ hk)
      rw [hothers]
      simp
    | update new f =>
      dsimp only [Change.apply, Change.mention, Change.see]
      rw [updateFirst_filterMap (nodup_keys changes) fun k hk => (hentry k).1 hk]
      refine List.filterMap_congr fun k _ => ?_
      by_cases heq : key new = k
      · subst heq
        rw [if_pos rfl, if_pos rfl]
        split
        case isTrue hmem =>
          obtain ⟨a, ha, -⟩ := (hentry (key new)).1 hmem
          rw [ha]
          rfl
        case isFalse hmem => rw [(hentry (key new)).2 hmem, Option.getD_none]
      · rw [if_neg heq, if_neg heq]
    | sweep f =>
      dsimp only [Change.apply, Change.mention, Change.see]
      rw [List.map_filterMap]

/-- The keys of the register in order. -/
theorem map_key_run_of_fresh {changes : List (Change key)} (h : Fresh changes) :
    (run [] changes).map key = keys changes := by
  rw [run_of_fresh h, List.map_filterMap]
  have hkeys : ∀ k ∈ keys changes, (latest? k changes).map key = some k := fun k hk => by
    obtain ⟨a, ha, hkey⟩ := (latest?_of_mem k).1 hk
    rw [ha, Option.map_some, hkey]
  rw [List.filterMap_congr hkeys, List.filterMap_some]

/-- What holds of each entry and its key can be told key by key. -/
theorem forall₂_run_iff {changes : List (Change key)} (h : Fresh changes) {P : α → κ → Prop} :
    List.Forall₂ P (run [] changes) (keys changes) ↔
      ∀ k ∈ keys changes, ∀ a, latest? k changes = some a → P a k := by
  rw [run_of_fresh h]
  have hsome : ∀ k ∈ keys changes, ∃ a, latest? k changes = some a := fun k hk => by
    obtain ⟨a, ha, -⟩ := (latest?_of_mem k).1 hk
    exact ⟨a, ha⟩
  generalize keys changes = ks at hsome
  induction ks with
  | nil => simp
  | cons k ks ih =>
    obtain ⟨hfirst, hrest⟩ := List.forall_mem_cons.mp hsome
    obtain ⟨a, ha⟩ := hfirst
    simp only [List.filterMap_cons, ha, List.forall₂_cons, ih hrest, List.forall_mem_cons,
      Option.some.injEq, forall_eq']

/-! ## Keys that are added again -/

theorem map_key_updateFirst (k : κ) {new : α} (hnew : key new = k) (f : KeyKeeping key)
    (entries : List α) :
    (updateFirst key k new f.apply entries).map key =
      if k ∈ entries.map key then entries.map key else entries.map key ++ [k] := by
  induction entries with
  | nil => simp [updateFirst, f.key_apply, hnew]
  | cons a entries ih =>
    unfold updateFirst
    by_cases heq : key a = k
    · simp [heq, f.key_apply]
    · rw [if_neg heq, List.map_cons, ih]
      by_cases hmem : k ∈ entries.map key
      · simp [hmem]
      · simp [hmem, Ne.symm heq]

/-- Keys stay where they are. -/
theorem map_key_apply (entries : List α) (change : Change key) :
    ∃ more, (change.apply entries).map key = entries.map key ++ more := by
  cases change with
  | add entry => exact ⟨[key entry], by simp [Change.apply]⟩
  | update new f =>
    dsimp only [Change.apply]
    rw [map_key_updateFirst _ rfl]
    split
    · exact ⟨[], by simp⟩
    · exact ⟨[key new], rfl⟩
  | sweep f =>
    refine ⟨[], ?_⟩
    simp [Change.apply, Function.comp_def, f.key_apply]

theorem map_key_run (entries : List α) (changes : List (Change key)) :
    ∃ more, (run entries changes).map key = entries.map key ++ more := by
  induction changes using List.reverseRecOn with
  | nil => exact ⟨[], by simp [run]⟩
  | append_singleton changes change ih =>
    obtain ⟨more, hmore⟩ := ih
    obtain ⟨more', hmore'⟩ := map_key_apply (run entries changes) change
    exact ⟨more ++ more', by rw [run_append_singleton, hmore', hmore, List.append_assoc]⟩

/-- Every key that is named has an entry. -/
theorem mem_map_key_run {changes : List (Change key)} {k : κ} (h : k ∈ keys changes) :
    k ∈ (run [] changes).map key := by
  obtain ⟨change, hmem, hmention⟩ := mem_keys.mp h
  obtain ⟨before, after, rfl⟩ := List.append_of_mem hmem
  obtain ⟨more, hmore⟩ := map_key_run (change.apply (run [] before)) after
  have hrun : run [] (before ++ change :: after) = run (change.apply (run [] before)) after := by
    simp [run]
  rw [hrun, hmore]
  refine List.mem_append_left _ ?_
  cases change with
  | add entry =>
    cases hmention
    simp [Change.apply]
  | update new f =>
    cases hmention
    dsimp only [Change.apply]
    rw [map_key_updateFirst _ rfl]
    split
    · assumption
    · simp
  | sweep f => cases hmention

/-- Each key has one entry exactly if none is added again. -/
theorem nodup_run_iff (changes : List (Change key)) :
    ((run [] changes).map key).Nodup ↔ Fresh changes := by
  constructor
  · rintro hnodup before entry after rfl hmem
    have hrun : run [] (before ++ .add entry :: after) =
        run (run [] before ++ [entry]) after := by
      simp [run, Change.apply]
    obtain ⟨more, hmore⟩ := map_key_run (run [] before ++ [entry]) after
    rw [hrun, hmore, List.map_append] at hnodup
    -- the entry that is there and the one that is added have the same key
    have htwice := (List.nodup_append.mp (List.nodup_append.mp hnodup).1).2.2
    exact htwice (key entry) (mem_map_key_run hmem) (key entry) (by simp) rfl
  · intro h
    rw [map_key_run_of_fresh h]
    exact nodup_keys changes

end Register

end Reasoning
