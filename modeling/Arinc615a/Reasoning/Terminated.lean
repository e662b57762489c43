import Mathlib.Data.List.Basic
import Mathlib.Data.List.Count
import Mathlib.Data.List.Induction
import Mathlib.Data.List.TakeWhile

/-!
# Terminated texts

A list of texts is written one behind the other, each followed by a terminator.  Splitting reads
them back, up to a text without a terminator.
-/

namespace Reasoning

variable {α : Type}

def terminate (t : α) (texts : List (List α)) : List α := (texts.map (· ++ [t])).flatten

@[simp] theorem terminate_nil (t : α) : terminate t [] = [] := rfl

@[simp] theorem terminate_cons (t : α) (s : List α) (texts : List (List α)) :
    terminate t (s :: texts) = s ++ t :: terminate t texts := by
  unfold terminate
  rw [List.map_cons, List.flatten_cons, List.append_assoc, List.singleton_append]

/-- The last text ends with its terminator, so every proper end holds a terminator. -/
theorem mem_of_append_eq_terminate {t : α} {texts : List (List α)} {pre rest : List α}
    (h : pre ++ rest = terminate t texts) (hrest : rest ≠ []) : t ∈ rest := by
  cases texts using List.reverseRecOn with
  | nil => exact absurd (List.append_eq_nil_iff.mp h).2 hrest
  | append_singleton texts s _ =>
    have hlast : (pre ++ rest).getLast? = some t := by
      rw [h, terminate, List.map_append, List.flatten_append, List.map_singleton,
        List.flatten_singleton, ← List.append_assoc, List.getLast?_concat]
    rw [List.getLast?_append_of_ne_nil pre hrest] at hlast
    exact List.mem_of_getLast? hlast

variable [DecidableEq α]

/-- `none` if the last text is not terminated. -/
def split (t : α) (text : List α) : Option (List (List α)) :=
  if text = [] then some []
  else
    match _h : text.dropWhile (· ≠ t) with
    | [] => none
    | _ :: rest => (split t rest).map (text.takeWhile (· ≠ t) :: ·)
termination_by text.length
decreasing_by
  have hsuffix := (List.dropWhile_suffix (l := text) (· ≠ t)).length_le
  rw [_h, List.length_cons] at hsuffix
  exact hsuffix

@[simp] theorem split_nil (t : α) : split t [] = some [] := by
  rw [split, if_pos rfl]

/-- A text in front of its terminator is read back. -/
theorem split_append {t : α} {s : List α} (h : t ∉ s) (rest : List α) :
    split t (s ++ t :: rest) = (split t rest).map (s :: ·) := by
  have hs : ∀ c ∈ s, decide (c ≠ t) = true := fun c hc =>
    decide_eq_true fun hct => h (hct ▸ hc)
  have hdrop : (s ++ t :: rest).dropWhile (· ≠ t) = t :: rest := by
    rw [List.dropWhile_append_of_pos hs, List.dropWhile_cons_of_neg (by simp)]
  have htake : (s ++ t :: rest).takeWhile (· ≠ t) = s := by
    rw [List.takeWhile_append_of_pos hs, List.takeWhile_cons_of_neg (by simp), List.append_nil]
  rw [split, if_neg (by simp)]
  split
  next hnil => rw [hdrop] at hnil; cases hnil
  next hcons =>
    rw [hdrop] at hcons
    cases hcons
    rw [htake]

/-- Nothing is read without a terminator. -/
theorem split_eq_none {t : α} {s : List α} (h : t ∉ s) (hs : s ≠ []) : split t s = none := by
  have hdrop : s.dropWhile (· ≠ t) = [] :=
    List.dropWhile_eq_nil_iff.mpr fun c hc => decide_eq_true fun hct => h (hct ▸ hc)
  rw [split, if_neg hs]
  split
  next => rfl
  next hcons => rw [hdrop] at hcons; cases hcons

/-- What is read are texts without the terminator, written one behind the other. -/
theorem split_eq_some_iff {t : α} {text : List α} {texts : List (List α)} :
    split t text = some texts ↔ text = terminate t texts ∧ ∀ s ∈ texts, t ∉ s := by
  constructor
  · intro h
    -- on the length of the text, as what is left behind the first terminator is shorter
    induction hlen : text.length using Nat.strong_induction_on generalizing text texts with
    | _ n ih =>
      by_cases hmem : t ∈ text
      · obtain ⟨s, rest, rfl, hs⟩ := List.eq_append_cons_of_mem hmem
        rw [split_append hs, Option.map_eq_some_iff] at h
        obtain ⟨texts, hrest, rfl⟩ := h
        have hshorter : rest.length < n := by
          rw [← hlen, List.length_append, List.length_cons]
          omega
        obtain ⟨rfl, hfree⟩ := ih rest.length hshorter hrest rfl
        exact ⟨(terminate_cons t s texts).symm, List.forall_mem_cons.mpr ⟨hs, hfree⟩⟩
      · by_cases hnil : text = []
        · subst hnil
          cases (split_nil t).symm.trans h
          exact ⟨rfl, List.forall_mem_nil _⟩
        · rw [split_eq_none hmem hnil] at h
          cases h
  · rintro ⟨rfl, h⟩
    induction texts with
    | nil => rw [terminate_nil, split_nil]
    | cons s texts ih =>
      rw [List.forall_mem_cons] at h
      rw [terminate_cons, split_append h.1, ih h.2, Option.map_some]

/-- Texts without the terminator are read back. -/
theorem split_terminate {t : α} {texts : List (List α)} (h : ∀ s ∈ texts, t ∉ s) :
    split t (terminate t texts) = some texts :=
  split_eq_some_iff.mpr ⟨rfl, h⟩

theorem count_terminate {t : α} {texts : List (List α)} (h : ∀ s ∈ texts, t ∉ s) :
    (terminate t texts).count t = texts.length := by
  induction texts with
  | nil => rfl
  | cons s texts ih =>
    rw [List.forall_mem_cons] at h
    rw [terminate_cons, List.count_append, List.count_cons_self, List.count_eq_zero_of_not_mem h.1,
      ih h.2, List.length_cons, Nat.zero_add]

/-- Texts that hold terminators would be read as more texts than they are. -/
theorem eq_of_terminate_eq {t : α} {texts texts' : List (List α)} (h : ∀ s ∈ texts', t ∉ s)
    (hlength : texts.length = texts'.length) (heq : terminate t texts = terminate t texts') :
    texts = texts' := by
  have hcount : ∀ others : List (List α), (terminate t others).count t =
      others.length + (others.map (·.count t)).sum := by
    intro others
    induction others with
    | nil => rfl
    | cons s others ih =>
      rw [terminate_cons, List.count_append, List.count_cons_self, ih, List.map_cons,
        List.sum_cons, List.length_cons]
      omega
  have hnone : (texts.map (·.count t)).sum = 0 := by
    have hsame := hcount texts
    rw [heq, count_terminate h, hlength] at hsame
    omega
  have hfree : ∀ s ∈ texts, t ∉ s := fun s hs =>
    List.count_eq_zero.mp (List.sum_eq_zero_iff_forall_eq_nat.mp hnone _ (List.mem_map_of_mem hs))
  have hread : some texts = some texts' := by
    rw [← split_terminate hfree, heq, split_terminate h]
  exact Option.some.inj hread

/-- A text that is cut short splits into fewer texts, if it splits at all. -/
theorem length_split_of_cut {t : α} {texts texts' : List (List α)} {pre rest : List α}
    (h : ∀ s ∈ texts, t ∉ s) (hcut : pre ++ rest = terminate t texts) (hrest : rest ≠ [])
    (hsplit : split t pre = some texts') : texts'.length < texts.length := by
  obtain ⟨hpre, hfree⟩ := split_eq_some_iff.mp hsplit
  have hcount : pre.count t + rest.count t = texts.length := by
    rw [← List.count_append, hcut, count_terminate h]
  have hleft : 0 < rest.count t := List.count_pos_iff.mpr (mem_of_append_eq_terminate hcut hrest)
  rw [hpre, count_terminate hfree] at hcount
  omega

end Reasoning
