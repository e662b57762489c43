import Mathlib.Data.List.Iterate
import Mathlib.Data.List.Nodup

/-!
# Consecutive numbers

A counter whose values are given out one after the other; `succ` is how it goes on, and may wrap.
-/

namespace Reasoning

/-- The numbers are the values of the counter from `first` on, and `next` is the one behind them. -/
structure Counts {α : Type} (succ : α → α) (first : α) (numbers : List α) (next : α) : Prop where
  given : numbers = List.iterate succ first numbers.length
  next : next = succ^[numbers.length] first

namespace Counts

variable {α : Type} {succ : α → α} {a b c : α} {as bs : List α}

theorem nil : Counts succ a [] a := ⟨rfl, rfl⟩

theorem single : Counts succ a [a] (succ a) := ⟨rfl, rfl⟩

theorem append (h : Counts succ a as b) (h' : Counts succ b bs c) :
    Counts succ a (as ++ bs) c := by
  constructor
  · rw [List.length_append, List.iterate_add, ← h.next, ← h.given, ← h'.given]
  · rw [List.length_append, Nat.add_comm, Function.iterate_add_apply, ← h.next]
    exact h'.next

end Counts

theorem iterate_add_one (n : Nat) : (· + 1)^[n] (0 : UInt16) = UInt16.ofNat n := by
  induction n with
  | zero => rfl
  | succ n ih =>
    rw [Function.iterate_succ_apply', ih, UInt16.ofNat_add]
    rfl

/-- A counter of 16 bits that starts at zero. -/
theorem Counts.eq_range {numbers : List UInt16} {next : UInt16}
    (h : Counts (· + 1) 0 numbers next) :
    numbers = (List.range numbers.length).map UInt16.ofNat := by
  rw [← List.map_congr_left fun n _ => iterate_add_one n, List.range_map_iterate]
  exact h.given

/-- Until it wraps, a number is given out once. -/
theorem Counts.nodup {numbers : List UInt16} {next : UInt16} (h : Counts (· + 1) 0 numbers next)
    (hlength : numbers.length ≤ 65536) : numbers.Nodup := by
  rw [h.eq_range]
  refine List.Nodup.map_on (fun i hi j hj heq => ?_) List.nodup_range
  have hi' := List.mem_range.mp hi
  have hj' := List.mem_range.mp hj
  have hsame := congrArg UInt16.toNat heq
  rwa [UInt16.toNat_ofNat_of_lt' (by simp only [UInt16.size]; omega),
    UInt16.toNat_ofNat_of_lt' (by simp only [UInt16.size]; omega)] at hsame

end Reasoning
