import Mathlib.Data.Nat.Digits.Lemmas

/-!
# Numbers in texts

Reading a number from the front of a text, up to the first character that is no digit, and writing
a word with four hexadecimal digits, a number with as many figures as it needs, and bytes with two
digits each.
-/

namespace Reasoning

namespace Numeral

/-- The value of a digit: figures, then letters of either case. -/
def digitValue (c : UInt8) : Option Nat :=
  if 48 ≤ c ∧ c ≤ 57 then some (c.toNat - 48)
  else if 65 ≤ c ∧ c ≤ 90 then some (c.toNat - 55)
  else if 97 ≤ c ∧ c ≤ 122 then some (c.toNat - 87)
  else none

/-- The digit of a base. -/
def baseDigit (base : Nat) (c : UInt8) : Option Nat := (digitValue c).filter (· < base)

/-- The digits at the front of a text. -/
def leadingDigits (base : Nat) : List UInt8 → List Nat
  | [] => []
  | c :: cs =>
    match baseDigit base c with
    | some digit => digit :: leadingDigits base cs
    | none => []

def ofDigits (base : Nat) (digits : List Nat) : Nat :=
  digits.foldl (fun value digit => value * base + digit) 0

/-- `none` is a text that does not start with a digit, or a number that is not below the bound. -/
def read (base bound : Nat) (cs : List UInt8) : Option Nat :=
  match leadingDigits base cs with
  | [] => none
  | digits => if ofDigits base digits < bound then some (ofDigits base digits) else none

def hexDigit (digit : Nat) : UInt8 :=
  if digit < 10 then (48 + digit).toUInt8 else (55 + digit).toUInt8

/-- At least four digits, as many as a word of 16 bits can need. -/
def writeHexWord (n : UInt16) : List UInt8 :=
  [n.toNat / 4096, n.toNat / 256 % 16, n.toNat / 16 % 16, n.toNat % 16].map hexDigit

/-- `0` is written with one figure. -/
def writeDecimal (n : Nat) : List UInt8 :=
  if n = 0 then [48] else ((Nat.digits 10 n).reverse).map hexDigit

def writeHexBytes (bytes : List UInt8) : List UInt8 :=
  bytes.flatMap fun byte => [hexDigit (byte.toNat / 16), hexDigit (byte.toNat % 16)]

/-- Bytes of two digits each, with nothing in between. -/
def readHexBytes : List UInt8 → Option (List UInt8)
  | [] => some []
  | [_] => none
  | high :: low :: cs => do
    let high ← baseDigit 16 high
    let low ← baseDigit 16 low
    let bytes ← readHexBytes cs
    some ((16 * high + low).toUInt8 :: bytes)

/-- A figure that stands for a digit below ten is the one that is written for it. -/
theorem eq_of_baseDigit {base digit : Nat} {c : UInt8} (hdigit : digit < 10)
    (h : baseDigit base c = some digit) : c = hexDigit digit := by
  obtain ⟨hvalue, -⟩ := Option.filter_eq_some_iff.mp h
  unfold digitValue at hvalue
  apply UInt8.toNat_inj.mp
  rw [hexDigit, if_pos hdigit]
  simp only [UInt8.le_iff_toNat_le] at hvalue
  have hwritten : (48 + digit).toUInt8.toNat = 48 + digit := by
    change (UInt8.ofNat _).toNat = _
    rw [UInt8.toNat_ofNat', Nat.mod_eq_of_lt (by omega)]
  rw [hwritten]
  split_ifs at hvalue with hfigure hupper hlower
  · have hfirst : (48 : UInt8).toNat = 48 := rfl
    have hsome := Option.some.inj hvalue
    omega
  · have hfirst : (65 : UInt8).toNat = 65 := rfl
    have hsome := Option.some.inj hvalue
    omega
  · have hfirst : (97 : UInt8).toNat = 97 := rfl
    have hsome := Option.some.inj hvalue
    omega

theorem baseDigit_hexDigit {base digit : Nat} (hbase : base ≤ 16) (h : digit < base) :
    baseDigit base (hexDigit digit) = some digit := by
  have hall : ∀ digit < 16, digitValue (hexDigit digit) = some digit := by decide
  unfold baseDigit
  rw [hall digit (by omega)]
  exact Option.filter_some_pos (decide_eq_true h)

theorem leadingDigits_hexDigit {base : Nat} {digits : List Nat} (hbase : base ≤ 16)
    (h : ∀ digit ∈ digits, digit < base) : leadingDigits base (digits.map hexDigit) = digits := by
  induction digits with
  | nil => rfl
  | cons digit digits ih =>
    obtain ⟨hdigit, hrest⟩ := List.forall_mem_cons.mp h
    simp only [List.map_cons, leadingDigits, baseDigit_hexDigit hbase hdigit, ih hrest]

theorem read_eq {base bound : Nat} {cs : List UInt8} (h : leadingDigits base cs ≠ []) :
    read base bound cs =
      if ofDigits base (leadingDigits base cs) < bound then
        some (ofDigits base (leadingDigits base cs))
      else none := by
  unfold read
  split
  case h_1 hnil => exact absurd hnil h
  case h_2 => rfl

/-- A text of digits only, with its value. -/
def IsNumeral (base : Nat) (cs : List UInt8) (value : Nat) : Prop :=
  cs ≠ [] ∧ ∃ digits : List Nat, cs.map (baseDigit base) = digits.map some ∧
    ofDigits base digits = value

/-- A text that goes on behind a number, if at all, with something else than a digit. -/
def EndsNumeral (base : Nat) (cs : List UInt8) : Prop := cs.head?.bind (baseDigit base) = none

theorem leadingDigits_append {base : Nat} {numeral rest : List UInt8} {digits : List Nat}
    (hdigits : numeral.map (baseDigit base) = digits.map some) (hrest : EndsNumeral base rest) :
    leadingDigits base (numeral ++ rest) = digits := by
  induction numeral generalizing digits with
  | nil =>
    obtain rfl : digits = [] := List.map_eq_nil_iff.mp hdigits.symm
    cases rest with
    | nil => rfl
    | cons c cs =>
      have hnone : baseDigit base c = none := hrest
      rw [List.nil_append, leadingDigits, hnone]
  | cons c numeral ih =>
    obtain ⟨digit, digits, rfl, hdigit, hmap⟩ := List.map_eq_cons_iff.mp hdigits.symm
    rw [List.cons_append, leadingDigits, ← hdigit]
    exact congrArg (digit :: ·) (ih hmap.symm)

theorem exists_leadingDigits (base : Nat) (cs : List UInt8) :
    ∃ numeral rest, cs = numeral ++ rest ∧
      numeral.map (baseDigit base) = (leadingDigits base cs).map some ∧ EndsNumeral base rest := by
  induction cs with
  | nil => exact ⟨[], [], rfl, rfl, rfl⟩
  | cons c cs ih =>
    cases hdigit : baseDigit base c with
    | none => exact ⟨[], c :: cs, rfl, by rw [leadingDigits, hdigit]; rfl, hdigit⟩
    | some digit =>
      obtain ⟨numeral, rest, rfl, hdigits, hrest⟩ := ih
      refine ⟨c :: numeral, rest, rfl, ?_, hrest⟩
      rw [leadingDigits, hdigit, List.map_cons, List.map_cons, hdigit, hdigits]

/-- A number is read from the digits in front, whatever stands behind them. -/
theorem read_eq_some_iff {base bound : Nat} {cs : List UInt8} {value : Nat} :
    read base bound cs = some value ↔
      ∃ numeral rest, cs = numeral ++ rest ∧ IsNumeral base numeral value ∧
        EndsNumeral base rest ∧ value < bound := by
  constructor
  · intro h
    obtain ⟨numeral, rest, hcs, hdigits, hrest⟩ := exists_leadingDigits base cs
    have hne : leadingDigits base cs ≠ [] := by
      intro hnil
      rw [read, hnil] at h
      cases h
    rw [read_eq hne] at h
    split at h
    case isTrue hbound =>
      cases h
      refine ⟨numeral, rest, hcs, ⟨?_, _, hdigits, rfl⟩, hrest, hbound⟩
      rintro rfl
      exact hne (List.map_eq_nil_iff.mp hdigits.symm)
    case isFalse => cases h
  · rintro ⟨numeral, rest, rfl, ⟨hne, digits, hdigits, rfl⟩, hrest, hbound⟩
    have hleading := leadingDigits_append hdigits hrest
    have hnil : digits ≠ [] := by
      rintro rfl
      exact hne (List.map_eq_nil_iff.mp hdigits)
    rw [read_eq (by rwa [hleading]), hleading, if_pos hbound]

theorem IsNumeral.isSome {base : Nat} {cs : List UInt8} {value : Nat}
    (h : IsNumeral base cs value) {c : UInt8} (hc : c ∈ cs) : (baseDigit base c).isSome := by
  obtain ⟨-, digits, hdigits, -⟩ := h
  have hmem : baseDigit base c ∈ digits.map some := hdigits ▸ List.mem_map_of_mem hc
  obtain ⟨digit, -, heq⟩ := List.mem_map.mp hmem
  rw [← heq]
  rfl

/-- What ends a number is not part of one. -/
theorem EndsNumeral.eq_nil {base : Nat} {numeral rest : List UInt8} {value : Nat}
    (h : EndsNumeral base rest) (hnumeral : IsNumeral base (numeral ++ rest) value) :
    rest = [] := by
  cases rest with
  | nil => rfl
  | cons c cs =>
    have hdigit := hnumeral.isSome (c := c) (by simp)
    have hnone : baseDigit base c = none := h
    rw [hnone] at hdigit
    cases hdigit

/-- A word that has been written is read back. -/
theorem read_writeHexWord (n : UInt16) : read 16 65536 (writeHexWord n) = some n.toNat := by
  have hn : n.toNat < 65536 := n.toNat_lt
  have hdigits : ∀ digit ∈ [n.toNat / 4096, n.toNat / 256 % 16, n.toNat / 16 % 16, n.toNat % 16],
      digit < 16 := by
    simp only [List.forall_mem_cons]
    exact ⟨by omega, by omega, by omega, by omega, List.forall_mem_nil _⟩
  have hvalue : ofDigits 16
      [n.toNat / 4096, n.toNat / 256 % 16, n.toNat / 16 % 16, n.toNat % 16] = n.toNat := by
    simp only [ofDigits, List.foldl_cons, List.foldl_nil]
    omega
  unfold read writeHexWord
  rw [leadingDigits_hexDigit (le_refl 16) hdigits]
  dsimp only
  rw [hvalue, if_pos hn]

theorem ofDigits_reverse (base : Nat) (digits : List Nat) :
    ofDigits base digits.reverse = Nat.ofDigits base digits := by
  unfold ofDigits
  rw [List.foldl_reverse, Nat.ofDigits_eq_foldr]
  congr 1
  funext digit value
  simp only [Nat.cast_id]
  ring

/-- The figures of a number that has been written, and their value. -/
theorem leadingDigits_writeDecimal (n : Nat) :
    (leadingDigits 10 (writeDecimal n)).length = (writeDecimal n).length ∧
      leadingDigits 10 (writeDecimal n) ≠ [] ∧ ofDigits 10 (leadingDigits 10 (writeDecimal n)) = n := by
  unfold writeDecimal
  by_cases hn : n = 0
  · subst hn
    decide
  · have hdigits : ∀ digit ∈ (Nat.digits 10 n).reverse, digit < 10 := fun digit hdigit =>
      Nat.digits_lt_base (by decide) (List.mem_reverse.mp hdigit)
    rw [if_neg hn, leadingDigits_hexDigit (by decide) hdigits, List.length_map]
    refine ⟨rfl, ?_, ?_⟩
    · simpa [Nat.digits_eq_nil_iff_eq_zero] using hn
    · rw [ofDigits_reverse, Nat.ofDigits_digits]

/-- Bytes that have been written are read back. -/
theorem readHexBytes_writeHexBytes (bytes : List UInt8) :
    readHexBytes (writeHexBytes bytes) = some bytes := by
  induction bytes with
  | nil => rfl
  | cons byte bytes ih =>
    have hbyte : byte.toNat < 256 := byte.toNat_lt
    have hhigh : baseDigit 16 (hexDigit (byte.toNat / 16)) = some (byte.toNat / 16) :=
      baseDigit_hexDigit (le_refl 16) (by omega)
    have hlow : baseDigit 16 (hexDigit (byte.toNat % 16)) = some (byte.toNat % 16) :=
      baseDigit_hexDigit (le_refl 16) (by omega)
    have hvalue : (16 * (byte.toNat / 16) + byte.toNat % 16).toUInt8 = byte := by
      rw [Nat.div_add_mod]
      exact UInt8.ofNat_toNat
    have hwrite : writeHexBytes (byte :: bytes) =
        hexDigit (byte.toNat / 16) :: hexDigit (byte.toNat % 16) :: writeHexBytes bytes := rfl
    rw [hwrite, readHexBytes, hhigh, hlow, ih]
    simp only [Option.bind_eq_bind, Option.bind_some, hvalue]

end Numeral

end Reasoning
