import Arinc615a.Reasoning.Numeral
import Arinc615a.Tftp

/-!
# Error messages of the protocol

`tftp/ErrorMessage.cpp`: an abort or a wait is told by a TFTP error with a text of its own.
-/

open Reasoning

namespace Arinc615a.Tftp

/-- The error code and the message of a TFTP error. -/
abbrev ErrorInformation := ErrorCode × Text

inductive ErrorMessageType where
  | invalid
  | abort
  | wait
  deriving DecidableEq, Repr

def waitErrorString : Text := text "WAIT:"

def abortErrorString : Text := text "ABORT:"

def errorMessageType : Option ErrorInformation → ErrorMessageType
  | none => .invalid
  | some (errorCode, errorMessage) =>
    if errorCode ≠ .notDefined then .invalid
    else if waitErrorString.isPrefixOf errorMessage then
      if errorMessage.length ≤ waitErrorString.length then .invalid else .wait
    else if abortErrorString.isPrefixOf errorMessage then
      if errorMessage.length ≤ abortErrorString.length then .invalid else .abort
    else .invalid

/-- `std::format( "ABORT:{:04X}", .. )` -/
def abortMessage (statusCode : StatusCode) : Text :=
  abortErrorString ++ Numeral.writeHexWord statusCode.toUnderlying

/-- The codes that an abort may carry.  The code in progress with additional information is not
one of them. -/
def abortStatusCode (statusCode : Nat) : StatusCode :=
  match statusCode with
  | 0x0001 => .operationAccepted
  | 0x1000 => .operationNotAccepted
  | 0x1002 => .operationNotSupported
  | 0x0002 => .operationInProgress
  | 0x0003 => .operationCompleted
  | 0x1003 => .operationAbortedByTargetHw
  | 0x1004 => .operationAbortedByDlp
  | 0x1005 => .operationAbortedByOperator
  | 0x1007 => .loadPartNumberOrDownloadFileFailed
  | _ => .invalid

/-- The status code of an abort message; what follows the number is not looked at. -/
def decodeAbortMessage (errorMessage : Text) : StatusCode :=
  if abortErrorString.isPrefixOf errorMessage then
    match Numeral.read 16 65536 (errorMessage.drop 6) with
    | some statusCode => abortStatusCode statusCode
    | none => .invalid
  else .invalid

/-- The wait time is a number of seconds, which may be negative. -/
def waitMessage (waitTime : Int) : Except Arinc615aException Text :=
  if 0 ≤ waitTime ∧ waitTime ≤ 65535 then
    .ok (waitErrorString ++ Numeral.writeDecimal waitTime.toNat)
  else .error ⟨"Value out of range"⟩

/-- The time of a wait message in seconds. -/
def decodeWaitMessage (errorMessage : Text) : Option Nat :=
  if waitErrorString.isPrefixOf errorMessage then
    Numeral.read 10 65536 (errorMessage.drop 5)
  else none

theorem errorMessageType_abortMessage (statusCode : StatusCode) :
    errorMessageType (some (.notDefined, abortMessage statusCode)) = .abort := rfl

theorem decodeAbortMessage_abortMessage (statusCode : StatusCode) :
    decodeAbortMessage (abortMessage statusCode) =
      abortStatusCode statusCode.toUnderlying.toNat := by
  have hread : Numeral.read 16 65536 ((abortMessage statusCode).drop 6) =
      some statusCode.toUnderlying.toNat := Numeral.read_writeHexWord statusCode.toUnderlying
  unfold decodeAbortMessage
  rw [hread]
  rfl

/-- An abort code that is written is read back, but for the three that no abort carries. -/
theorem decodeAbortMessage_of_known {statusCode : StatusCode} (h : statusCode.Known)
    (hinfo : statusCode ≠ .operationInProgressAdditionalInfo) :
    decodeAbortMessage (abortMessage statusCode) = statusCode := by
  rw [decodeAbortMessage_abortMessage]
  cases statusCode with
  | operationInProgressAdditionalInfo => exact absurd rfl hinfo
  | operationDeferred => exact absurd rfl h.1
  | invalid => exact absurd rfl h.2
  | _ => rfl

example : decodeAbortMessage (text "ABORT:XXXX") = .invalid := by decide

example : decodeWaitMessage (text "WAIT:65536") = none := by decide

/-! ## The texts that are taken for messages -/

/-- A wait message is the prefix, a number, and anything that does not go on with a figure. -/
theorem decodeWaitMessage_eq_some_iff {errorMessage : Text} {waitTime : Nat} :
    decodeWaitMessage errorMessage = some waitTime ↔
      ∃ numeral rest, errorMessage = waitErrorString ++ (numeral ++ rest) ∧
        Numeral.IsNumeral 10 numeral waitTime ∧ Numeral.EndsNumeral 10 rest ∧
        waitTime < 65536 := by
  unfold decodeWaitMessage
  split
  case isTrue hprefix =>
    obtain ⟨tail, rfl⟩ := List.isPrefixOf_iff_prefix.mp hprefix
    have hdrop : (waitErrorString ++ tail).drop 5 = tail := List.drop_left' rfl
    rw [hdrop, Numeral.read_eq_some_iff]
    simp only [List.append_cancel_left_eq]
  case isFalse hprefix =>
    refine iff_of_false (fun h => nomatch h) ?_
    rintro ⟨numeral, rest, rfl, -⟩
    exact hprefix (List.isPrefixOf_iff_prefix.mpr (List.prefix_append _ _))

theorem abortStatusCode_lt {code : Nat} (h : abortStatusCode code ≠ .invalid) : code < 65536 := by
  unfold abortStatusCode at h
  split at h
  case h_10 => exact absurd rfl h
  all_goals decide

/-- An abort carries the codes of the protocol, but for the one in progress with additional
information. -/
theorem abortStatusCode_toNat (code : UInt16) :
    abortStatusCode code.toNat ≠ .invalid ↔ (∃ known, statusCode code = .ok known) ∧ code ≠ 4 := by
  constructor
  · intro h
    unfold abortStatusCode at h
    split at h
    case h_10 => exact absurd rfl h
    all_goals
      rename_i hcode
      have hword : UInt16.ofNat code.toNat = code := UInt16.ofNat_toNat
      rw [hcode] at hword
      rw [← hword]
      exact ⟨⟨_, rfl⟩, by decide⟩
  · rintro ⟨⟨known, hknown⟩, hinfo⟩
    unfold statusCode at hknown
    split at hknown
    case h_6 => exact absurd rfl hinfo
    case h_11 => cases hknown
    all_goals decide

theorem decodeAbortMessage_ne_invalid_iff {errorMessage : Text} :
    decodeAbortMessage errorMessage ≠ .invalid ↔
      ∃ numeral rest code, errorMessage = abortErrorString ++ (numeral ++ rest) ∧
        Numeral.IsNumeral 16 numeral code ∧ Numeral.EndsNumeral 16 rest ∧
        abortStatusCode code ≠ .invalid := by
  unfold decodeAbortMessage
  split
  case isTrue hprefix =>
    obtain ⟨tail, rfl⟩ := List.isPrefixOf_iff_prefix.mp hprefix
    have hdrop : (abortErrorString ++ tail).drop 6 = tail := List.drop_left' rfl
    rw [hdrop]
    constructor
    · intro h
      cases hread : Numeral.read 16 65536 tail with
      | none =>
        rw [hread] at h
        exact absurd rfl h
      | some code =>
        rw [hread] at h
        obtain ⟨numeral, rest, rfl, hnumeral, hrest, -⟩ := Numeral.read_eq_some_iff.mp hread
        exact ⟨numeral, rest, code, rfl, hnumeral, hrest, h⟩
    · rintro ⟨numeral, rest, code, htail, hnumeral, hrest, hcode⟩
      have hread : Numeral.read 16 65536 tail = some code :=
        Numeral.read_eq_some_iff.mpr ⟨numeral, rest, List.append_cancel_left htail, hnumeral,
          hrest, abortStatusCode_lt hcode⟩
      rw [hread]
      exact hcode
  case isFalse hprefix =>
    refine iff_of_false (fun h => h rfl) ?_
    rintro ⟨numeral, rest, code, rfl, -⟩
    exact hprefix (List.isPrefixOf_iff_prefix.mpr (List.prefix_append _ _))

/-- The wait messages: a number below 65536 and nothing else. -/
def IsWaitMessage (s : Text) : Prop :=
  ∃ numeral waitTime, s = waitErrorString ++ numeral ∧ Numeral.IsNumeral 10 numeral waitTime ∧
    waitTime ≤ 65535

/-- The abort messages: four digits of a status code and nothing else. -/
def IsAbortMessage (s : Text) : Prop :=
  ∃ (numeral : Text) (code : UInt16), s = abortErrorString ++ numeral ∧ numeral.length = 4 ∧
    Numeral.IsNumeral 16 numeral code.toNat ∧ ∃ known, statusCode code = .ok known

/-- A wait message with something behind its number. -/
def HasWaitTrailer (s : Text) : Prop :=
  ∃ numeral rest waitTime, s = waitErrorString ++ (numeral ++ rest) ∧
    Numeral.IsNumeral 10 numeral waitTime ∧ waitTime ≤ 65535 ∧ rest ≠ [] ∧
    Numeral.EndsNumeral 10 rest

/-- An abort code with something behind it, or not written with four digits. -/
def HasLooseAbortCode (s : Text) : Prop :=
  ∃ numeral rest code, s = abortErrorString ++ (numeral ++ rest) ∧
    Numeral.IsNumeral 16 numeral code ∧ Numeral.EndsNumeral 16 rest ∧
    abortStatusCode code ≠ .invalid ∧ (numeral.length ≠ 4 ∨ rest ≠ [])

theorem decodeWaitMessage_exact_iff (s : Text) :
    ((∃ waitTime, decodeWaitMessage s = some waitTime) ↔ IsWaitMessage s) ↔ ¬HasWaitTrailer s := by
  simp only [decodeWaitMessage_eq_some_iff]
  constructor
  · rintro hexact ⟨numeral, rest, waitTime, rfl, hnumeral, hbound, hne, hrest⟩
    obtain ⟨numeral', waitTime', htail, hnumeral', -⟩ := hexact.mp
      ⟨waitTime, numeral, rest, rfl, hnumeral, hrest, Nat.lt_succ_of_le hbound⟩
    rw [← List.append_cancel_left htail] at hnumeral'
    exact hne (hrest.eq_nil hnumeral')
  · intro hnone
    constructor
    · rintro ⟨waitTime, numeral, rest, rfl, hnumeral, hrest, hbound⟩
      have hnil : rest = [] := by
        by_contra hne
        exact hnone ⟨numeral, rest, waitTime, rfl, hnumeral, Nat.le_of_lt_succ hbound, hne, hrest⟩
      subst hnil
      exact ⟨numeral, waitTime, by rw [List.append_nil], hnumeral, Nat.le_of_lt_succ hbound⟩
    · rintro ⟨numeral, waitTime, rfl, hnumeral, hbound⟩
      exact ⟨waitTime, numeral, [], by rw [List.append_nil], hnumeral, rfl,
        Nat.lt_succ_of_le hbound⟩

/-- There is one way to write the code 4 with four digits. -/
theorem eq_of_isNumeral_four {numeral : Text} (hlength : numeral.length = 4)
    (h : Numeral.IsNumeral 16 numeral 4) : numeral = text "0004" := by
  obtain ⟨-, digits, hdigits, hvalue⟩ := h
  have hcount : digits.length = 4 := by
    rw [← List.length_map some, ← hdigits, List.length_map, hlength]
  match numeral, digits, hlength, hcount with
  | [a, b, c, d], [p, q, r, s], _, _ =>
    simp only [List.map_cons, List.map_nil, List.cons.injEq, and_true] at hdigits
    obtain ⟨ha, hb, hc, hd⟩ := hdigits
    simp only [Numeral.ofDigits, List.foldl_cons, List.foldl_nil] at hvalue
    obtain ⟨rfl, rfl, rfl, rfl⟩ : p = 0 ∧ q = 0 ∧ r = 0 ∧ s = 4 := by omega
    rw [Numeral.eq_of_baseDigit (by decide) ha, Numeral.eq_of_baseDigit (by decide) hb,
      Numeral.eq_of_baseDigit (by decide) hc, Numeral.eq_of_baseDigit (by decide) hd]
    decide

theorem decodeAbortMessage_exact_iff (s : Text) :
    (decodeAbortMessage s ≠ .invalid ↔ IsAbortMessage s) ↔
      ¬(HasLooseAbortCode s ∨ s = text "ABORT:0004") := by
  constructor
  · rintro hexact (⟨numeral, rest, code, rfl, hnumeral, hrest, hcode, hloose⟩ | rfl)
    · obtain ⟨numeral', code', htail, hlength, hnumeral', -⟩ := hexact.mp
        (decodeAbortMessage_ne_invalid_iff.mpr
          ⟨numeral, rest, code, rfl, hnumeral, hrest, hcode⟩)
      obtain rfl := List.append_cancel_left htail
      obtain rfl := hrest.eq_nil hnumeral'
      rw [List.append_nil] at hlength
      exact hloose.elim (fun h => h hlength) fun h => h rfl
    · have hmessage : IsAbortMessage (text "ABORT:0004") :=
        ⟨text "0004", 4, by decide, by decide, ⟨by decide, [0, 0, 0, 4], by decide, by decide⟩,
          _, rfl⟩
      exact hexact.mpr hmessage (by decide)
  · intro hnone
    obtain ⟨hloose, hinfo⟩ := not_or.mp hnone
    constructor
    · intro h
      obtain ⟨numeral, rest, code, rfl, hnumeral, hrest, hcode⟩ :=
        decodeAbortMessage_ne_invalid_iff.mp h
      have htight : ¬(numeral.length ≠ 4 ∨ rest ≠ []) := fun h =>
        hloose ⟨numeral, rest, code, rfl, hnumeral, hrest, hcode, h⟩
      obtain ⟨hlength, hnil⟩ := not_or.mp htight
      obtain rfl := not_not.mp hnil
      have hword : (UInt16.ofNat code).toNat = code := by
        rw [UInt16.toNat_ofNat', Nat.mod_eq_of_lt (abortStatusCode_lt hcode)]
      rw [← hword] at hnumeral hcode
      exact ⟨numeral, UInt16.ofNat code, by rw [List.append_nil], not_not.mp hlength, hnumeral,
        ((abortStatusCode_toNat _).mp hcode).1⟩
    · rintro ⟨numeral, code, rfl, hlength, hnumeral, hknown⟩
      have hplain : code ≠ 4 := by
        rintro rfl
        exact hinfo (by rw [eq_of_isNumeral_four hlength hnumeral]; decide)
      exact decodeAbortMessage_ne_invalid_iff.mpr ⟨numeral, [], code.toNat,
        by rw [List.append_nil], hnumeral, rfl, (abortStatusCode_toNat code).mpr ⟨hknown, hplain⟩⟩

/-- A wait time that is written is read back. -/
theorem decodeWaitMessage_waitMessage {waitTime : Int} (hnonneg : 0 ≤ waitTime)
    (hbound : waitTime ≤ 65535) :
    ∃ s, waitMessage waitTime = .ok s ∧ decodeWaitMessage s = some waitTime.toNat := by
  refine ⟨_, if_pos ⟨hnonneg, hbound⟩, ?_⟩
  obtain ⟨-, hne, hvalue⟩ := Numeral.leadingDigits_writeDecimal waitTime.toNat
  have hread : Numeral.read 10 65536 (Numeral.writeDecimal waitTime.toNat) =
      some waitTime.toNat := by
    rw [Numeral.read_eq hne, hvalue, if_pos (by omega)]
  unfold decodeWaitMessage
  rw [if_pos (List.isPrefixOf_iff_prefix.mpr (List.prefix_append _ _)), ← hread]
  rfl

/-- A status code that is written is read back, but for the one in progress with additional
information. -/
theorem decodeAbortMessage_inverse_iff {statusCode : StatusCode} (h : statusCode.Known) :
    decodeAbortMessage (abortMessage statusCode) = statusCode ↔
      statusCode ≠ .operationInProgressAdditionalInfo := by
  refine ⟨?_, decodeAbortMessage_of_known h⟩
  rintro hback rfl
  rw [decodeAbortMessage_abortMessage] at hback
  exact absurd hback (by decide)

/-- Where the decoders take exactly the messages, and invert the encoders. -/
theorem errorMessages_exact_iff (s : Text) (statusCode : StatusCode) (waitTime : Int) :
    (((∃ decoded, decodeWaitMessage s = some decoded) ↔ IsWaitMessage s) ↔
      ¬HasWaitTrailer s) ∧
    ((decodeAbortMessage s ≠ .invalid ↔ IsAbortMessage s) ↔
      ¬(HasLooseAbortCode s ∨ s = text "ABORT:0004")) ∧
    (statusCode.Known →
      (decodeAbortMessage (abortMessage statusCode) = statusCode ↔
        statusCode ≠ .operationInProgressAdditionalInfo)) ∧
    (0 ≤ waitTime → waitTime ≤ 65535 →
      ∃ encoded, waitMessage waitTime = .ok encoded ∧
        decodeWaitMessage encoded = some waitTime.toNat) :=
  ⟨decodeWaitMessage_exact_iff s, decodeAbortMessage_exact_iff s,
    decodeAbortMessage_inverse_iff, decodeWaitMessage_waitMessage⟩

theorem errorMessages_exact_iff_bounds :
    (∃ encoded, waitMessage 65535 = .ok encoded ∧ decodeWaitMessage encoded = some 65535) ∧
      (decodeAbortMessage (abortMessage .operationAbortedByDlp) = .operationAbortedByDlp ↔
        StatusCode.operationAbortedByDlp ≠ .operationInProgressAdditionalInfo) := by
  obtain ⟨-, -, habort, hwait⟩ :=
    errorMessages_exact_iff (text "WAIT:65535") .operationAbortedByDlp 65535
  exact ⟨hwait (by decide) (by decide), habort (by decide)⟩

/-- A letter behind the number does no harm to a wait, and the code of an abort may be too short,
too long, or one that the encoder alone knows. -/
theorem errorMessages_loose :
    (decodeWaitMessage (text "WAIT:5X") = some 5 ∧
      ¬((∃ waitTime, decodeWaitMessage (text "WAIT:5X") = some waitTime) ↔
        IsWaitMessage (text "WAIT:5X"))) ∧
    (decodeAbortMessage (text "ABORT:3") = .operationCompleted ∧
      ¬(decodeAbortMessage (text "ABORT:3") ≠ .invalid ↔ IsAbortMessage (text "ABORT:3"))) ∧
    decodeAbortMessage (abortMessage .operationInProgressAdditionalInfo) ≠
      .operationInProgressAdditionalInfo := by
  refine ⟨⟨by decide, ?_⟩, ⟨by decide, ?_⟩, by decide⟩
  · rw [decodeWaitMessage_exact_iff, not_not]
    exact ⟨text "5", text "X", 5, by decide, ⟨by decide, [5], by decide, by decide⟩, by decide,
      by decide, rfl⟩
  · rw [decodeAbortMessage_exact_iff, not_not]
    exact .inl ⟨text "3", [], 3, by decide, ⟨by decide, [3], by decide, by decide⟩, rfl,
      by decide, .inl (by decide)⟩

end Arinc615a.Tftp
