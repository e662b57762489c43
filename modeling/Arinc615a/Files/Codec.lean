import Arinc615a.Information
import Arinc615a.Reasoning.Layout

/-!
# Strings, ratios and the file header

The parts that the protocol files share: `String.cpp`, `Ratio.cpp` and `ProtocolFile.cpp`.
-/

open Reasoning

namespace Arinc615a.Files

open Information

/-- The integer access of the helper library.  Reading and writing are inverses of each other. -/
structure RawDataCodec where
  uint8 : WordCodec UInt8 1
  uint16 : WordCodec UInt16 2
  int16 : WordCodec Int16 2
  uint32 : WordCodec UInt32 4

/-- Network byte order. -/
def RawDataCodec.bigEndian : RawDataCodec where
  uint8 := .bigEndianUInt8
  uint16 := .bigEndianUInt16
  int16 := .bigEndianInt16
  uint32 := .bigEndianUInt32

abbrev FileReader := Reader Arinc615aException

abbrev FileDecoder := Decoder Arinc615aException

/-- Throws `Arinc615aException` out of a field reader. -/
def throwInfo {α : Type} (additionalInfo : String) : Except (Failure Arinc615aException) α :=
  .error (.exception ⟨additionalInfo⟩)

/-! ## Strings -/

def stringDecode (raw : RawDataCodec) : FileReader Text := fun rawData =>
  if rawData.isEmpty then throwInfo "invalid start and end supplied"
  else do
    -- the length byte counts the terminator
    let (stringLength, rawData) ← raw.uint8.read rawData
    if rawData.length < stringLength.toNat then throwInfo "string length inconsistent"
    else if stringLength = 0 then .ok ([], rawData)
    else
      let (decodedString, rawData) ← Reader.take stringLength.toNat rawData
      -- the string ends at its first NUL; bytes behind it are dropped
      if 0 ∈ decodedString then .ok (decodedString.takeWhile (· ≠ 0), rawData)
      else throwInfo "string not NULL terminated"

def stringEncode (raw : RawDataCodec) (stringToEncode : Text) (fixedLength : UInt8 := 0) :
    Except Arinc615aException Bytes :=
  -- an empty string is a single length byte of zero, without a terminator
  let rawStringSize := if stringToEncode.isEmpty then 0 else stringToEncode.length + 1
  if 255 ≤ rawStringSize ∨ (fixedLength ≠ 0 ∧ fixedLength.toNat < rawStringSize) then
    .error ⟨"string too long"⟩
  else
    let length := if fixedLength ≠ 0 then fixedLength else rawStringSize.toUInt8
    .ok (raw.uint8.encode length ++ stringToEncode ++
      List.replicate (length.toNat - stringToEncode.length) 0)

/-- The bytes of a string that is short enough. -/
def stringBytes (raw : RawDataCodec) (s : Text) : Bytes :=
  if s.isEmpty then raw.uint8.encode 0
  else raw.uint8.encode (s.length + 1).toUInt8 ++ (s ++ [0])

/-- The size of an encoded string, length byte and terminator included. -/
def stringSize (s : Text) : Nat := if s.isEmpty then 1 else s.length + 2

theorem stringEncode_short (raw : RawDataCodec) {s : Text} (h : s.length ≤ 253) :
    stringEncode raw s = .ok (stringBytes raw s) := by
  unfold stringEncode stringBytes
  cases s with
  | nil => simp
  | cons c s =>
    -- the size fits the length byte, and one zero of padding is the terminator
    have hlen : (c :: s).length + 1 < 256 := by omega
    have hsize : ((c :: s).length + 1).toUInt8.toNat = (c :: s).length + 1 := by
      change (UInt8.ofNat _).toNat = _
      rw [UInt8.toNat_ofNat', Nat.mod_eq_of_lt hlen]
    have hfits : ¬255 ≤ (c :: s).length + 1 := by omega
    have hpad : (c :: s).length + 1 - (c :: s).length = 1 := by omega
    simp only [List.isEmpty_cons, Bool.false_eq_true, if_false, ne_eq, not_true_eq_false,
      false_and, or_false, hfits, hsize, hpad]
    rw [List.append_assoc, List.replicate_one]

theorem stringEncode_long (raw : RawDataCodec) {s : Text} (h : 253 < s.length) :
    stringEncode raw s = .error ⟨"string too long"⟩ := by
  unfold stringEncode
  cases s with
  | nil => simp at h
  | cons c s =>
    have hlong : 255 ≤ (c :: s).length + 1 := by omega
    simp only [List.isEmpty_cons, Bool.false_eq_true, if_false]
    rw [if_pos (.inl hlong)]

theorem stringEncode_eq_ok {raw : RawDataCodec} {s : Text} {w : Bytes}
    (h : stringEncode raw s = .ok w) : s.length ≤ 253 ∧ w = stringBytes raw s := by
  by_cases hlen : s.length ≤ 253
  · rw [stringEncode_short raw hlen] at h
    cases h
    exact ⟨hlen, rfl⟩
  · rw [stringEncode_long raw (by omega)] at h
    cases h

theorem stringEncode_ok_iff (raw : RawDataCodec) (s : Text) :
    (∃ w, stringEncode raw s = .ok w) ↔ s.length ≤ 253 :=
  ⟨fun ⟨_, h⟩ => (stringEncode_eq_ok h).1, fun h => ⟨_, stringEncode_short raw h⟩⟩

/-- Strings written one after the other. -/
theorem appendEach_stringEncode_ok (raw : RawDataCodec) {ss : List Text}
    (h : ∀ s ∈ ss, s.length ≤ 253) :
    appendEach (stringEncode raw) [] ss = .ok (ss.map (stringBytes raw)).flatten := by
  rw [appendEach_ok fun s hs => stringEncode_short raw (h s hs), List.nil_append]

theorem appendEach_stringEncode_ok_iff (raw : RawDataCodec) (ss : List Text) :
    (∃ w, appendEach (stringEncode raw) [] ss = .ok w) ↔ ∀ s ∈ ss, s.length ≤ 253 := by
  rw [appendEach_ok_iff]
  simp only [stringEncode_ok_iff]

theorem length_stringBytes (raw : RawDataCodec) (s : Text) :
    (stringBytes raw s).length = stringSize s := by
  unfold stringBytes stringSize
  cases s with
  | nil => simp
  | cons c s => simp; omega

theorem stringSize_pos (s : Text) : 0 < stringSize s := by
  unfold stringSize
  split <;> omega

theorem stringSize_le {s : Text} (h : s.length ≤ 253) : stringSize s ≤ 255 := by
  unfold stringSize
  split <;> omega

theorem stringDecode_stringBytes (raw : RawDataCodec) {s : Text} (hlen : s.length ≤ 253)
    (hnul : 0 ∉ s) (rest : Bytes) :
    stringDecode raw (stringBytes raw s ++ rest) = .ok (s, rest) := by
  have hne : (stringBytes raw s ++ rest).isEmpty = false := by
    have hpos := stringSize_pos s
    rw [← length_stringBytes raw] at hpos
    rw [List.isEmpty_eq_false_iff, ← List.length_pos_iff, List.length_append]
    omega
  unfold stringDecode
  rw [hne, if_neg Bool.false_ne_true]
  unfold stringBytes
  cases s with
  | nil =>
    simp only [List.isEmpty_nil, if_true, WordCodec.read_encode]
    rfl
  | cons c s =>
    have hsize : ((c :: s).length + 1).toUInt8.toNat = (c :: s).length + 1 := by
      change (UInt8.ofNat _).toNat = _
      rw [UInt8.toNat_ofNat', Nat.mod_eq_of_lt (by omega)]
    have hnz : ((c :: s).length + 1).toUInt8 ≠ 0 := by
      intro h
      rw [h] at hsize
      simp at hsize
    have hbody : (c :: s ++ [0]).length = (c :: s).length + 1 := by simp
    -- the body and its terminator are exactly the bytes that the length byte names
    have htake : (Reader.take ((c :: s).length + 1) (c :: s ++ [0] ++ rest) :
        Except (Failure Arinc615aException) _) = .ok (c :: s ++ [0], rest) := by
      rw [Reader.take_of_le (by simp), List.take_left' hbody, List.drop_left' hbody]
    -- there is no NUL inside, so the terminator is the first one
    have hterm : (c :: s ++ [0]).takeWhile (· ≠ 0) = c :: s := by
      rw [List.takeWhile_append_of_pos]
      · simp
      · intro b hb
        simpa using fun h : b = 0 => hnul (h ▸ hb)
    simp only [List.isEmpty_cons, Bool.false_eq_true, if_false, List.append_assoc,
      WordCodec.read_encode, bind, Except.bind]
    rw [hsize, if_neg (by simp), if_neg hnz, ← List.append_assoc, htake]
    simp only [List.mem_append, List.mem_singleton, or_true, if_true, hterm]

/-- A string field: a length byte and, unless it is zero, that many bytes with a terminator. -/
def stringField (raw : RawDataCodec) : Field := .guarded fun w =>
  ∃ length body, w = raw.uint8.encode length ++ body ∧ body.length = length.toNat ∧
    (length ≠ 0 → 0 ∈ body)

/-- One equation for a span that starts with a length byte. -/
theorem stringDecode_cons (raw : RawDataCodec) (length : UInt8) (rawData : Bytes) :
    stringDecode raw (raw.uint8.encode length ++ rawData) =
      if rawData.length < length.toNat then throwInfo "string length inconsistent"
      else if length = 0 then .ok ([], rawData)
      else if 0 ∈ rawData.take length.toNat then
        .ok ((rawData.take length.toNat).takeWhile (· ≠ 0), rawData.drop length.toNat)
      else throwInfo "string not NULL terminated" := by
  have hne : (raw.uint8.encode length ++ rawData).isEmpty = false := by
    rw [List.isEmpty_eq_false_iff, ← List.length_pos_iff, List.length_append,
      raw.uint8.length_encode]
    omega
  unfold stringDecode
  rw [hne, if_neg Bool.false_ne_true, WordCodec.read_encode]
  simp only [bind, Except.bind]
  split
  · rfl
  · rename_i hfits
    rw [Reader.take_of_le (Nat.not_lt.mp hfits)]

/-- A span that is not empty starts with a length byte. -/
theorem exists_lengthByte (raw : RawDataCodec) {rawData : Bytes} (h : rawData ≠ []) :
    ∃ length rest, rawData = raw.uint8.encode length ++ rest := by
  have hpos : 1 ≤ rawData.length := List.length_pos_iff.mpr h
  refine ⟨raw.uint8.decode (rawData.take 1), rawData.drop 1, ?_⟩
  rw [raw.uint8.encode_decode _ (List.length_take_of_le hpos), List.take_append_drop]

theorem stringDecode_reads (raw : RawDataCodec) :
    Reader.Reads (stringDecode raw) (stringField raw) where
  overrun rawData := by
    -- every read is preceded by a look at the size of the span
    refine iff_of_false ?_ (Nat.not_lt_zero _)
    by_cases hne : rawData = []
    · subst hne
      exact fun h => nomatch h
    · obtain ⟨length, rest, rfl⟩ := exists_lengthByte raw hne
      rw [stringDecode_cons]
      split_ifs <;> exact fun h => nomatch h
  ok rawData rest := by
    constructor
    · rintro ⟨s, h⟩
      have hne : rawData ≠ [] := by
        rintro rfl
        cases h
      obtain ⟨length, body, rfl⟩ := exists_lengthByte raw hne
      rw [stringDecode_cons] at h
      split_ifs at h with hshort hzero hterm
      · cases h
      · cases h
        -- an empty string: the length byte alone
        exact ⟨raw.uint8.encode length, rfl, length, [], by simp, by simp [hzero],
          fun h => absurd hzero h⟩
      · cases h
        refine ⟨raw.uint8.encode length ++ body.take length.toNat, by simp, length,
          body.take length.toNat, rfl, List.length_take_of_le (Nat.not_lt.mp hshort),
          fun _ => hterm⟩
      · cases h
    · rintro ⟨w, rfl, length, body, rfl, hlen, hterm⟩
      rw [List.append_assoc, stringDecode_cons, List.take_left' hlen, List.drop_left' hlen,
        if_neg (by simp [hlen])]
      by_cases hzero : length = 0
      · subst hzero
        have hnil : body = [] := List.length_eq_zero_iff.mp hlen
        subst hnil
        exact ⟨[], rfl⟩
      · rw [if_neg hzero, if_pos (hterm hzero)]
        exact ⟨_, rfl⟩

/-! ## Ratios -/

/-- Space, tab, line feed, vertical tab, form feed and carriage return. -/
def isSpace (c : UInt8) : Bool := c == 0x20 || (0x09 ≤ c && c ≤ 0x0D)

def isDigit (c : UInt8) : Bool := 0x30 ≤ c && c ≤ 0x39

def decimalValue (digits : Text) : Nat :=
  digits.foldl (fun n d => n * 10 + (d.toNat - 0x30)) 0

/-- `std::stoul` in base 10: white space, a sign, and the longest run of digits.  A negative
number wraps around. -/
def stoul (s : Text) : Except String Nat :=
  let s := s.dropWhile isSpace
  -- at most one sign is skipped
  let (negative, s) : Bool × Text := match s with
    | 0x2D :: s => (true, s)
    | 0x2B :: s => (false, s)
    | s => (false, s)
  let digits := s.takeWhile isDigit
  if digits.isEmpty then .error "stoul"
  else if 2 ^ 64 ≤ decimalValue digits then .error "stoul"
  else .ok (if negative then (2 ^ 64 - decimalValue digits) % 2 ^ 64 else decimalValue digits)

/-- The value of a ratio string after the cast to `unsigned int` and the range check. -/
def ratioValue (ratioStr : Text) : Except String Ratio := do
  let ratio ← stoul ratioStr
  -- the cast to unsigned int comes before the range check
  if h : ratio % 2 ^ 32 ≤ 100 then .ok ⟨ratio % 2 ^ 32, h⟩
  else .error "Ratio value out of range"

def ratioDecode : FileReader Ratio := fun rawData =>
  if rawData.length < 3 then throwInfo "Ratio string size invalid"
  else do
    let (ratioStr, remaining) ← Reader.take 3 rawData
    match ratioValue ratioStr with
    | .ok ratio => .ok (ratio, remaining)
    | .error what => throwInfo what

/-- `std::format( "{:3}", value )`: at least three characters, filled with spaces on the left. -/
def ratioString (value : Nat) : Text :=
  let digits := (Nat.toDigits 10 value).map fun c => c.toNat.toUInt8
  List.replicate (3 - digits.length) 0x20 ++ digits

def ratioEncode (ratio : Ratio) : Bytes := ratioString ratio.value

-- all 101 values are run through
theorem ratioString_value :
    ∀ value : Fin 101, (ratioString value).length = 3 ∧ stoul (ratioString value) = .ok ↑value := by
  decide +kernel

@[simp] theorem length_ratioEncode (ratio : Ratio) : (ratioEncode ratio).length = 3 :=
  (ratioString_value ⟨ratio.value, Nat.lt_succ_of_le ratio.value_le⟩).1

theorem ratioValue_ratioEncode (ratio : Ratio) : ratioValue (ratioEncode ratio) = .ok ratio := by
  obtain ⟨value, hle⟩ := ratio
  have hmod : value % 2 ^ 32 = value := Nat.mod_eq_of_lt (by omega)
  have hstoul : stoul (ratioEncode ⟨value, hle⟩) = .ok value :=
    (ratioString_value ⟨value, Nat.lt_succ_of_le hle⟩).2
  unfold ratioValue
  simp only [hstoul, bind, Except.bind, hmod, hle, dif_pos]

theorem ratioDecode_of_le {rawData : Bytes} (h : 3 ≤ rawData.length) :
    ratioDecode rawData = match ratioValue (rawData.take 3) with
      | .ok ratio => .ok (ratio, rawData.drop 3)
      | .error what => throwInfo what := by
  unfold ratioDecode
  rw [if_neg (Nat.not_lt.mpr h), Reader.take_of_le h]
  rfl

theorem ratioDecode_ratioEncode (ratio : Ratio) (rest : Bytes) :
    ratioDecode (ratioEncode ratio ++ rest) = .ok (ratio, rest) := by
  have hlen := length_ratioEncode ratio
  rw [ratioDecode_of_le (by simp), List.take_left' hlen, List.drop_left' hlen,
    ratioValue_ratioEncode]

/-- A ratio field: three characters with a value of at most 100. -/
def ratioField : Field := .guarded fun w => w.length = 3 ∧ ∃ ratio, ratioValue w = .ok ratio

theorem ratioDecode_reads : Reader.Reads ratioDecode ratioField where
  overrun rawData := by
    refine iff_of_false ?_ (Nat.not_lt_zero _)
    by_cases hlen : rawData.length < 3
    · unfold ratioDecode
      rw [if_pos hlen]
      exact fun h => nomatch h
    · rw [ratioDecode_of_le (Nat.not_lt.mp hlen)]
      cases ratioValue (rawData.take 3) <;> exact fun h => nomatch h
  ok rawData rest := by
    constructor
    · rintro ⟨ratio, h⟩
      by_cases hlen : rawData.length < 3
      · unfold ratioDecode at h
        rw [if_pos hlen] at h
        cases h
      · rw [ratioDecode_of_le (Nat.not_lt.mp hlen)] at h
        cases hv : ratioValue (rawData.take 3) with
        | error what =>
          rw [hv] at h
          cases h
        | ok ratio' =>
          rw [hv] at h
          cases h
          exact ⟨rawData.take 3, (List.take_append_drop ..).symm,
            List.length_take_of_le (Nat.not_lt.mp hlen), ratio, hv⟩
    · rintro ⟨w, rfl, hlen, ratio, hratio⟩
      rw [ratioDecode_of_le (by simp [hlen]), List.take_left' hlen, List.drop_left' hlen, hratio]
      exact ⟨ratio, rfl⟩

/-! ## The file header -/

def headerSize : Nat := 6

/-- The base class of all protocol files. -/
structure ProtocolFile where
  protocolVersion : Arinc615aVersion := .arinc615a34
  deriving DecidableEq, Repr

/-- Zeros that hold the place of the header until the file is complete. -/
def headerSpace : Bytes := List.replicate headerSize 0

/-- Overwrites the header.  The size of the file is narrowed to 32 bits. -/
def insertHeader (raw : RawDataCodec) (protocolVersion : Arinc615aVersion) (rawData : Bytes) :
    Bytes :=
  raw.uint32.encode rawData.length.toUInt32 ++ raw.uint16.encode protocolVersion.toUnderlying ++
    rawData.drop headerSize

/-- The versions with a case in `decodeHeader`. -/
def supportedVersion (protocolVersion : UInt16) : Option Arinc615aVersion :=
  match protocolVersion with
  | 0x4133 => some .arinc615a2
  | 0x4134 => some .arinc615a34
  | _ => none

def decodeHeader (raw : RawDataCodec) : FileReader Arinc615aVersion := fun rawData =>
  if rawData.length < headerSize then throwInfo "Data packet to small"
  else do
    let (length, remainingData) ← raw.uint32.read rawData
    if length.toNat ≠ rawData.length then
      throwInfo "internal length field and data size differs"
    else
      let (protocolVersion, remainingData) ← raw.uint16.read remainingData
      match supportedVersion protocolVersion with
      | some version => .ok (version, remainingData)
      | none => throwInfo "Invalid or unsupported protocol version"

theorem supportedVersion_toUnderlying {version : Arinc615aVersion} (h : version.Supported) :
    supportedVersion version.toUnderlying = some version := by
  rcases h with rfl | rfl <;> rfl

theorem length_insertHeader (raw : RawDataCodec) (version : Arinc615aVersion) {rawData : Bytes}
    (h : headerSize ≤ rawData.length) :
    (insertHeader raw version rawData).length = rawData.length := by
  unfold insertHeader
  have h : 6 ≤ rawData.length := h
  rw [List.length_append, List.length_append, raw.uint32.length_encode,
    raw.uint16.length_encode, List.length_drop, headerSize]
  omega

@[simp] theorem length_headerSpace : headerSpace.length = 6 := rfl

theorem insertHeader_headerSpace (raw : RawDataCodec) (version : Arinc615aVersion)
    (body : Bytes) :
    insertHeader raw version (headerSpace ++ body) =
      raw.uint32.encode (6 + body.length).toUInt32 ++
        (raw.uint16.encode version.toUnderlying ++ body) := by
  unfold insertHeader
  rw [List.drop_left' (by rfl : headerSpace.length = headerSize), List.length_append,
    length_headerSpace, List.append_assoc]

theorem length_written (raw : RawDataCodec) (version : Arinc615aVersion) (body : Bytes) :
    (insertHeader raw version (headerSpace ++ body)).length = 6 + body.length := by
  rw [length_insertHeader raw version (by simp [headerSize]), List.length_append,
    length_headerSpace]

/-- The header that `insertHeader` writes is accepted when the size fits its field. -/
theorem decodeHeader_insertHeader (raw : RawDataCodec) {version : Arinc615aVersion}
    (hversion : version.Supported) (body : Bytes) (hsize : 6 + body.length < 2 ^ 32) :
    decodeHeader raw (insertHeader raw version (headerSpace ++ body)) = .ok (version, body) := by
  have hlength : (6 + body.length).toUInt32.toNat = 6 + body.length := by
    change (UInt32.ofNat _).toNat = _
    rw [UInt32.toNat_ofNat', Nat.mod_eq_of_lt hsize]
  have htotal := length_written raw version body
  unfold decodeHeader
  rw [if_neg (by rw [htotal, headerSize]; omega), htotal, insertHeader_headerSpace]
  simp only [WordCodec.read_encode, bind, Except.bind, hlength, ne_eq, not_true_eq_false, if_false,
    supportedVersion_toUnderlying hversion]

/-- A size field that was narrowed is found to be wrong. -/
theorem decodeHeader_narrowed (raw : RawDataCodec) (version : Arinc615aVersion) (body : Bytes)
    (hsize : 2 ^ 32 ≤ 6 + body.length) :
    decodeHeader raw (insertHeader raw version (headerSpace ++ body)) =
      throwInfo "internal length field and data size differs" := by
  have htotal := length_written raw version body
  -- 32 bits cannot hold the size
  have hdiffers : (6 + body.length).toUInt32.toNat ≠ 6 + body.length := by
    have hlt := (6 + body.length).toUInt32.toNat_lt
    omega
  unfold decodeHeader
  rw [if_neg (by rw [htotal, headerSize]; omega), htotal, insertHeader_headerSpace]
  simp only [WordCodec.read_encode, bind, Except.bind]
  rw [if_pos hdiffers]

/-- A complete header: the size field holds the size of the file, and the version is known. -/
def HeaderAccepted (raw : RawDataCodec) (rawData : Bytes) : Prop :=
  headerSize ≤ rawData.length ∧
    (raw.uint32.decode (rawData.take 4)).toNat = rawData.length ∧
    (supportedVersion (raw.uint16.decode ((rawData.drop 4).take 2))).isSome

theorem decodeHeader_ok (raw : RawDataCodec) {rawData : Bytes} (h : HeaderAccepted raw rawData) :
    ∃ version, decodeHeader raw rawData = .ok (version, rawData.drop headerSize) := by
  obtain ⟨hsize, hlength, hversion⟩ := h
  have hsize' : 6 ≤ rawData.length := hsize
  obtain ⟨version, hversion⟩ := Option.isSome_iff_exists.mp hversion
  refine ⟨version, ?_⟩
  unfold decodeHeader
  rw [if_neg (Nat.not_lt.mpr hsize), raw.uint32.read_of_le (by omega)]
  simp only [bind, Except.bind, hlength, ne_eq, not_true_eq_false, if_false]
  rw [raw.uint16.read_of_le (by rw [List.length_drop]; omega)]
  simp only [hversion, List.drop_drop]
  rfl

theorem decodeHeader_throws (raw : RawDataCodec) {rawData : Bytes}
    (h : ¬HeaderAccepted raw rawData) :
    ∃ e, decodeHeader raw rawData = .error (.exception e) := by
  unfold decodeHeader
  by_cases hsize : rawData.length < headerSize
  · exact ⟨_, if_pos hsize⟩
  have hsize' : 6 ≤ rawData.length := Nat.not_lt.mp hsize
  rw [if_neg hsize, raw.uint32.read_of_le (by omega)]
  simp only [bind, Except.bind]
  by_cases hlength : (raw.uint32.decode (rawData.take 4)).toNat = rawData.length
  · rw [if_neg (not_not.mpr hlength), raw.uint16.read_of_le (by rw [List.length_drop]; omega)]
    cases hversion : supportedVersion (raw.uint16.decode ((rawData.drop 4).take 2)) with
    | none =>
      simp only [hversion]
      exact ⟨_, rfl⟩
    | some version => exact absurd ⟨hsize', hlength, by rw [hversion]; rfl⟩ h
  · exact ⟨_, if_pos hlength⟩

/-! ## Fields of a file -/

/-- A string that comes back as it was: short enough for its length byte, and without a NUL. -/
def TextFits (s : Text) : Prop := s.length ≤ 253 ∧ 0 ∉ s

instance (s : Text) : Decidable (TextFits s) := inferInstanceAs (Decidable (_ ∧ _))

/-- A number of entries that fits its field is written unchanged. -/
theorem toNat_toUInt16 {n : Nat} (h : n ≤ 65535) : n.toUInt16.toNat = n := by
  change (UInt16.ofNat _).toNat = _
  rw [UInt16.toNat_ofNat', Nat.mod_eq_of_lt (by omega)]

section Written

open Decoder

variable {σ : Type} (raw : RawDataCodec)

@[simp] theorem read_word_written {α : Type} {width : Nat} (codec : WordCodec α width) (a : α)
    (o : σ) (rest : Bytes) :
    (read codec.read : FileDecoder σ α) o (codec.encode a ++ rest) = .done a o rest :=
  read_ok (codec.read_encode a rest) o

theorem read_string_written {s : Text} (h : TextFits s) (o : σ) (rest : Bytes) :
    (read (stringDecode raw) : FileDecoder σ Text) o (stringBytes raw s ++ rest) =
      .done s o rest :=
  read_ok (stringDecode_stringBytes raw h.1 h.2 rest) o

theorem read_string_written_last {s : Text} (h : TextFits s) (o : σ) :
    (read (stringDecode raw) : FileDecoder σ Text) o (stringBytes raw s) = .done s o [] := by
  have hread := read_string_written raw h o []
  rwa [List.append_nil] at hread

@[simp] theorem read_ratio_written (ratio : Ratio) (o : σ) (rest : Bytes) :
    (read ratioDecode : FileDecoder σ Ratio) o (ratioEncode ratio ++ rest) = .done ratio o rest :=
  read_ok (ratioDecode_ratioEncode ratio rest) o

/-- The beginning of every `decode`: the minimum size, then the header. -/
def decodeStart (minimumSize : Nat) (tooSmall : String)
    (setVersion : Arinc615aVersion → σ → σ) : FileDecoder σ Unit := do
  require (fun rawData => decide (minimumSize ≤ rawData.length)) ⟨tooSmall⟩
  let protocolVersion ← read (decodeHeader raw)
  update (setVersion protocolVersion)

/-- The end of every `decode` but one: no bytes may be left. -/
def decodeEnd (moreData : String) : FileDecoder σ Unit := require (·.isEmpty) ⟨moreData⟩

@[simp] theorem decodeEnd_nil (moreData : String) (o : σ) :
    (decodeEnd moreData : FileDecoder σ Unit) o [] = .done () o [] := rfl

theorem decodeStart_written {minimumSize : Nat} (tooSmall : String)
    (setVersion : Arinc615aVersion → σ → σ) {version : Arinc615aVersion}
    (hversion : version.Supported) (o : σ) {body : Bytes} (hmin : minimumSize ≤ 6 + body.length)
    (hsize : 6 + body.length < 2 ^ 32) :
    decodeStart raw minimumSize tooSmall setVersion o
        (insertHeader raw version (headerSpace ++ body)) =
      .done () (setVersion version o) body := by
  unfold decodeStart
  rw [bind_run, require_pos (by rw [length_written]; exact decide_eq_true hmin),
    Outcome.andThen_done, bind_run, read_ok (decodeHeader_insertHeader raw hversion body hsize),
    Outcome.andThen_done, update_run]

theorem decodeStart_tooSmall {minimumSize : Nat} (tooSmall : String)
    (setVersion : Arinc615aVersion → σ → σ) (o : σ) {version : Arinc615aVersion} {body : Bytes}
    (hmin : 6 + body.length < minimumSize) :
    decodeStart raw minimumSize tooSmall setVersion o
        (insertHeader raw version (headerSpace ++ body)) =
      .thrown (.exception ⟨tooSmall⟩) o := by
  unfold decodeStart
  rw [bind_run, require_neg (by rw [length_written]; exact decide_eq_false (Nat.not_le.mpr hmin)),
    Outcome.andThen_thrown]

theorem decodeStart_narrowed {minimumSize : Nat} (tooSmall : String)
    (setVersion : Arinc615aVersion → σ → σ) (o : σ) {version : Arinc615aVersion} {body : Bytes}
    (hmin : minimumSize ≤ 6 + body.length) (hsize : 2 ^ 32 ≤ 6 + body.length) :
    decodeStart raw minimumSize tooSmall setVersion o
        (insertHeader raw version (headerSpace ++ body)) =
      .thrown (.exception ⟨"internal length field and data size differs"⟩) o := by
  unfold decodeStart
  rw [bind_run, require_pos (by rw [length_written]; exact decide_eq_true hmin),
    Outcome.andThen_done, bind_run, read_error (decodeHeader_narrowed raw version body hsize),
    Outcome.andThen_thrown]

theorem cuts_decodeEnd {α : Type} (moreData : String) {k : Unit → FileDecoder σ α}
    {K : Bytes → Prop} (hk : Cuts (k ()) K) :
    Cuts (decodeEnd moreData >>= k) fun rest => rest = [] ∧ K rest := by
  intro o bs
  cases bs with
  | nil => exact (hk o []).trans (and_iff_right rfl).symm
  | cons b bs => exact iff_of_false id fun hc => nomatch hc.1

/-- A file of at least the minimum size with a good header that ends inside an unguarded field. -/
def Truncated (minimumSize : Nat) (layout : Layout) (rawData : Bytes) : Prop :=
  minimumSize ≤ rawData.length ∧ HeaderAccepted raw rawData ∧
    layout.Cut (rawData.drop headerSize)

/-- The minimum size protects the fixed fields behind the header. -/
theorem not_truncated {minimumSize : Nat} {layout : Layout}
    (h : layout.CoveredBy (minimumSize - headerSize)) (rawData : Bytes) :
    ¬Truncated raw minimumSize layout rawData := by
  rintro ⟨hmin, -, hcut⟩
  refine h.not_cut ?_ hcut
  rw [List.length_drop]
  omega

theorem cuts_decodeStart {α : Type} (minimumSize : Nat) (tooSmall : String)
    (setVersion : Arinc615aVersion → σ → σ) {k : Unit → FileDecoder σ α} {C : Bytes → Prop}
    (hk : Cuts (k ()) C) :
    Cuts (decodeStart raw minimumSize tooSmall setVersion >>= k) fun rawData =>
      minimumSize ≤ rawData.length ∧ HeaderAccepted raw rawData ∧
        C (rawData.drop headerSize) := by
  intro o bs
  unfold decodeStart
  -- in the order of decode: minimum size, header, fields
  by_cases hmin : minimumSize ≤ bs.length
  · rw [bind_run, bind_run, require_pos (decide_eq_true hmin), Outcome.andThen_done, bind_run]
    by_cases hheader : HeaderAccepted raw bs
    · obtain ⟨version, h⟩ := decodeHeader_ok raw hheader
      rw [read_ok h, Outcome.andThen_done, update_run, Outcome.andThen_done, hk]
      exact ⟨fun hc => ⟨hmin, hheader, hc⟩, fun hc => hc.2.2⟩
    · obtain ⟨e, h⟩ := decodeHeader_throws raw hheader
      rw [read_error h, Outcome.andThen_thrown, Outcome.andThen_thrown]
      exact iff_of_false id fun hc => hheader hc.2.1
  · rw [bind_run, bind_run, require_neg (decide_eq_false hmin), Outcome.andThen_thrown,
      Outcome.andThen_thrown]
    exact iff_of_false id fun hc => hmin hc.1

/-- The decoder reads the header and the fields of `layout`, and nothing may be left. -/
def ReadsFile (minimumSize : Nat) (layout : Layout) (d : FileDecoder σ Unit) : Prop :=
  ∀ (α : Type) (k : Unit → FileDecoder σ α) (K : Bytes → Prop), Cuts (k ()) K →
    Cuts (d >>= k) fun rawData => minimumSize ≤ rawData.length ∧ HeaderAccepted raw rawData ∧
      layout.cut (fun rest => rest = [] ∧ K rest) (rawData.drop headerSize)

theorem ReadsFile.cuts {minimumSize : Nat} {layout : Layout} {d : FileDecoder σ Unit}
    (h : ReadsFile raw minimumSize layout d) : Cuts d (Truncated raw minimumSize layout) := by
  -- nothing follows the file, so there is no way to run past its end behind the last field
  have hpure := h Unit pure (fun _ => False) fun o bs => Iff.rfl
  simp only [bind_pure, and_false] at hpure
  exact hpure

end Written

end Arinc615a.Files
