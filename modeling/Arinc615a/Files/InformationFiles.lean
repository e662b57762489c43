import Arinc615a.Files.ListFile

/-!
# Files of the information operation (LCL and LCS)
-/

open Reasoning Reasoning.Decoder

namespace Arinc615a.Files

open Information

variable (raw : RawDataCodec)

/-! ## Status file -/

structure InformationOperationStatusFile extends ProtocolFile where
  status : InformationStatus := {}
  deriving DecidableEq

namespace InformationOperationStatusFile

def encode (file : InformationOperationStatusFile) : Except Arinc615aException Bytes := do
  -- the counter comes first here, unlike in the other status files
  let rawData := headerSpace ++ raw.uint16.encode file.status.counter ++
    raw.uint16.encode file.status.code.toUnderlying ++
    raw.uint16.encode file.status.exceptionTimer ++ raw.int16.encode file.status.estimatedTime
  let rawStatusDescription ← stringEncode raw file.status.description
  pure (insertHeader raw file.protocolVersion (rawData ++ rawStatusDescription))

def decode : FileDecoder InformationOperationStatusFile Unit := do
  decodeStart raw (headerSize + 9) "Protocol file to small"
    fun protocolVersion file => { file with protocolVersion := protocolVersion }
  let counter ← read raw.uint16.read
  update fun file => { file with status := { file.status with counter := counter } }
  let intStatusCode ← read raw.uint16.read
  let code ← check (statusCode intStatusCode)
  -- setting the code drops the description, which is read last
  update fun file => { file with status := file.status.setCode code }
  let exceptionTimer ← read raw.uint16.read
  update fun file => { file with status := { file.status with exceptionTimer := exceptionTimer } }
  let estimatedTime ← read raw.int16.read
  update fun file => { file with status := { file.status with estimatedTime := estimatedTime } }
  let statusDescription ← read (stringDecode raw)
  update fun file => { file with status := { file.status with description := statusDescription } }
  decodeEnd "More data than expected"

structure WellFormed (file : InformationOperationStatusFile) : Prop where
  version : file.protocolVersion.Supported
  code : file.status.code.Known
  description : TextFits file.status.description

theorem decode_encode {file : InformationOperationStatusFile} (h : file.WellFormed) :
    ∃ bytes, encode raw file = .ok bytes ∧ decode raw {} bytes = .done () file [] := by
  obtain ⟨hversion, hcode, htext⟩ := h
  -- the fields behind the header, in the order of encode
  let body := raw.uint16.encode file.status.counter ++
    (raw.uint16.encode file.status.code.toUnderlying ++
    (raw.uint16.encode file.status.exceptionTimer ++
    (raw.int16.encode file.status.estimatedTime ++ stringBytes raw file.status.description)))
  refine ⟨insertHeader raw file.protocolVersion (headerSpace ++ body), ?_, ?_⟩
  · unfold encode
    rw [stringEncode_short raw htext.1]
    simp only [bind, Except.bind, pure, Except.pure, List.append_assoc, body]
  · have hpos := stringSize_pos file.status.description
    have hle := stringSize_le htext.1
    have hlen : body.length = 8 + stringSize file.status.description := by
      simp [body, length_stringBytes]
      omega
    unfold decode
    rw [bind_run, decodeStart_written raw _ _ hversion _ (by
      rw [hlen, headerSize]; omega) (by rw [hlen]; omega)]
    simp [body, statusCode_toUnderlying hcode, read_string_written_last raw htext, Status.setCode]

def layout : Layout :=
  .field (.word 2) <|
  .field (.checkedWord raw.uint16 fun n => ∃ code, statusCode n = .ok code) <|
  .field (.word 2) <| .field (.word 2) <| .field (stringField raw) .nil

theorem decode_reads : ReadsFile raw (headerSize + 9) (layout raw) (decode raw) := by
  intro α k K hk
  simp only [decode, bind_assoc]
  apply cuts_decodeStart
  apply Cuts.field raw.uint16.read_reads
  intro counter
  apply Cuts.update_bind
  apply Cuts.checked
  intro code
  apply Cuts.update_bind
  apply Cuts.field raw.uint16.read_reads
  intro exceptionTimer
  apply Cuts.update_bind
  apply Cuts.field raw.int16.read_reads
  intro estimatedTime
  apply Cuts.update_bind
  apply Cuts.field (stringDecode_reads raw)
  intro description
  apply Cuts.update_bind
  exact cuts_decodeEnd _ hk

theorem cuts_decode : Cuts (decode raw) (Truncated raw (headerSize + 9) (layout raw)) :=
  (decode_reads raw).cuts

theorem layout_covered : (layout raw).CoveredBy (headerSize + 9 - headerSize) :=
  .inr ⟨(by decide : 2 ≤ 9), fun _ h => h,
    .inr ⟨(by decide : 2 ≤ 7), fun _ h => h.1,
      .inr ⟨(by decide : 2 ≤ 5), fun _ h => h,
        .inr ⟨(by decide : 2 ≤ 3), fun _ h => h, .inl ⟨rfl, trivial⟩⟩⟩⟩⟩

end InformationOperationStatusFile

/-! ## Load configuration list -/

structure LoadConfigurationListFile extends ProtocolFile where
  targetsHardware : List TargetHardware := []
  deriving DecidableEq, Repr

namespace LoadConfigurationListFile

def encodePartNumber (partNumber : PartNumber) : Except Arinc615aException Bytes := do
  let rawPartNumber ← stringEncode raw partNumber.partNumber
  let rawAmendment ← stringEncode raw partNumber.amendment
  let rawPartDesignationText ← stringEncode raw partNumber.partDesignation
  pure (rawPartNumber ++ rawAmendment ++ rawPartDesignationText)

def encodeTargetHardware (thw : TargetHardware) : Except Arinc615aException Bytes := do
  let rawTargetHardwareCode ← stringEncode raw thw.literalName
  let rawSerialNumber ← stringEncode raw thw.serialNumber
  if 65535 < thw.partNumbers.length then .error ⟨"More Part Numbers than allowed"⟩
  else
    appendEach (encodePartNumber raw)
      (rawTargetHardwareCode ++ rawSerialNumber ++
        raw.uint16.encode thw.partNumbers.length.toUInt16) thw.partNumbers

def encode (file : LoadConfigurationListFile) : Except Arinc615aException Bytes :=
  encodeList raw "More THW IDs than allowed" (encodeTargetHardware raw) file.protocolVersion
    file.targetsHardware

def decodePartNumber : FileDecoder LoadConfigurationListFile PartNumber := do
  let partNumber ← read (stringDecode raw)
  let amendment ← read (stringDecode raw)
  let partDesignation ← read (stringDecode raw)
  pure { partNumber, amendment, partDesignation }

/-- One round of the loop: the finished record is added to the list of the file. -/
def decodeTargetHardware : FileDecoder LoadConfigurationListFile Unit := do
  let literalName ← read (stringDecode raw)
  let serialNumber ← read (stringDecode raw)
  let partNumbersCount ← read raw.uint16.read
  let partNumbers ← collect partNumbersCount.toNat (decodePartNumber raw)
  update fun file =>
    { file with
      targetsHardware := file.targetsHardware ++ [{ literalName, serialNumber, partNumbers }] }

def decode : FileDecoder LoadConfigurationListFile Unit :=
  decodeList raw (headerSize + 13) "Protocol file to small" "More data then expected"
    (fun protocolVersion file => { file with protocolVersion := protocolVersion })
    (decodeTargetHardware raw)

/-! What a written list looks like -/

def partNumberBytes (partNumber : PartNumber) : Bytes :=
  stringBytes raw partNumber.partNumber ++
    (stringBytes raw partNumber.amendment ++ stringBytes raw partNumber.partDesignation)

def partNumberSize (partNumber : PartNumber) : Nat :=
  stringSize partNumber.partNumber + stringSize partNumber.amendment +
    stringSize partNumber.partDesignation

def targetHardwareBytes (thw : TargetHardware) : Bytes :=
  stringBytes raw thw.literalName ++ (stringBytes raw thw.serialNumber ++
    (raw.uint16.encode thw.partNumbers.length.toUInt16 ++
      (thw.partNumbers.map (partNumberBytes raw)).flatten))

def targetHardwareSize (thw : TargetHardware) : Nat :=
  stringSize thw.literalName + stringSize thw.serialNumber + 2 +
    (thw.partNumbers.map partNumberSize).sum

/-- The size of the whole file, worked out from its records. -/
def encodedSize (file : LoadConfigurationListFile) : Nat :=
  headerSize + 2 + (file.targetsHardware.map targetHardwareSize).sum

structure PartNumberFits (p : PartNumber) : Prop where
  partNumber : TextFits p.partNumber
  amendment : TextFits p.amendment
  partDesignation : TextFits p.partDesignation

structure TargetHardwareFits (thw : TargetHardware) : Prop where
  literalName : TextFits thw.literalName
  serialNumber : TextFits thw.serialNumber
  count : thw.partNumbers.length ≤ 65535
  partNumbers : ∀ partNumber ∈ thw.partNumbers, PartNumberFits partNumber

structure NulFree (file : LoadConfigurationListFile) : Prop where
  literalName : ∀ thw ∈ file.targetsHardware, 0 ∉ thw.literalName
  serialNumber : ∀ thw ∈ file.targetsHardware, 0 ∉ thw.serialNumber
  partNumbers : ∀ thw ∈ file.targetsHardware, ∀ p ∈ thw.partNumbers,
    0 ∉ p.partNumber ∧ 0 ∉ p.amendment ∧ 0 ∉ p.partDesignation

theorem encodePartNumber_eq (p : PartNumber) :
    encodePartNumber raw p =
      appendEach (stringEncode raw) [] [p.partNumber, p.amendment, p.partDesignation] := by
  simp only [encodePartNumber, appendEach, List.foldlM_cons, List.foldlM_nil, bind_assoc,
    pure_bind, List.nil_append]

theorem encodePartNumber_ok {p : PartNumber} (h : PartNumberFits p) :
    encodePartNumber raw p = .ok (partNumberBytes raw p) := by
  rw [encodePartNumber_eq, appendEach_stringEncode_ok raw (by
    simp [h.partNumber.1, h.amendment.1, h.partDesignation.1])]
  simp [partNumberBytes]

theorem encodeTargetHardware_ok {thw : TargetHardware} (h : TargetHardwareFits thw) :
    encodeTargetHardware raw thw = .ok (targetHardwareBytes raw thw) := by
  unfold encodeTargetHardware
  rw [stringEncode_short raw h.literalName.1, stringEncode_short raw h.serialNumber.1]
  simp only [bind, Except.bind]
  rw [if_neg (Nat.not_lt.mpr h.count),
    appendEach_ok fun p hp => encodePartNumber_ok raw (h.partNumbers p hp)]
  simp [targetHardwareBytes]

/-- A record that is written has strings and a number of entries that fit their fields. -/
theorem targetHardwareFits_of_encode {thw : TargetHardware} {w : Bytes}
    (h : encodeTargetHardware raw thw = .ok w) (hliteral : 0 ∉ thw.literalName)
    (hserial : 0 ∉ thw.serialNumber)
    (hparts : ∀ p ∈ thw.partNumbers, 0 ∉ p.partNumber ∧ 0 ∉ p.amendment ∧ 0 ∉ p.partDesignation) :
    TargetHardwareFits thw := by
  unfold encodeTargetHardware at h
  cases hl : stringEncode raw thw.literalName with
  | error e => rw [hl] at h; cases h
  | ok l =>
    -- the strings are encoded before the part numbers are counted
    cases hs : stringEncode raw thw.serialNumber with
    | error e => rw [hl, hs] at h; cases h
    | ok s =>
      rw [hl, hs] at h
      simp only [bind, Except.bind] at h
      split_ifs at h with hcount
      -- each part number has been written, and so have its three strings
      have hwritten := (appendEach_ok_iff _).mp ⟨w, h⟩
      refine ⟨⟨(stringEncode_eq_ok hl).1, hliteral⟩, ⟨(stringEncode_eq_ok hs).1, hserial⟩,
        Nat.not_lt.mp hcount, fun p hp => ?_⟩
      obtain ⟨out, hout⟩ := hwritten p hp
      rw [encodePartNumber_eq] at hout
      have hshort := (appendEach_stringEncode_ok_iff raw _).mp ⟨out, hout⟩
      obtain ⟨h1, h2, h3⟩ := hparts p hp
      exact ⟨⟨hshort _ (by simp), h1⟩, ⟨hshort _ (by simp), h2⟩, ⟨hshort _ (by simp), h3⟩⟩

theorem encode_fits {file : LoadConfigurationListFile} (hnul : NulFree file) {bytes : Bytes}
    (h : encode raw file = .ok bytes) :
    file.targetsHardware.length ≤ 65535 ∧
      ∀ thw ∈ file.targetsHardware, TargetHardwareFits thw := by
  obtain ⟨hcount, hwritten⟩ := (encodeList_ok_iff raw).mp ⟨bytes, h⟩
  refine ⟨hcount, fun thw hthw => ?_⟩
  obtain ⟨w, hw⟩ := hwritten thw hthw
  exact targetHardwareFits_of_encode raw hw (hnul.literalName thw hthw)
    (hnul.serialNumber thw hthw) (hnul.partNumbers thw hthw)

theorem length_partNumberBytes (p : PartNumber) :
    (partNumberBytes raw p).length = partNumberSize p := by
  simp [partNumberBytes, partNumberSize, length_stringBytes]
  omega

theorem length_targetHardwareBytes (thw : TargetHardware) :
    (targetHardwareBytes raw thw).length = targetHardwareSize thw := by
  simp only [targetHardwareBytes, targetHardwareSize, List.length_append, length_stringBytes,
    WordCodec.length_encode, length_flatten_map (length_partNumberBytes raw)]
  omega

theorem decodePartNumber_written {p : PartNumber} (h : PartNumberFits p)
    (o : LoadConfigurationListFile) (rest : Bytes) :
    decodePartNumber raw o (partNumberBytes raw p ++ rest) = .done p o rest := by
  simp only [decodePartNumber, partNumberBytes, List.append_assoc, bind_run, pure_run,
    Outcome.andThen_done, read_string_written raw h.partNumber,
    read_string_written raw h.amendment, read_string_written raw h.partDesignation]

theorem decodeTargetHardware_written {thw : TargetHardware} (h : TargetHardwareFits thw)
    (o : LoadConfigurationListFile) (rest : Bytes) :
    decodeTargetHardware raw o (targetHardwareBytes raw thw ++ rest) =
      .done () { o with targetsHardware := o.targetsHardware ++ [thw] } rest := by
  have hloop := collect_written (fun p hp o rest =>
    decodePartNumber_written raw (h.partNumbers p hp) o rest) o rest
  simp [decodeTargetHardware, targetHardwareBytes, read_string_written raw h.literalName,
    read_string_written raw h.serialNumber, toNat_toUInt16 h.count, hloop]

/-- Decoding what was written gives the file back exactly when the file is at least as large as
the minimum `decode` asks for and its size fits the header. -/
theorem decode_encode_iff {file : LoadConfigurationListFile}
    (hversion : file.protocolVersion.Supported) (hnul : NulFree file) {bytes : Bytes}
    (h : encode raw file = .ok bytes) :
    decode raw {} bytes = .done () file [] ↔
      headerSize + 13 ≤ encodedSize file ∧ encodedSize file < 2 ^ 32 := by
  obtain ⟨hcount, hfits⟩ := encode_fits raw hnul h
  unfold encode at h
  rw [encodeList_ok raw hcount fun thw hthw => encodeTargetHardware_ok raw (hfits thw hthw)] at h
  cases h
  have hsize : 6 + (listBytes raw (targetHardwareBytes raw) file.targetsHardware).length =
      encodedSize file := by
    simp only [listBytes, encodedSize, headerSize, List.length_append, WordCodec.length_encode,
      length_flatten_map (length_targetHardwareBytes raw)]
    omega
  -- the two conditions are the two checks of decode on the size
  rw [← hsize]
  by_cases hmin : headerSize + 13 ≤
      6 + (listBytes raw (targetHardwareBytes raw) file.targetsHardware).length
  · by_cases hmax : 6 + (listBytes raw (targetHardwareBytes raw) file.targetsHardware).length <
        2 ^ 32
    · refine iff_of_true ?_ ⟨hmin, hmax⟩
      exact decodeList_written raw _ _ (fun o : LoadConfigurationListFile => o.targetsHardware)
        (fun records o => { o with targetsHardware := records }) (fun _ _ => rfl)
        (fun _ _ _ => rfl) (fun _ => rfl) hversion hcount
        (fun thw hthw => decodeTargetHardware_written raw (hfits thw hthw)) hmin hmax {}
    -- the header holds the size modulo 2 ^ 32
    · refine iff_of_false ?_ fun hc => hmax hc.2
      unfold decode decodeList
      rw [bind_run, decodeStart_narrowed raw _ _ _ hmin (Nat.not_lt.mp hmax)]
      intro h
      cases h
  -- decode throws before it has read anything
  · refine iff_of_false ?_ fun hc => hmin hc.1
    unfold decode decodeList
    rw [bind_run, decodeStart_tooSmall raw _ _ _ (Nat.not_le.mp hmin)]
    intro h
    cases h

def partNumberLayout : Layout :=
  .field (stringField raw) <| .field (stringField raw) <| .field (stringField raw) .nil

def targetHardwareLayout : Layout :=
  .field (stringField raw) <| .field (stringField raw) <|
  .counted 2 (fun w => (raw.uint16.decode w).toNat) (partNumberLayout raw) .nil

def layout : Layout := listLayout raw (targetHardwareLayout raw)

theorem decodePartNumber_follows : Follows (decodePartNumber raw) (partNumberLayout raw) := by
  intro β k K hk
  simp only [decodePartNumber, bind_assoc, pure_bind]
  apply Cuts.field (stringDecode_reads raw)
  intro partNumber
  apply Cuts.field (stringDecode_reads raw)
  intro amendment
  apply Cuts.field (stringDecode_reads raw)
  intro partDesignation
  exact hk _

theorem decodeTargetHardware_follows :
    Follows (decodeTargetHardware raw) (targetHardwareLayout raw) := by
  -- the loop of part numbers stands inside the loop of records
  intro β k K hk
  simp only [decodeTargetHardware, bind_assoc]
  apply Cuts.field (stringDecode_reads raw)
  intro literalName
  apply Cuts.field (stringDecode_reads raw)
  intro serialNumber
  apply Cuts.collect_counted (decodePartNumber_follows raw)
  intro partNumbers
  exact Cuts.update_bind (hk ())

theorem decode_reads : ReadsFile raw (headerSize + 13) (layout raw) (decode raw) :=
  decodeList_reads raw (decodeTargetHardware_follows raw)

theorem cuts_decode : Cuts (decode raw) (Truncated raw (headerSize + 13) (layout raw)) :=
  (decode_reads raw).cuts

end LoadConfigurationListFile

end Arinc615a.Files
