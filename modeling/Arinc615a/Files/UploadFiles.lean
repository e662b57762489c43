import Arinc615a.Files.ListFile

/-!
# Files of the upload operation (LUR and LUS)
-/

open Reasoning Reasoning.Decoder

namespace Arinc615a.Files

open Information

variable (raw : RawDataCodec)

/-! ## Request file -/

structure UploadOperationRequestFile extends ProtocolFile where
  loads : List UploadLoad := []
  deriving DecidableEq, Repr

namespace UploadOperationRequestFile

def minimumSize : Nat := headerSize + 2

def encodeLoad (load : UploadLoad) : Except Arinc615aException Bytes := do
  let headerFilename ← stringEncode raw load.headerFilename
  let loadPartNumberName ← stringEncode raw load.partNumber
  pure (headerFilename ++ loadPartNumberName)

def encode (file : UploadOperationRequestFile) : Except Arinc615aException Bytes :=
  encodeList raw "More loads than allowed" (encodeLoad raw) file.protocolVersion file.loads

def decodeLoad : FileDecoder UploadOperationRequestFile Unit := do
  let headerFilename ← read (stringDecode raw)
  let loadPartNumber ← read (stringDecode raw)
  update fun file =>
    { file with loads := file.loads ++ [{ headerFilename, partNumber := loadPartNumber }] }

def decode : FileDecoder UploadOperationRequestFile Unit :=
  decodeList raw minimumSize "Protocol file to small" "More data then expected"
    (fun protocolVersion file => { file with protocolVersion := protocolVersion })
    (decodeLoad raw)

/-- The bounds of the fields. -/
structure Fits (file : UploadOperationRequestFile) : Prop where
  count : file.loads.length ≤ 65535
  headerFilename : ∀ load ∈ file.loads, load.headerFilename.length ≤ 253
  partNumber : ∀ load ∈ file.loads, load.partNumber.length ≤ 253

def NulFree (file : UploadOperationRequestFile) : Prop :=
  ∀ load ∈ file.loads, 0 ∉ load.headerFilename ∧ 0 ∉ load.partNumber

def loadBytes (load : UploadLoad) : Bytes :=
  stringBytes raw load.headerFilename ++ stringBytes raw load.partNumber

theorem encodeLoad_eq (load : UploadLoad) :
    encodeLoad raw load =
      appendEach (stringEncode raw) [] [load.headerFilename, load.partNumber] := by
  simp only [encodeLoad, appendEach, List.foldlM_cons, List.foldlM_nil, bind_assoc, pure_bind,
    List.nil_append]

theorem encodeLoad_ok_iff (load : UploadLoad) :
    (∃ w, encodeLoad raw load = .ok w) ↔
      load.headerFilename.length ≤ 253 ∧ load.partNumber.length ≤ 253 := by
  rw [encodeLoad_eq, appendEach_stringEncode_ok_iff]
  simp

theorem encodeLoad_ok {load : UploadLoad} (hfilename : load.headerFilename.length ≤ 253)
    (hpartNumber : load.partNumber.length ≤ 253) :
    encodeLoad raw load = .ok (loadBytes raw load) := by
  rw [encodeLoad_eq, appendEach_stringEncode_ok raw (by simp [hfilename, hpartNumber])]
  simp [loadBytes]

theorem length_loadBytes {load : UploadLoad} (hfilename : load.headerFilename.length ≤ 253)
    (hpartNumber : load.partNumber.length ≤ 253) : (loadBytes raw load).length ≤ 510 := by
  have h1 := stringSize_le hfilename
  have h2 := stringSize_le hpartNumber
  rw [loadBytes, List.length_append, length_stringBytes, length_stringBytes]
  omega

theorem encode_ok_iff (file : UploadOperationRequestFile) :
    (∃ bytes, encode raw file = .ok bytes) ↔ file.Fits := by
  unfold encode
  rw [encodeList_ok_iff]
  simp only [encodeLoad_ok_iff]
  constructor
  · rintro ⟨hcount, hload⟩
    exact ⟨hcount, fun load h => (hload load h).1, fun load h => (hload load h).2⟩
  · rintro ⟨hcount, hfilename, hpartNumber⟩
    exact ⟨hcount, fun load h => ⟨hfilename load h, hpartNumber load h⟩⟩

theorem decodeLoad_written {load : UploadLoad} (hfilename : TextFits load.headerFilename)
    (hpartNumber : TextFits load.partNumber) (o : UploadOperationRequestFile) (rest : Bytes) :
    decodeLoad raw o (loadBytes raw load ++ rest) =
      .done () { o with loads := o.loads ++ [load] } rest := by
  simp [decodeLoad, loadBytes, read_string_written raw hfilename,
    read_string_written raw hpartNumber]

theorem decode_encode {file : UploadOperationRequestFile}
    (hversion : file.protocolVersion.Supported) (hnul : file.NulFree) {bytes : Bytes}
    (h : encode raw file = .ok bytes) : decode raw {} bytes = .done () file [] := by
  -- what encode has written tells that the bounds hold
  have hfits := (encode_ok_iff raw file).mp ⟨bytes, h⟩
  have hwritten : ∀ load ∈ file.loads, encodeLoad raw load = .ok (loadBytes raw load) :=
    fun load hload =>
      encodeLoad_ok raw (hfits.headerFilename load hload) (hfits.partNumber load hload)
  have hsize := length_listBytes_le raw hfits.count fun load hload =>
    length_loadBytes raw (hfits.headerFilename load hload) (hfits.partNumber load hload)
  unfold encode at h
  rw [encodeList_ok raw hfits.count hwritten] at h
  cases h
  exact decodeList_written raw _ _ (fun o : UploadOperationRequestFile => o.loads)
    (fun loads o => { o with loads := loads }) (fun _ _ => rfl) (fun _ _ _ => rfl)
    (fun _ => rfl) hversion hfits.count (fun load hload => decodeLoad_written raw
      ⟨hfits.headerFilename load hload, (hnul load hload).1⟩
      ⟨hfits.partNumber load hload, (hnul load hload).2⟩)
    (minimum_le_listBytes raw _ _) (Nat.lt_of_le_of_lt hsize (by decide)) {}

def loadLayout : Layout := .field (stringField raw) <| .field (stringField raw) .nil

def layout : Layout := listLayout raw (loadLayout raw)

theorem decodeLoad_follows : Follows (decodeLoad raw) (loadLayout raw) := by
  intro β k K hk
  simp only [decodeLoad, bind_assoc]
  apply Cuts.field (stringDecode_reads raw)
  intro headerFilename
  apply Cuts.field (stringDecode_reads raw)
  intro partNumber
  exact Cuts.update_bind (hk ())

theorem decode_reads : ReadsFile raw minimumSize (layout raw) (decode raw) :=
  decodeList_reads raw (decodeLoad_follows raw)

theorem cuts_decode : Cuts (decode raw) (Truncated raw minimumSize (layout raw)) :=
  (decode_reads raw).cuts

theorem layout_covered : (layout raw).CoveredBy (minimumSize - headerSize) :=
  have hguarded : (loadLayout raw).Guarded := ⟨rfl, rfl, trivial⟩
  listLayout_covered raw hguarded (Nat.le_refl _)

end UploadOperationRequestFile

/-! ## Status file -/

structure UploadOperationStatusFile extends ProtocolFile where
  status : UploadStatus := {}
  deriving DecidableEq

namespace UploadOperationStatusFile

/-- Changes the part of the status that all operations have. -/
def modifyStatus (f : Status → Status) (file : UploadOperationStatusFile) :
    UploadOperationStatusFile :=
  { file with status := { file.status with toStatus := f file.status.toStatus } }

def encodeLoad (headerFile : UploadLoadStatus) : Except Arinc615aException Bytes := do
  let rawHeaderFilename ← stringEncode raw headerFile.headerFilename
  let rawLoadPartNumber ← stringEncode raw headerFile.partNumber
  let rawLoadDescription ← stringEncode raw headerFile.description
  pure (rawHeaderFilename ++ rawLoadPartNumber ++ ratioEncode headerFile.ratio ++
    raw.uint16.encode headerFile.code.toUnderlying ++ rawLoadDescription)

def encode (file : UploadOperationStatusFile) : Except Arinc615aException Bytes :=
  encodeStatusList raw "More Load Headers than allowed" (encodeLoad raw) file.protocolVersion
    file.status.toStatus file.status.listRatio file.status.loads

def decodeLoad : FileDecoder UploadOperationStatusFile UploadLoadStatus := do
  let headerFilename ← read (stringDecode raw)
  let loadPartNumber ← read (stringDecode raw)
  let loadRatio ← read ratioDecode
  let intLoadStatusCode ← read raw.uint16.read
  let loadStatusDescription ← read (stringDecode raw)
  -- the code is checked after the description has been read
  let code ← check (statusCode intLoadStatusCode)
  pure
    { headerFilename, partNumber := loadPartNumber, ratio := loadRatio, code
      description := loadStatusDescription }

def decode : FileDecoder UploadOperationStatusFile Unit :=
  decodeStatusList raw
    (fun protocolVersion file => { file with protocolVersion := protocolVersion })
    modifyStatus
    (fun listRatio file => { file with status := { file.status with listRatio := listRatio } })
    (fun loads file => { file with status := { file.status with loads := loads } })
    (decodeLoad raw)

structure LoadFits (load : UploadLoadStatus) : Prop where
  headerFilename : TextFits load.headerFilename
  partNumber : TextFits load.partNumber
  code : load.code.Known
  description : TextFits load.description

structure WellFormed (file : UploadOperationStatusFile) : Prop where
  version : file.protocolVersion.Supported
  code : file.status.code.Known
  description : TextFits file.status.description
  count : file.status.loads.length ≤ 65535
  loads : ∀ load ∈ file.status.loads, LoadFits load

def loadBytes (load : UploadLoadStatus) : Bytes :=
  stringBytes raw load.headerFilename ++ (stringBytes raw load.partNumber ++
    (ratioEncode load.ratio ++ (raw.uint16.encode load.code.toUnderlying ++
      stringBytes raw load.description)))

theorem encodeLoad_ok {load : UploadLoadStatus} (h : LoadFits load) :
    encodeLoad raw load = .ok (loadBytes raw load) := by
  unfold encodeLoad loadBytes
  rw [stringEncode_short raw h.headerFilename.1, stringEncode_short raw h.partNumber.1,
    stringEncode_short raw h.description.1]
  simp only [bind, Except.bind, pure, Except.pure, List.append_assoc]

theorem length_loadBytes {load : UploadLoadStatus} (h : LoadFits load) :
    (loadBytes raw load).length ≤ 770 := by
  have h1 := stringSize_le h.headerFilename.1
  have h2 := stringSize_le h.partNumber.1
  have h3 := stringSize_le h.description.1
  simp only [loadBytes, List.length_append, length_stringBytes, length_ratioEncode,
    WordCodec.length_encode]
  omega

theorem decodeLoad_written {load : UploadLoadStatus} (h : LoadFits load)
    (o : UploadOperationStatusFile) (rest : Bytes) :
    decodeLoad raw o (loadBytes raw load ++ rest) = .done load o rest := by
  simp only [decodeLoad, loadBytes, List.append_assoc, bind_run, pure_run, Outcome.andThen_done,
    read_string_written raw h.headerFilename, read_string_written raw h.partNumber,
    read_ratio_written, read_word_written, read_string_written raw h.description,
    statusCode_toUnderlying h.code, check_ok]

theorem decode_encode {file : UploadOperationStatusFile} (h : file.WellFormed) :
    ∃ bytes, encode raw file = .ok bytes ∧ decode raw {} bytes = .done () file [] := by
  have hwritten : ∀ load ∈ file.status.loads, encodeLoad raw load = .ok (loadBytes raw load) :=
    fun load hload => encodeLoad_ok raw (h.loads load hload)
  exact ⟨_, encodeStatusList_ok raw h.description.1 h.count hwritten,
    decodeStatusList_written raw h.version h.code h.description h.count
      (fun load hload => decodeLoad_written raw (h.loads load hload))
      (fun load hload => length_loadBytes raw (h.loads load hload)) (by decide) {}⟩

def loadLayout : Layout :=
  .field (stringField raw) <| .field (stringField raw) <| .field ratioField <|
  .field (.checkedWord raw.uint16 fun n => ∃ code, statusCode n = .ok code) <|
  .field (stringField raw) .nil

def layout : Layout := statusListLayout raw (loadLayout raw)

theorem decodeLoad_follows : Follows (decodeLoad raw) (loadLayout raw) := by
  intro β k K hk
  simp only [decodeLoad, bind_assoc, pure_bind]
  apply Cuts.field (stringDecode_reads raw)
  intro headerFilename
  apply Cuts.field (stringDecode_reads raw)
  intro loadPartNumber
  apply Cuts.field ratioDecode_reads
  intro loadRatio
  -- the unguarded code comes before a guarded string, and its check after it
  apply Cuts.checked_late (stringDecode_reads raw) rfl
  intro loadStatusDescription code
  exact hk _

theorem decode_reads : ReadsFile raw (headerSize + 9) (layout raw) (decode raw) :=
  decodeStatusList_reads raw (decodeLoad_follows raw)

theorem cuts_decode : Cuts (decode raw) (Truncated raw (headerSize + 9) (layout raw)) :=
  (decode_reads raw).cuts

end UploadOperationStatusFile

end Arinc615a.Files
