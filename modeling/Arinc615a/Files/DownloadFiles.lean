import Arinc615a.Files.ListFile

/-!
# Files of the download operations (LNR, LNL, LNA and LNS)
-/

open Reasoning Reasoning.Decoder

namespace Arinc615a.Files

open Information

variable (raw : RawDataCodec)

/-! ## Filenames -/

/-- What a list of filenames needs to fit its fields. -/
structure FilenamesFit (files : List Text) : Prop where
  count : files.length ≤ 65535
  filename : ∀ file ∈ files, file.length ≤ 253

theorem filenames_length {files : List Text} (h : FilenamesFit files) :
    (files.map (stringBytes raw)).flatten.length ≤ 65535 * 255 :=
  length_flatten_le h.count fun file hfile => by
    rw [length_stringBytes]
    exact stringSize_le (h.filename file hfile)

/-! ## Request file -/

structure DownloadOperationRequestFile extends ProtocolFile where
  files : List Text := []
  userDefinedData : Bytes := []
  deriving DecidableEq, Repr

namespace DownloadOperationRequestFile

def minimumSize : Nat := headerSize + 3

def encode (file : DownloadOperationRequestFile) : Except Arinc615aException Bytes := do
  if 65535 < file.files.length then .error ⟨"More files than allowed"⟩
  else
    let rawData ← appendEach (stringEncode raw)
      (headerSpace ++ raw.uint16.encode file.files.length.toUInt16) file.files
    if 255 < file.userDefinedData.length then .error ⟨"User defined data do big"⟩
    else
      pure (insertHeader raw file.protocolVersion
        (rawData ++ raw.uint8.encode file.userDefinedData.length.toUInt8 ++ file.userDefinedData))

def decodeFile : FileDecoder DownloadOperationRequestFile Unit := do
  let filename ← read (stringDecode raw)
  update fun file => { file with files := file.files ++ [filename] }

def decode : FileDecoder DownloadOperationRequestFile Unit := do
  decodeStart raw minimumSize "Protocol file to small"
    fun protocolVersion file => { file with protocolVersion := protocolVersion }
  let numberOfFiles ← read raw.uint16.read
  times numberOfFiles.toNat (decodeFile raw)
  let userDefinedDataLength ← read raw.uint8.read
  -- the user defined data are all the rest; no further check of the end is needed
  require (fun remainingData => remainingData.length == userDefinedDataLength.toNat)
    ⟨"user defined data length"⟩
  let remainingData ← unread
  update fun file => { file with userDefinedData := remainingData }

structure Fits (file : DownloadOperationRequestFile) : Prop where
  files : FilenamesFit file.files
  userDefinedData : file.userDefinedData.length ≤ 255

def NulFree (file : DownloadOperationRequestFile) : Prop := ∀ filename ∈ file.files, 0 ∉ filename

theorem encode_ok {file : DownloadOperationRequestFile} (h : file.Fits) :
    encode raw file = .ok (insertHeader raw file.protocolVersion (headerSpace ++
      (raw.uint16.encode file.files.length.toUInt16 ++
        ((file.files.map (stringBytes raw)).flatten ++
          (raw.uint8.encode file.userDefinedData.length.toUInt8 ++ file.userDefinedData))))) := by
  have hwritten : ∀ filename ∈ file.files,
      stringEncode raw filename = .ok (stringBytes raw filename) :=
    fun filename hfile => stringEncode_short raw (h.files.filename filename hfile)
  unfold encode
  rw [if_neg (Nat.not_lt.mpr h.files.count), appendEach_ok hwritten]
  simp only [bind, Except.bind]
  rw [if_neg (Nat.not_lt.mpr h.userDefinedData)]
  simp only [pure, Except.pure, List.append_assoc]

theorem encode_ok_iff (file : DownloadOperationRequestFile) :
    (∃ bytes, encode raw file = .ok bytes) ↔ file.Fits := by
  constructor
  · rintro ⟨bytes, h⟩
    unfold encode at h
    by_cases hcount : 65535 < file.files.length
    · rw [if_pos hcount] at h
      cases h
    rw [if_neg hcount] at h
    obtain ⟨rawData, hloop, h⟩ := bind_eq_ok h
    by_cases hdata : 255 < file.userDefinedData.length
    · rw [if_pos hdata] at h
      cases h
    -- encode came to the second check, so each filename has been written
    have hwritten := (appendEach_ok_iff _).mp ⟨rawData, hloop⟩
    simp only [stringEncode_ok_iff] at hwritten
    exact ⟨⟨Nat.not_lt.mp hcount, hwritten⟩, Nat.not_lt.mp hdata⟩
  · exact fun h => ⟨_, encode_ok raw h⟩

theorem decodeFile_written {filename : Text} (h : TextFits filename)
    (o : DownloadOperationRequestFile) (rest : Bytes) :
    decodeFile raw o (stringBytes raw filename ++ rest) =
      .done () { o with files := o.files ++ [filename] } rest := by
  simp [decodeFile, read_string_written raw h]

theorem decode_encode {file : DownloadOperationRequestFile}
    (hversion : file.protocolVersion.Supported) (hnul : file.NulFree) {bytes : Bytes}
    (h : encode raw file = .ok bytes) : decode raw {} bytes = .done () file [] := by
  have hfits := (encode_ok_iff raw file).mp ⟨bytes, h⟩
  rw [encode_ok raw hfits] at h
  cases h
  have hlen := filenames_length raw hfits.files
  have hdata := hfits.userDefinedData
  -- the length byte holds the length of data that fit
  have hsize : file.userDefinedData.length.toUInt8.toNat = file.userDefinedData.length := by
    change (UInt8.ofNat _).toNat = _
    rw [UInt8.toNat_ofNat', Nat.mod_eq_of_lt (by omega)]
  -- the loop reads the filenames and leaves the length and the data behind them
  have hloop := times_appended (fun o : DownloadOperationRequestFile => o.files)
    (fun files o => { o with files := files }) (fun _ _ => rfl) (fun _ _ _ => rfl) (fun _ => rfl)
    (fun filename hfile => decodeFile_written raw
      ⟨hfits.files.filename filename hfile, hnul filename hfile⟩)
    { protocolVersion := file.protocolVersion }
    (raw.uint8.encode file.userDefinedData.length.toUInt8 ++ file.userDefinedData)
  have hend : (require (fun remainingData => remainingData.length == file.userDefinedData.length)
      ⟨"user defined data length"⟩ : FileDecoder DownloadOperationRequestFile Unit)
        { protocolVersion := file.protocolVersion, files := file.files } file.userDefinedData =
      .done () { protocolVersion := file.protocolVersion, files := file.files }
        file.userDefinedData :=
    require_pos (by simp) _ _
  unfold decode
  rw [bind_run, decodeStart_written raw _ _ hversion _ (by
    simp only [List.length_append, WordCodec.length_encode, minimumSize, headerSize]; omega) (by
    simp only [List.length_append, WordCodec.length_encode]; omega)]
  simp [toNat_toUInt16 hfits.files.count, hloop, hsize, hend]

def fileLayout : Layout := .field (stringField raw) .nil

/-- The length of the user defined data comes last and is read unguarded. -/
def layout : Layout :=
  .counted 2 (fun w => (raw.uint16.decode w).toNat) (fileLayout raw) (.field (.word 1) .nil)

theorem decodeFile_follows : Follows (decodeFile raw) (fileLayout raw) := by
  intro β k K hk
  simp only [decodeFile, bind_assoc]
  apply Cuts.field (stringDecode_reads raw)
  intro filename
  exact Cuts.update_bind (hk ())

theorem cuts_decode : Cuts (decode raw) (Truncated raw minimumSize (layout raw)) := by
  unfold decode
  -- the minimum size covers the two lengths only when there are no filenames
  apply cuts_decodeStart
  apply Cuts.times_counted (decodeFile_follows raw)
  apply Cuts.field raw.uint8.read_reads
  intro userDefinedDataLength
  exact cuts_require_unread _ _ _

/-- The whole file: as many bytes as the length of the user defined data says come last. -/
def wholeLayout : Layout :=
  .counted 2 (fun w => (raw.uint16.decode w).toNat) (fileLayout raw) <|
  .counted 1 (fun w => (raw.uint8.decode w).toNat) .byte .nil

theorem decode_reads : ReadsFile raw minimumSize (wholeLayout raw) (decode raw) := by
  intro α k K hk
  simp only [decode, bind_assoc]
  apply cuts_decodeStart
  apply Cuts.times_counted (decodeFile_follows raw)
  exact Cuts.counted_unread hk

end DownloadOperationRequestFile

/-! ## List file -/

structure DownloadOperationListFile extends ProtocolFile where
  files : List DownloadFileInformation := []
  deriving DecidableEq, Repr

namespace DownloadOperationListFile

def minimumSize : Nat := headerSize + 2

def encodeFile (downloadInfo : DownloadFileInformation) : Except Arinc615aException Bytes := do
  let filename ← stringEncode raw downloadInfo.filename
  let description ← stringEncode raw downloadInfo.description
  pure (filename ++ description)

def encode (file : DownloadOperationListFile) : Except Arinc615aException Bytes :=
  encodeList raw "More files than allowed" (encodeFile raw) file.protocolVersion file.files

def decodeFile : FileDecoder DownloadOperationListFile Unit := do
  let filename ← read (stringDecode raw)
  let description ← read (stringDecode raw)
  update fun file => { file with files := file.files ++ [{ filename, description }] }

/-- A file that is too small is reported with the text of the header check. -/
def decode : FileDecoder DownloadOperationListFile Unit :=
  decodeList raw minimumSize "Data packet to small" "More data then expected"
    (fun protocolVersion file => { file with protocolVersion := protocolVersion })
    (decodeFile raw)

structure Fits (file : DownloadOperationListFile) : Prop where
  count : file.files.length ≤ 65535
  filename : ∀ info ∈ file.files, info.filename.length ≤ 253
  description : ∀ info ∈ file.files, info.description.length ≤ 253

def NulFree (file : DownloadOperationListFile) : Prop :=
  ∀ info ∈ file.files, 0 ∉ info.filename ∧ 0 ∉ info.description

def fileBytes (info : DownloadFileInformation) : Bytes :=
  stringBytes raw info.filename ++ stringBytes raw info.description

theorem encodeFile_eq (info : DownloadFileInformation) :
    encodeFile raw info = appendEach (stringEncode raw) [] [info.filename, info.description] := by
  simp only [encodeFile, appendEach, List.foldlM_cons, List.foldlM_nil, bind_assoc, pure_bind,
    List.nil_append]

theorem encodeFile_ok_iff (info : DownloadFileInformation) :
    (∃ w, encodeFile raw info = .ok w) ↔
      info.filename.length ≤ 253 ∧ info.description.length ≤ 253 := by
  rw [encodeFile_eq, appendEach_stringEncode_ok_iff]
  simp

theorem encodeFile_ok {info : DownloadFileInformation} (hfilename : info.filename.length ≤ 253)
    (hdescription : info.description.length ≤ 253) :
    encodeFile raw info = .ok (fileBytes raw info) := by
  rw [encodeFile_eq, appendEach_stringEncode_ok raw (by simp [hfilename, hdescription])]
  simp [fileBytes]

theorem length_fileBytes {info : DownloadFileInformation} (hfilename : info.filename.length ≤ 253)
    (hdescription : info.description.length ≤ 253) : (fileBytes raw info).length ≤ 510 := by
  have h1 := stringSize_le hfilename
  have h2 := stringSize_le hdescription
  rw [fileBytes, List.length_append, length_stringBytes, length_stringBytes]
  omega

theorem encode_ok_iff (file : DownloadOperationListFile) :
    (∃ bytes, encode raw file = .ok bytes) ↔ file.Fits := by
  unfold encode
  rw [encodeList_ok_iff]
  simp only [encodeFile_ok_iff]
  constructor
  · rintro ⟨hcount, hinfo⟩
    exact ⟨hcount, fun info h => (hinfo info h).1, fun info h => (hinfo info h).2⟩
  · rintro ⟨hcount, hfilename, hdescription⟩
    exact ⟨hcount, fun info h => ⟨hfilename info h, hdescription info h⟩⟩

theorem decodeFile_written {info : DownloadFileInformation} (hfilename : TextFits info.filename)
    (hdescription : TextFits info.description) (o : DownloadOperationListFile) (rest : Bytes) :
    decodeFile raw o (fileBytes raw info ++ rest) =
      .done () { o with files := o.files ++ [info] } rest := by
  simp [decodeFile, fileBytes, read_string_written raw hfilename,
    read_string_written raw hdescription]

theorem decode_encode {file : DownloadOperationListFile}
    (hversion : file.protocolVersion.Supported) (hnul : file.NulFree) {bytes : Bytes}
    (h : encode raw file = .ok bytes) : decode raw {} bytes = .done () file [] := by
  have hfits := (encode_ok_iff raw file).mp ⟨bytes, h⟩
  have hwritten : ∀ info ∈ file.files, encodeFile raw info = .ok (fileBytes raw info) :=
    fun info hinfo => encodeFile_ok raw (hfits.filename info hinfo) (hfits.description info hinfo)
  have hsize := length_listBytes_le raw hfits.count fun info hinfo =>
    length_fileBytes raw (hfits.filename info hinfo) (hfits.description info hinfo)
  unfold encode at h
  rw [encodeList_ok raw hfits.count hwritten] at h
  cases h
  exact decodeList_written raw _ _ (fun o : DownloadOperationListFile => o.files)
    (fun files o => { o with files := files }) (fun _ _ => rfl) (fun _ _ _ => rfl)
    (fun _ => rfl) hversion hfits.count (fun info hinfo => decodeFile_written raw
      ⟨hfits.filename info hinfo, (hnul info hinfo).1⟩
      ⟨hfits.description info hinfo, (hnul info hinfo).2⟩)
    (minimum_le_listBytes raw _ _) (Nat.lt_of_le_of_lt hsize (by decide)) {}

def fileLayout : Layout := .field (stringField raw) <| .field (stringField raw) .nil

def layout : Layout := listLayout raw (fileLayout raw)

theorem decodeFile_follows : Follows (decodeFile raw) (fileLayout raw) := by
  intro β k K hk
  simp only [decodeFile, bind_assoc]
  apply Cuts.field (stringDecode_reads raw)
  intro filename
  apply Cuts.field (stringDecode_reads raw)
  intro description
  exact Cuts.update_bind (hk ())

theorem decode_reads : ReadsFile raw minimumSize (layout raw) (decode raw) :=
  decodeList_reads raw (decodeFile_follows raw)

theorem cuts_decode : Cuts (decode raw) (Truncated raw minimumSize (layout raw)) :=
  (decode_reads raw).cuts

theorem layout_covered : (layout raw).CoveredBy (minimumSize - headerSize) :=
  have hguarded : (fileLayout raw).Guarded := ⟨rfl, rfl, trivial⟩
  listLayout_covered raw hguarded (Nat.le_refl _)

end DownloadOperationListFile

/-! ## Answer file -/

structure DownloadOperationAnswerFile extends ProtocolFile where
  files : List Text := []
  deriving DecidableEq, Repr

namespace DownloadOperationAnswerFile

def minimumSize : Nat := headerSize + 2

def encode (file : DownloadOperationAnswerFile) : Except Arinc615aException Bytes :=
  encodeList raw "More files than allowed" (stringEncode raw) file.protocolVersion file.files

def decodeFile : FileDecoder DownloadOperationAnswerFile Unit := do
  let filename ← read (stringDecode raw)
  update fun file => { file with files := file.files ++ [filename] }

def decode : FileDecoder DownloadOperationAnswerFile Unit :=
  decodeList raw minimumSize "Protocol file to small" "More data then expected"
    (fun protocolVersion file => { file with protocolVersion := protocolVersion })
    (decodeFile raw)

def Fits (file : DownloadOperationAnswerFile) : Prop := FilenamesFit file.files

def NulFree (file : DownloadOperationAnswerFile) : Prop := ∀ filename ∈ file.files, 0 ∉ filename

theorem encode_ok_iff (file : DownloadOperationAnswerFile) :
    (∃ bytes, encode raw file = .ok bytes) ↔ file.Fits := by
  unfold encode
  rw [encodeList_ok_iff]
  simp only [stringEncode_ok_iff]
  exact ⟨fun ⟨hcount, hfilename⟩ => ⟨hcount, hfilename⟩,
    fun ⟨hcount, hfilename⟩ => ⟨hcount, hfilename⟩⟩

theorem decodeFile_written {filename : Text} (h : TextFits filename)
    (o : DownloadOperationAnswerFile) (rest : Bytes) :
    decodeFile raw o (stringBytes raw filename ++ rest) =
      .done () { o with files := o.files ++ [filename] } rest := by
  simp [decodeFile, read_string_written raw h]

theorem decode_encode {file : DownloadOperationAnswerFile}
    (hversion : file.protocolVersion.Supported) (hnul : file.NulFree) {bytes : Bytes}
    (h : encode raw file = .ok bytes) : decode raw {} bytes = .done () file [] := by
  have hfits := (encode_ok_iff raw file).mp ⟨bytes, h⟩
  have hwritten : ∀ filename ∈ file.files,
      stringEncode raw filename = .ok (stringBytes raw filename) :=
    fun filename hfile => stringEncode_short raw (hfits.filename filename hfile)
  have hfilename : ∀ filename ∈ file.files, (stringBytes raw filename).length ≤ 255 := by
    intro filename hfile
    rw [length_stringBytes]
    exact stringSize_le (hfits.filename filename hfile)
  have hsize := length_listBytes_le raw hfits.count hfilename
  unfold encode at h
  rw [encodeList_ok raw hfits.count hwritten] at h
  cases h
  exact decodeList_written raw _ _ (fun o : DownloadOperationAnswerFile => o.files)
    (fun files o => { o with files := files }) (fun _ _ => rfl) (fun _ _ _ => rfl)
    (fun _ => rfl) hversion hfits.count (fun filename hfile => decodeFile_written raw
      ⟨hfits.filename filename hfile, hnul filename hfile⟩)
    (minimum_le_listBytes raw _ _) (Nat.lt_of_le_of_lt hsize (by decide)) {}

def fileLayout : Layout := .field (stringField raw) .nil

def layout : Layout := listLayout raw (fileLayout raw)

theorem decodeFile_follows : Follows (decodeFile raw) (fileLayout raw) := by
  intro β k K hk
  simp only [decodeFile, bind_assoc]
  apply Cuts.field (stringDecode_reads raw)
  intro filename
  exact Cuts.update_bind (hk ())

theorem decode_reads : ReadsFile raw minimumSize (layout raw) (decode raw) :=
  decodeList_reads raw (decodeFile_follows raw)

theorem cuts_decode : Cuts (decode raw) (Truncated raw minimumSize (layout raw)) :=
  (decode_reads raw).cuts

theorem layout_covered : (layout raw).CoveredBy (minimumSize - headerSize) :=
  have hguarded : (fileLayout raw).Guarded := ⟨rfl, trivial⟩
  listLayout_covered raw hguarded (Nat.le_refl _)

end DownloadOperationAnswerFile

/-! ## Status file -/

structure DownloadOperationStatusFile extends ProtocolFile where
  status : DownloadStatus := {}
  deriving DecidableEq

namespace DownloadOperationStatusFile

/-- Changes the part of the status that all operations have. -/
def modifyStatus (f : Status → Status) (file : DownloadOperationStatusFile) :
    DownloadOperationStatusFile :=
  { file with status := { file.status with toStatus := f file.status.toStatus } }

def encodeFile (file : DownloadFileStatus) : Except Arinc615aException Bytes := do
  let rawFilename ← stringEncode raw file.filename
  let rawStatusDescription ← stringEncode raw file.description
  pure (rawFilename ++ raw.uint16.encode file.code.toUnderlying ++ rawStatusDescription)

def encode (file : DownloadOperationStatusFile) : Except Arinc615aException Bytes :=
  encodeStatusList raw "More files than allowed" (encodeFile raw) file.protocolVersion
    file.status.toStatus file.status.listRatio file.status.files

def decodeFile : FileDecoder DownloadOperationStatusFile DownloadFileStatus := do
  let filename ← read (stringDecode raw)
  let intFileStatusCode ← read raw.uint16.read
  let fileStatusDescription ← read (stringDecode raw)
  -- as in the upload status: the check comes after the description
  let code ← check (statusCode intFileStatusCode)
  pure { filename, code, description := fileStatusDescription }

def decode : FileDecoder DownloadOperationStatusFile Unit :=
  decodeStatusList raw
    (fun protocolVersion file => { file with protocolVersion := protocolVersion })
    modifyStatus
    (fun listRatio file => { file with status := { file.status with listRatio := listRatio } })
    (fun files file => { file with status := { file.status with files := files } })
    (decodeFile raw)

structure FileFits (file : DownloadFileStatus) : Prop where
  filename : TextFits file.filename
  code : file.code.Known
  description : TextFits file.description

structure WellFormed (file : DownloadOperationStatusFile) : Prop where
  version : file.protocolVersion.Supported
  code : file.status.code.Known
  description : TextFits file.status.description
  count : file.status.files.length ≤ 65535
  files : ∀ f ∈ file.status.files, FileFits f

def fileBytes (file : DownloadFileStatus) : Bytes :=
  stringBytes raw file.filename ++
    (raw.uint16.encode file.code.toUnderlying ++ stringBytes raw file.description)

theorem encodeFile_ok {file : DownloadFileStatus} (h : FileFits file) :
    encodeFile raw file = .ok (fileBytes raw file) := by
  unfold encodeFile fileBytes
  rw [stringEncode_short raw h.filename.1, stringEncode_short raw h.description.1]
  simp only [bind, Except.bind, pure, Except.pure, List.append_assoc]

theorem length_fileBytes {file : DownloadFileStatus} (h : FileFits file) :
    (fileBytes raw file).length ≤ 512 := by
  have h1 := stringSize_le h.filename.1
  have h2 := stringSize_le h.description.1
  simp only [fileBytes, List.length_append, length_stringBytes, WordCodec.length_encode]
  omega

theorem decodeFile_written {file : DownloadFileStatus} (h : FileFits file)
    (o : DownloadOperationStatusFile) (rest : Bytes) :
    decodeFile raw o (fileBytes raw file ++ rest) = .done file o rest := by
  simp only [decodeFile, fileBytes, List.append_assoc, bind_run, pure_run, Outcome.andThen_done,
    read_string_written raw h.filename, read_word_written, read_string_written raw h.description,
    statusCode_toUnderlying h.code, check_ok]

theorem decode_encode {file : DownloadOperationStatusFile} (h : file.WellFormed) :
    ∃ bytes, encode raw file = .ok bytes ∧ decode raw {} bytes = .done () file [] := by
  have hwritten : ∀ f ∈ file.status.files, encodeFile raw f = .ok (fileBytes raw f) :=
    fun f hf => encodeFile_ok raw (h.files f hf)
  exact ⟨_, encodeStatusList_ok raw h.description.1 h.count hwritten,
    decodeStatusList_written raw h.version h.code h.description h.count
      (fun f hf => decodeFile_written raw (h.files f hf))
      (fun f hf => length_fileBytes raw (h.files f hf)) (by decide) {}⟩

def fileLayout : Layout :=
  .field (stringField raw) <|
  .field (.checkedWord raw.uint16 fun n => ∃ code, statusCode n = .ok code) <|
  .field (stringField raw) .nil

def layout : Layout := statusListLayout raw (fileLayout raw)

theorem decodeFile_follows : Follows (decodeFile raw) (fileLayout raw) := by
  intro β k K hk
  simp only [decodeFile, bind_assoc, pure_bind]
  apply Cuts.field (stringDecode_reads raw)
  intro filename
  apply Cuts.checked_late (stringDecode_reads raw) rfl
  intro fileStatusDescription code
  exact hk _

theorem decode_reads : ReadsFile raw (headerSize + 9) (layout raw) (decode raw) :=
  decodeStatusList_reads raw (decodeFile_follows raw)

theorem cuts_decode : Cuts (decode raw) (Truncated raw (headerSize + 9) (layout raw)) :=
  (decode_reads raw).cuts

end DownloadOperationStatusFile

end Arinc615a.Files
