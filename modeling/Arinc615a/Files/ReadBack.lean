import Arinc615a.Files.Accepted
import Arinc615a.Files.Header
import Arinc615a.Files.Strings
import Arinc615a.Reasoning.Returns

/-!
# What is read back from any file that is written

An encoder writes more than its decoder takes: texts with a NUL, codes that are not of the protocol
and versions that are not supported.  The files are read back exactly without the latter two, and
then with every text cut at its first NUL.
-/

open Reasoning Reasoning.Decoder

namespace Arinc615a

/-- What `std::string` makes of the characters up to the first NUL. -/
def cutAtNul (s : Text) : Text := s.takeWhile (· ≠ 0)

theorem cutAtNul_eq_self {s : Text} (h : 0 ∉ s) : cutAtNul s = s := by
  refine List.takeWhile_eq_self_iff.mpr fun c hc => ?_
  simpa using fun hzero : c = 0 => h (hzero ▸ hc)

namespace Information

def InitializationResponse.cutAtNul (response : InitializationResponse) :
    InitializationResponse :=
  { response with description := Arinc615a.cutAtNul response.description }

def Status.cutAtNul (status : Status) : Status :=
  { status with description := Arinc615a.cutAtNul status.description }

def UploadLoad.cutAtNul (load : UploadLoad) : UploadLoad where
  headerFilename := Arinc615a.cutAtNul load.headerFilename
  partNumber := Arinc615a.cutAtNul load.partNumber

def UploadLoadStatus.cutAtNul (load : UploadLoadStatus) : UploadLoadStatus :=
  { load with
    headerFilename := Arinc615a.cutAtNul load.headerFilename
    partNumber := Arinc615a.cutAtNul load.partNumber
    description := Arinc615a.cutAtNul load.description }

def UploadStatus.cutAtNul (status : UploadStatus) : UploadStatus :=
  { status with
    toStatus := status.toStatus.cutAtNul
    loads := status.loads.map UploadLoadStatus.cutAtNul }

def DownloadFileInformation.cutAtNul (file : DownloadFileInformation) :
    DownloadFileInformation where
  filename := Arinc615a.cutAtNul file.filename
  description := Arinc615a.cutAtNul file.description

def DownloadFileStatus.cutAtNul (file : DownloadFileStatus) : DownloadFileStatus :=
  { file with
    filename := Arinc615a.cutAtNul file.filename
    description := Arinc615a.cutAtNul file.description }

def DownloadStatus.cutAtNul (status : DownloadStatus) : DownloadStatus :=
  { status with
    toStatus := status.toStatus.cutAtNul
    files := status.files.map DownloadFileStatus.cutAtNul }

def PartNumber.cutAtNul (partNumber : PartNumber) : PartNumber where
  partNumber := Arinc615a.cutAtNul partNumber.partNumber
  amendment := Arinc615a.cutAtNul partNumber.amendment
  partDesignation := Arinc615a.cutAtNul partNumber.partDesignation

def TargetHardware.cutAtNul (thw : TargetHardware) : TargetHardware where
  literalName := Arinc615a.cutAtNul thw.literalName
  serialNumber := Arinc615a.cutAtNul thw.serialNumber
  partNumbers := thw.partNumbers.map PartNumber.cutAtNul

end Information

namespace Files

open Information

variable (raw : RawDataCodec)

/-! ## Fields -/

section

variable {σ α : Type} {rest w : Bytes} {ok : Prop} {a : α} {o o' : σ}

theorem returns_string {s : Text} (hlen : s.length ≤ 253) {k : Text → FileDecoder σ α}
    (h : Returns rest (k (cutAtNul s)) w ok o a o') :
    Returns rest (read (stringDecode raw) >>= k) (stringBytes raw s ++ w) ok o a o' :=
  .read_bind (stringDecode_stringEncode raw (stringEncode_short raw hlen) _) h

/-- The same for a string at the end. -/
theorem returns_string_last {s : Text} (hlen : s.length ≤ 253) {k : Text → FileDecoder σ α}
    (h : Returns rest (k (cutAtNul s)) [] ok o a o') :
    Returns rest (read (stringDecode raw) >>= k) (stringBytes raw s) ok o a o' := by
  have hstring := returns_string raw hlen h
  rwa [List.append_nil] at hstring

theorem returns_ratio (ratio : Ratio) {k : Ratio → FileDecoder σ α}
    (h : Returns rest (k ratio) w ok o a o') :
    Returns rest (read ratioDecode >>= k) (ratioEncode ratio ++ w) ok o a o' :=
  .read_bind (ratioDecode_ratioEncode ratio _) h

theorem statusCode_eq_ok {code code' : StatusCode} :
    statusCode code.toUnderlying = .ok code' ↔ code.Known ∧ code' = code := by
  by_cases hknown : code.Known
  · rw [statusCode_toUnderlying hknown, Except.ok.injEq]
    exact ⟨fun h => ⟨hknown, h.symm⟩, fun h => h.2.symm⟩
  · refine iff_of_false (fun h => ?_) fun h => hknown h.1
    cases code with
    | operationDeferred | invalid => cases h
    | _ => exact hknown (by decide)

theorem operationAcceptanceStatusCode_eq_ok {code code' : OperationAcceptanceStatusCode} :
    operationAcceptanceStatusCode code.toUnderlying = .ok code' ↔
      code ≠ .operationDeferred ∧ code' = code := by
  by_cases hdeferred : code = .operationDeferred
  · subst hdeferred
    exact iff_of_false (by intro h; cases h) fun h => h.1 rfl
  · rw [operationAcceptanceStatusCode_toUnderlying hdeferred, Except.ok.injEq]
    exact ⟨fun h => ⟨hdeferred, h.symm⟩, fun h => h.2.symm⟩

theorem returns_decodeEnd (moreData : String) :
    Returns [] (decodeEnd moreData : FileDecoder σ Unit) [] True o () o :=
  .require rfl

/-- A header of the written size that the decoder takes. -/
def HeaderFits (minimumSize : Nat) (version : Arinc615aVersion) (size : Nat) : Prop :=
  version.Supported ∧ minimumSize ≤ size ∧ size < 2 ^ 32

/-- A decoder takes what is written exactly if it takes the header and the fields behind it. -/
theorem written_done_iff {minimumSize : Nat} {tooSmall : String}
    {setVersion : Arinc615aVersion → σ → σ} {version : Arinc615aVersion} {body : Bytes}
    {fields : Unit → FileDecoder σ Unit} {object : σ} {unread : Bytes}
    (h : Returns [] (fields ()) body ok (setVersion version o) () o') :
    (decodeStart raw minimumSize tooSmall setVersion >>= fields) o
        (insertHeader raw version (headerSpace ++ body)) = .done () object unread ↔
      (HeaderFits minimumSize version (6 + body.length) ∧ ok) ∧ object = o' ∧ unread = [] := by
  by_cases hheader : HeaderFits minimumSize version (6 + body.length)
  · obtain ⟨hversion, hmin, hsize⟩ := hheader
    have hfields := h () object unread
    rw [List.append_nil] at hfields
    rw [bind_run, decodeStart_written raw tooSmall setVersion hversion o hmin hsize,
      Outcome.andThen_done, hfields]
    exact ⟨fun ⟨hok, _, ho, hrest⟩ => ⟨⟨⟨hversion, hmin, hsize⟩, hok⟩, ho, hrest⟩,
      fun ⟨⟨_, hok⟩, ho, hrest⟩ => ⟨hok, rfl, ho, hrest⟩⟩
  · refine iff_of_false (fun hdone => hheader ?_) fun hdone => hheader hdone.1.1
    unfold decodeStart at hdone
    simp only [bind_assoc] at hdone
    obtain ⟨hmin, hdone⟩ := require_bind_done hdone
    obtain ⟨version', rest', hread, -⟩ := read_bind_done hdone
    obtain ⟨-, -, hsize⟩ := decodeHeader_done raw hread
    rw [length_written] at hmin hsize
    -- the version that is read is the one that is written
    have hversion := (HasHeader.decodeHeader_iff ⟨body, rfl, hsize⟩).mp ⟨rest', hread⟩
    exact ⟨hversion.2, of_decide_eq_true hmin, hsize⟩

end

/-! ## Lists -/

section

variable {σ β γ : Type} {entries : List γ} {entryBytes : γ → Bytes} {fine : γ → Prop}

/-- The whole of a file that ends in a list. -/
theorem decodeList_done_iff {minimumSize : Nat} {tooSmall moreData : String}
    {setVersion : Arinc615aVersion → σ → σ} {decodeEntry : FileDecoder σ Unit} {value : γ → β}
    {version : Arinc615aVersion} (list : σ → List β) (put : List β → σ → σ)
    (list_put : ∀ bs o, list (put bs o) = bs)
    (put_put : ∀ bs cs o, put bs (put cs o) = put bs o) (put_list : ∀ o, put (list o) o = o)
    (hcount : entries.length ≤ 65535)
    (hentry : ∀ c ∈ entries, ∀ o rest, Returns rest decodeEntry (entryBytes c) (fine c) o ()
      (put (list o ++ [value c]) o)) {o object : σ} {unread : Bytes} :
    decodeList raw minimumSize tooSmall moreData setVersion decodeEntry o
        (insertHeader raw version (headerSpace ++ listBytes raw entryBytes entries)) =
      .done () object unread ↔
      (HeaderFits minimumSize version (6 + (listBytes raw entryBytes entries).length) ∧
        ∀ c ∈ entries, fine c) ∧
      object = put (list (setVersion version o) ++ entries.map value) (setVersion version o) ∧
      unread = [] := by
  refine written_done_iff raw (.word_bind raw.uint16 _ ?_)
  rw [toNat_toUInt16 hcount]
  have hloop := Returns.bind (k := fun _ => decodeEnd moreData)
    (Returns.times_appended (o := setVersion version o) list put list_put put_put put_list hentry)
    (returns_decodeEnd moreData)
  rwa [List.append_nil, and_true] at hloop

theorem decodeStatusList_done_iff {setVersion : Arinc615aVersion → σ → σ}
    {modifyStatus : (Status → Status) → σ → σ} {setListRatio : Ratio → σ → σ}
    {setEntries : List β → σ → σ} {decodeEntry : FileDecoder σ β} {value : γ → β}
    {version : Arinc615aVersion} {status : Status} {listRatio : Ratio}
    (hdescription : status.description.length ≤ 253) (hcount : entries.length ≤ 65535)
    (hentry : ∀ c ∈ entries, ∀ o rest,
      Returns rest decodeEntry (entryBytes c) (fine c) o (value c) o)
    {o object : σ} {unread : Bytes} :
    decodeStatusList raw setVersion modifyStatus setListRatio setEntries decodeEntry o
        (insertHeader raw version
          (headerSpace ++ statusListBytes raw entryBytes status listRatio entries)) =
      .done () object unread ↔
      (HeaderFits (headerSize + 9) version
          (6 + (statusListBytes raw entryBytes status listRatio entries).length) ∧
        status.code.Known ∧ ∀ c ∈ entries, fine c) ∧
      object = setEntries (entries.map value) (setListRatio listRatio
        (modifyStatus (fun s => { s with estimatedTime := status.estimatedTime })
        (modifyStatus (fun s => { s with exceptionTimer := status.exceptionTimer })
        (modifyStatus (fun s => { s with counter := status.counter })
        (modifyStatus (fun s => { s with description := cutAtNul status.description })
        (modifyStatus (fun s => s.setCode status.code) (setVersion version o))))))) ∧
      unread = [] := by
  -- the rules follow decode line by line
  refine written_done_iff raw (.word_bind raw.uint16 _ ?_)
  refine .check_bind (fun _ => statusCode_eq_ok) (.update_bind ?_)
  refine returns_string raw hdescription (.update_bind ?_)
  refine .word_bind raw.uint16 _ (.update_bind ?_)
  refine .word_bind raw.uint16 _ (.update_bind ?_)
  refine .word_bind raw.int16 _ (.update_bind ?_)
  refine returns_ratio listRatio (.update_bind ?_)
  refine .word_bind raw.uint16 _ ?_
  rw [toNat_toUInt16 hcount]
  have hloop := fun o => Returns.bind (k := fun entries =>
      update (setEntries entries) >>= fun _ => decodeEnd "More data then expected")
    (Returns.collect (fun c hc rest => hentry c hc o rest))
    (.update_bind (returns_decodeEnd "More data then expected"))
  simp only [List.append_nil, and_true] at hloop
  exact hloop _

end

/-! ## The nine files -/

namespace InitializationFile

def cutAtNul (file : InitializationFile) : InitializationFile :=
  { file with response := file.response.cutAtNul }

def Readable (file : InitializationFile) : Prop :=
  file.protocolVersion.Supported ∧ file.response.code ≠ .operationDeferred

theorem decode_encode_done_iff {file object : InitializationFile} {bytes unread : Bytes}
    (h : encode raw file = .ok bytes) :
    decode raw {} bytes = .done () object unread ↔
      file.Readable ∧ object = file.cutAtNul ∧ unread = [] := by
  have hlen := (encode_ok_iff raw file).mp ⟨bytes, h⟩
  have hpos := stringSize_pos file.response.description
  have hle := stringSize_le hlen
  let body := raw.uint16.encode file.response.code.toUnderlying ++
    stringBytes raw file.response.description
  have hwritten : bytes = insertHeader raw file.protocolVersion (headerSpace ++ body) := by
    unfold encode at h
    rw [stringEncode_short raw hlen] at h
    cases h
    simp only [List.append_assoc, body]
  have hsize : 6 + body.length = 8 + stringSize file.response.description := by
    simp only [body, List.length_append, WordCodec.length_encode, length_stringBytes]
    omega
  have hdone : decode raw {} bytes = .done () object unread ↔
      (HeaderFits minFileSize file.protocolVersion (6 + body.length) ∧
        file.response.code ≠ .operationDeferred ∧ True) ∧
      object = file.cutAtNul ∧ unread = [] := by
    rw [hwritten]
    refine written_done_iff raw (.word_bind raw.uint16 _ ?_)
    refine .check_bind (fun _ => operationAcceptanceStatusCode_eq_ok) (.update_bind ?_)
    refine returns_string_last raw hlen (.update_bind ?_)
    exact returns_decodeEnd _
  rw [hdone, hsize, and_true]
  refine and_congr_left' (and_congr_left' (and_iff_left ⟨?_, ?_⟩))
  · rw [minFileSize, headerSize]
    omega
  · omega

end InitializationFile

namespace InformationOperationStatusFile

def cutAtNul (file : InformationOperationStatusFile) : InformationOperationStatusFile :=
  { file with status := file.status.cutAtNul }

def Readable (file : InformationOperationStatusFile) : Prop :=
  file.protocolVersion.Supported ∧ file.status.code.Known

theorem decode_encode_done_iff {file object : InformationOperationStatusFile}
    {bytes unread : Bytes} (h : encode raw file = .ok bytes) :
    decode raw {} bytes = .done () object unread ↔
      file.Readable ∧ object = file.cutAtNul ∧ unread = [] := by
  have hlen := (encode_ok_iff raw file).mp ⟨bytes, h⟩
  have hpos := stringSize_pos file.status.description
  have hle := stringSize_le hlen
  let body := raw.uint16.encode file.status.counter ++
    (raw.uint16.encode file.status.code.toUnderlying ++
      (raw.uint16.encode file.status.exceptionTimer ++
        (raw.int16.encode file.status.estimatedTime ++ stringBytes raw file.status.description)))
  have hwritten : bytes = insertHeader raw file.protocolVersion (headerSpace ++ body) := by
    unfold encode at h
    rw [stringEncode_short raw hlen] at h
    cases h
    simp only [List.append_assoc, body]
  have hsize : 6 + body.length = 14 + stringSize file.status.description := by
    simp only [body, List.length_append, WordCodec.length_encode, length_stringBytes]
    omega
  have hdone : decode raw {} bytes = .done () object unread ↔
      (HeaderFits (headerSize + 9) file.protocolVersion (6 + body.length) ∧
        file.status.code.Known ∧ True) ∧
      object = file.cutAtNul ∧ unread = [] := by
    rw [hwritten]
    refine written_done_iff raw (.word_bind raw.uint16 _ (.update_bind ?_))
    refine .word_bind raw.uint16 _ ?_
    refine .check_bind (fun _ => statusCode_eq_ok) (.update_bind ?_)
    refine .word_bind raw.uint16 _ (.update_bind ?_)
    refine .word_bind raw.int16 _ (.update_bind ?_)
    refine returns_string_last raw hlen (.update_bind ?_)
    exact returns_decodeEnd _
  rw [hdone, hsize, and_true]
  refine and_congr_left' (and_congr_left' (and_iff_left ⟨?_, ?_⟩))
  · rw [headerSize]
    omega
  · omega

end InformationOperationStatusFile

namespace UploadOperationRequestFile

def cutAtNul (file : UploadOperationRequestFile) : UploadOperationRequestFile :=
  { file with loads := file.loads.map UploadLoad.cutAtNul }

theorem returns_decodeLoad {load : UploadLoad} (hfilename : load.headerFilename.length ≤ 253)
    (hpartNumber : load.partNumber.length ≤ 253) (o : UploadOperationRequestFile) (rest : Bytes) :
    Returns rest (decodeLoad raw) (loadBytes raw load) True o ()
      { o with loads := o.loads ++ [load.cutAtNul] } := by
  refine returns_string raw hfilename ?_
  refine returns_string_last raw hpartNumber ?_
  exact .update _

theorem decode_encode_done_iff {file object : UploadOperationRequestFile} {bytes unread : Bytes}
    (h : encode raw file = .ok bytes) :
    decode raw {} bytes = .done () object unread ↔
      file.protocolVersion.Supported ∧ object = file.cutAtNul ∧ unread = [] := by
  have hfits := (encode_ok_iff raw file).mp ⟨bytes, h⟩
  have hwritten : ∀ load ∈ file.loads, encodeLoad raw load = .ok (loadBytes raw load) :=
    fun load hload =>
      encodeLoad_ok raw (hfits.headerFilename load hload) (hfits.partNumber load hload)
  have hsize := length_listBytes_le raw hfits.count fun load hload =>
    length_loadBytes raw (hfits.headerFilename load hload) (hfits.partNumber load hload)
  have hmin := minimum_le_listBytes raw (loadBytes raw) file.loads
  unfold encode at h
  rw [encodeList_ok raw hfits.count hwritten] at h
  cases h
  rw [decode, decodeList_done_iff raw (fun o : UploadOperationRequestFile => o.loads)
    (fun loads o => { o with loads := loads }) (fun _ _ => rfl) (fun _ _ _ => rfl) (fun _ => rfl)
    hfits.count (fun load hload => returns_decodeLoad raw (hfits.headerFilename load hload)
      (hfits.partNumber load hload))]
  exact and_congr_left' ⟨fun h => h.1.1,
    fun hversion => ⟨⟨hversion, hmin, Nat.lt_of_le_of_lt hsize (by decide)⟩, fun _ _ => trivial⟩⟩

end UploadOperationRequestFile

namespace DownloadOperationListFile

def cutAtNul (file : DownloadOperationListFile) : DownloadOperationListFile :=
  { file with files := file.files.map DownloadFileInformation.cutAtNul }

theorem returns_decodeFile {info : DownloadFileInformation} (hfilename : info.filename.length ≤ 253)
    (hdescription : info.description.length ≤ 253) (o : DownloadOperationListFile)
    (rest : Bytes) :
    Returns rest (decodeFile raw) (fileBytes raw info) True o ()
      { o with files := o.files ++ [info.cutAtNul] } := by
  refine returns_string raw hfilename ?_
  refine returns_string_last raw hdescription ?_
  exact .update _

theorem decode_encode_done_iff {file object : DownloadOperationListFile} {bytes unread : Bytes}
    (h : encode raw file = .ok bytes) :
    decode raw {} bytes = .done () object unread ↔
      file.protocolVersion.Supported ∧ object = file.cutAtNul ∧ unread = [] := by
  have hfits := (encode_ok_iff raw file).mp ⟨bytes, h⟩
  have hwritten : ∀ info ∈ file.files, encodeFile raw info = .ok (fileBytes raw info) :=
    fun info hinfo => encodeFile_ok raw (hfits.filename info hinfo) (hfits.description info hinfo)
  have hsize := length_listBytes_le raw hfits.count fun info hinfo =>
    length_fileBytes raw (hfits.filename info hinfo) (hfits.description info hinfo)
  have hmin := minimum_le_listBytes raw (fileBytes raw) file.files
  unfold encode at h
  rw [encodeList_ok raw hfits.count hwritten] at h
  cases h
  rw [decode, decodeList_done_iff raw (fun o : DownloadOperationListFile => o.files)
    (fun files o => { o with files := files }) (fun _ _ => rfl) (fun _ _ _ => rfl) (fun _ => rfl)
    hfits.count (fun info hinfo => returns_decodeFile raw (hfits.filename info hinfo)
      (hfits.description info hinfo))]
  exact and_congr_left' ⟨fun h => h.1.1,
    fun hversion => ⟨⟨hversion, hmin, Nat.lt_of_le_of_lt hsize (by decide)⟩, fun _ _ => trivial⟩⟩

end DownloadOperationListFile

namespace DownloadOperationAnswerFile

def cutAtNul (file : DownloadOperationAnswerFile) : DownloadOperationAnswerFile :=
  { file with files := file.files.map Arinc615a.cutAtNul }

theorem returns_decodeFile {filename : Text} (h : filename.length ≤ 253)
    (o : DownloadOperationAnswerFile) (rest : Bytes) :
    Returns rest (decodeFile raw) (stringBytes raw filename) True o ()
      { o with files := o.files ++ [Arinc615a.cutAtNul filename] } := by
  refine returns_string_last raw h ?_
  exact .update _

theorem decode_encode_done_iff {file object : DownloadOperationAnswerFile} {bytes unread : Bytes}
    (h : encode raw file = .ok bytes) :
    decode raw {} bytes = .done () object unread ↔
      file.protocolVersion.Supported ∧ object = file.cutAtNul ∧ unread = [] := by
  have hfits := (encode_ok_iff raw file).mp ⟨bytes, h⟩
  have hwritten : ∀ filename ∈ file.files,
      stringEncode raw filename = .ok (stringBytes raw filename) :=
    fun filename hfile => stringEncode_short raw (hfits.filename filename hfile)
  have hfilename : ∀ filename ∈ file.files, (stringBytes raw filename).length ≤ 255 := by
    intro filename hfile
    rw [length_stringBytes]
    exact stringSize_le (hfits.filename filename hfile)
  have hsize := length_listBytes_le raw hfits.count hfilename
  have hmin := minimum_le_listBytes raw (stringBytes raw) file.files
  unfold encode at h
  rw [encodeList_ok raw hfits.count hwritten] at h
  cases h
  rw [decode, decodeList_done_iff raw (fun o : DownloadOperationAnswerFile => o.files)
    (fun files o => { o with files := files }) (fun _ _ => rfl) (fun _ _ _ => rfl) (fun _ => rfl)
    hfits.count (fun filename hfile => returns_decodeFile raw (hfits.filename filename hfile))]
  exact and_congr_left' ⟨fun h => h.1.1,
    fun hversion => ⟨⟨hversion, hmin, Nat.lt_of_le_of_lt hsize (by decide)⟩, fun _ _ => trivial⟩⟩

end DownloadOperationAnswerFile

namespace DownloadOperationRequestFile

def cutAtNul (file : DownloadOperationRequestFile) : DownloadOperationRequestFile :=
  { file with files := file.files.map Arinc615a.cutAtNul }

theorem returns_decodeFile {filename : Text} (h : filename.length ≤ 253)
    (o : DownloadOperationRequestFile) (rest : Bytes) :
    Returns rest (decodeFile raw) (stringBytes raw filename) True o ()
      { o with files := o.files ++ [Arinc615a.cutAtNul filename] } := by
  refine returns_string_last raw h ?_
  exact .update _

/-- The user defined data come back as they are. -/
theorem decode_encode_done_iff {file object : DownloadOperationRequestFile}
    {bytes unread : Bytes} (h : encode raw file = .ok bytes) :
    decode raw {} bytes = .done () object unread ↔
      file.protocolVersion.Supported ∧ object = file.cutAtNul ∧ unread = [] := by
  have hfits := (encode_ok_iff raw file).mp ⟨bytes, h⟩
  have hlen := filenames_length raw hfits.files
  have hdata := hfits.userDefinedData
  have hsize : file.userDefinedData.length.toUInt8.toNat = file.userDefinedData.length := by
    change (UInt8.ofNat _).toNat = _
    rw [UInt8.toNat_ofNat', Nat.mod_eq_of_lt (by omega)]
  rw [encode_ok raw hfits] at h
  cases h
  let body := raw.uint16.encode file.files.length.toUInt16 ++
    ((file.files.map (stringBytes raw)).flatten ++
      (raw.uint8.encode file.userDefinedData.length.toUInt8 ++ file.userDefinedData))
  have hdone : decode raw {} (insertHeader raw file.protocolVersion (headerSpace ++ body)) =
        .done () object unread ↔
      (HeaderFits minimumSize file.protocolVersion (6 + body.length) ∧
        (∀ filename ∈ file.files, True) ∧ True) ∧ object = file.cutAtNul ∧ unread = [] := by
    refine written_done_iff raw (.word_bind raw.uint16 _ ?_)
    rw [toNat_toUInt16 hfits.files.count]
    refine .bind (.times_appended (fun o : DownloadOperationRequestFile => o.files)
      (fun files o => { o with files := files }) (fun _ _ => rfl) (fun _ _ _ => rfl)
      (fun _ => rfl) fun filename hfile =>
        returns_decodeFile raw (hfits.files.filename filename hfile)) ?_
    -- the rest of the file is as long as the length byte says
    refine .word_bind raw.uint8 _ (.require_bind (by simp [hsize]) ?_)
    exact .unread_bind (.update _)
  rw [hdone]
  refine and_congr_left' ⟨fun h => h.1.1, fun hversion =>
    ⟨⟨hversion, ?_, ?_⟩, fun _ _ => trivial, trivial⟩⟩
  · simp only [body, List.length_append, WordCodec.length_encode, minimumSize, headerSize]
    omega
  · simp only [body, List.length_append, WordCodec.length_encode]
    omega

end DownloadOperationRequestFile

/-- A status file with a list always has a size that fits the header. -/
theorem statusList_headerFits {β : Type} {entryBytes : β → Bytes} {status : Status}
    (listRatio : Ratio) {entries : List β} {size : Nat} {version : Arinc615aVersion}
    (hdescription : status.description.length ≤ 253) (hcount : entries.length ≤ 65535)
    (hsize : ∀ b ∈ entries, (entryBytes b).length ≤ size) (hmax : size ≤ 65535) :
    HeaderFits (headerSize + 9) version
        (6 + (statusListBytes raw entryBytes status listRatio entries).length) ↔
      version.Supported := by
  obtain ⟨hmin, hle⟩ := length_statusListBytes raw listRatio hdescription hcount hsize
  refine and_iff_left ⟨hmin, Nat.lt_of_le_of_lt hle ?_⟩
  omega

namespace UploadOperationStatusFile

def cutAtNul (file : UploadOperationStatusFile) : UploadOperationStatusFile :=
  { file with status := file.status.cutAtNul }

def Readable (file : UploadOperationStatusFile) : Prop :=
  file.protocolVersion.Supported ∧ file.status.code.Known ∧
    ∀ load ∈ file.status.loads, load.code.Known

theorem returns_decodeLoad {load : UploadLoadStatus} (hfilename : load.headerFilename.length ≤ 253)
    (hpartNumber : load.partNumber.length ≤ 253) (hdescription : load.description.length ≤ 253)
    (o : UploadOperationStatusFile) (rest : Bytes) :
    Returns rest (decodeLoad raw) (loadBytes raw load) load.code.Known o load.cutAtNul o := by
  refine returns_string raw hfilename ?_
  refine returns_string raw hpartNumber ?_
  refine returns_ratio load.ratio ?_
  refine .word_bind raw.uint16 _ ?_
  refine returns_string_last raw hdescription ?_
  exact (Returns.check_bind (fun _ => statusCode_eq_ok) (.pure load.cutAtNul)).of_iff
    (iff_of_eq (and_true _))

theorem decode_encode_done_iff {file object : UploadOperationStatusFile} {bytes unread : Bytes}
    (h : encode raw file = .ok bytes) :
    decode raw {} bytes = .done () object unread ↔
      file.Readable ∧ object = file.cutAtNul ∧ unread = [] := by
  obtain ⟨hdescription, hcount, hloads⟩ := (encodeStatusList_ok_iff raw).mp ⟨bytes, h⟩
  simp only [encodeLoad_ok_iff] at hloads
  have hwritten : ∀ load ∈ file.status.loads, encodeLoad raw load = .ok (loadBytes raw load) := by
    intro load hload
    obtain ⟨hfilename, hpartNumber, htext⟩ := hloads load hload
    unfold encodeLoad loadBytes
    rw [stringEncode_short raw hfilename, stringEncode_short raw hpartNumber,
      stringEncode_short raw htext]
    simp only [bind, Except.bind, pure, Except.pure, List.append_assoc]
  have hsize : ∀ load ∈ file.status.loads, (loadBytes raw load).length ≤ 770 := by
    intro load hload
    obtain ⟨hfilename, hpartNumber, htext⟩ := hloads load hload
    have h1 := stringSize_le hfilename
    have h2 := stringSize_le hpartNumber
    have h3 := stringSize_le htext
    simp only [loadBytes, List.length_append, length_stringBytes, length_ratioEncode,
      WordCodec.length_encode]
    omega
  rw [encode, encodeStatusList_ok raw hdescription hcount hwritten] at h
  cases h
  rw [decode, decodeStatusList_done_iff raw hdescription hcount
      (fun load hload => returns_decodeLoad raw (hloads load hload).1 (hloads load hload).2.1
        (hloads load hload).2.2),
    statusList_headerFits raw _ hdescription hcount hsize (by decide)]
  exact Iff.rfl

end UploadOperationStatusFile

namespace DownloadOperationStatusFile

def cutAtNul (file : DownloadOperationStatusFile) : DownloadOperationStatusFile :=
  { file with status := file.status.cutAtNul }

def Readable (file : DownloadOperationStatusFile) : Prop :=
  file.protocolVersion.Supported ∧ file.status.code.Known ∧
    ∀ f ∈ file.status.files, f.code.Known

theorem returns_decodeFile {file : DownloadFileStatus} (hfilename : file.filename.length ≤ 253)
    (hdescription : file.description.length ≤ 253) (o : DownloadOperationStatusFile)
    (rest : Bytes) :
    Returns rest (decodeFile raw) (fileBytes raw file) file.code.Known o file.cutAtNul o := by
  refine returns_string raw hfilename ?_
  refine .word_bind raw.uint16 _ ?_
  refine returns_string_last raw hdescription ?_
  exact (Returns.check_bind (fun _ => statusCode_eq_ok) (.pure file.cutAtNul)).of_iff
    (iff_of_eq (and_true _))

theorem decode_encode_done_iff {file object : DownloadOperationStatusFile} {bytes unread : Bytes}
    (h : encode raw file = .ok bytes) :
    decode raw {} bytes = .done () object unread ↔
      file.Readable ∧ object = file.cutAtNul ∧ unread = [] := by
  obtain ⟨hdescription, hcount, hfiles⟩ := (encodeStatusList_ok_iff raw).mp ⟨bytes, h⟩
  simp only [encodeFile_ok_iff] at hfiles
  have hwritten : ∀ f ∈ file.status.files, encodeFile raw f = .ok (fileBytes raw f) := by
    intro f hf
    unfold encodeFile fileBytes
    rw [stringEncode_short raw (hfiles f hf).1, stringEncode_short raw (hfiles f hf).2]
    simp only [bind, Except.bind, pure, Except.pure, List.append_assoc]
  have hsize : ∀ f ∈ file.status.files, (fileBytes raw f).length ≤ 512 := by
    intro f hf
    have h1 := stringSize_le (hfiles f hf).1
    have h2 := stringSize_le (hfiles f hf).2
    simp only [fileBytes, List.length_append, length_stringBytes, WordCodec.length_encode]
    omega
  rw [encode, encodeStatusList_ok raw hdescription hcount hwritten] at h
  cases h
  rw [decode, decodeStatusList_done_iff raw hdescription hcount
      (fun f hf => returns_decodeFile raw (hfiles f hf).1 (hfiles f hf).2),
    statusList_headerFits raw _ hdescription hcount hsize (by decide)]
  exact Iff.rfl

end DownloadOperationStatusFile

namespace LoadConfigurationListFile

def cutAtNul (file : LoadConfigurationListFile) : LoadConfigurationListFile :=
  { file with targetsHardware := file.targetsHardware.map TargetHardware.cutAtNul }

/-- The decoder asks for more bytes than an empty list has, and the header counts up to 32 bits. -/
def Readable (file : LoadConfigurationListFile) : Prop :=
  HeaderFits (headerSize + 13) file.protocolVersion file.encodedSize

/-- What has been written fits its fields. -/
structure TargetHardwareWritten (thw : TargetHardware) : Prop where
  literalName : thw.literalName.length ≤ 253
  serialNumber : thw.serialNumber.length ≤ 253
  count : thw.partNumbers.length ≤ 65535
  partNumbers : ∀ p ∈ thw.partNumbers,
    p.partNumber.length ≤ 253 ∧ p.amendment.length ≤ 253 ∧ p.partDesignation.length ≤ 253

theorem encodePartNumber_ok_iff (p : PartNumber) :
    (∃ w, encodePartNumber raw p = .ok w) ↔
      p.partNumber.length ≤ 253 ∧ p.amendment.length ≤ 253 ∧ p.partDesignation.length ≤ 253 := by
  rw [encodePartNumber_eq, appendEach_stringEncode_ok_iff]
  simp

theorem encodeTargetHardware_written {thw : TargetHardware} {w : Bytes}
    (h : encodeTargetHardware raw thw = .ok w) :
    TargetHardwareWritten thw ∧ w = targetHardwareBytes raw thw := by
  unfold encodeTargetHardware at h
  obtain ⟨literalName, hliteral, h⟩ := bind_eq_ok h
  obtain ⟨serialNumber, hserial, h⟩ := bind_eq_ok h
  obtain ⟨hliteralName, rfl⟩ := stringEncode_eq_ok hliteral
  obtain ⟨hserialNumber, rfl⟩ := stringEncode_eq_ok hserial
  split at h
  · cases h
  next hcount =>
    have hparts := (appendEach_ok_iff _).mp ⟨w, h⟩
    simp only [encodePartNumber_ok_iff] at hparts
    have hwritten : ∀ p ∈ thw.partNumbers, encodePartNumber raw p = .ok (partNumberBytes raw p) := by
      intro p hp
      rw [encodePartNumber_eq, appendEach_stringEncode_ok raw (by simpa using hparts p hp)]
      simp [partNumberBytes]
    rw [appendEach_ok hwritten] at h
    cases h
    refine ⟨⟨hliteralName, hserialNumber, Nat.not_lt.mp hcount, hparts⟩, ?_⟩
    simp only [targetHardwareBytes, List.append_assoc]

theorem returns_decodePartNumber {p : PartNumber} (hpartNumber : p.partNumber.length ≤ 253)
    (hamendment : p.amendment.length ≤ 253) (hdesignation : p.partDesignation.length ≤ 253)
    (o : LoadConfigurationListFile) (rest : Bytes) :
    Returns rest (decodePartNumber raw) (partNumberBytes raw p) True o p.cutAtNul o := by
  refine returns_string raw hpartNumber ?_
  refine returns_string raw hamendment ?_
  refine returns_string_last raw hdesignation ?_
  exact .pure _

theorem returns_decodeTargetHardware {thw : TargetHardware} (h : TargetHardwareWritten thw)
    (o : LoadConfigurationListFile) (rest : Bytes) :
    Returns rest (decodeTargetHardware raw) (targetHardwareBytes raw thw) True o ()
      { o with targetsHardware := o.targetsHardware ++ [thw.cutAtNul] } := by
  refine returns_string raw h.literalName ?_
  refine returns_string raw h.serialNumber ?_
  refine .word_bind raw.uint16 _ ?_
  rw [toNat_toUInt16 h.count]
  -- the loop of part numbers stands inside the loop of records
  have hparts : Returns ([] ++ rest) (collect thw.partNumbers.length (decodePartNumber raw))
      (thw.partNumbers.map (partNumberBytes raw)).flatten (∀ p ∈ thw.partNumbers, True) o
      (thw.partNumbers.map PartNumber.cutAtNul) o :=
    .collect fun p hp rest => returns_decodePartNumber raw (h.partNumbers p hp).1
      (h.partNumbers p hp).2.1 (h.partNumbers p hp).2.2 o rest
  have hloop : Returns rest (collect thw.partNumbers.length (decodePartNumber raw) >>=
        fun partNumbers => update fun file : LoadConfigurationListFile =>
          { file with targetsHardware := file.targetsHardware ++
              [⟨Arinc615a.cutAtNul thw.literalName, Arinc615a.cutAtNul thw.serialNumber,
                partNumbers⟩] })
      ((thw.partNumbers.map (partNumberBytes raw)).flatten ++ [])
      ((∀ p ∈ thw.partNumbers, True) ∧ True) o ()
      { o with targetsHardware := o.targetsHardware ++ [thw.cutAtNul] } :=
    .bind hparts (.update _)
  rw [List.append_nil] at hloop
  exact hloop.of_iff (by simp)

theorem decode_encode_done_iff {file object : LoadConfigurationListFile} {bytes unread : Bytes}
    (h : encode raw file = .ok bytes) :
    decode raw {} bytes = .done () object unread ↔
      file.Readable ∧ object = file.cutAtNul ∧ unread = [] := by
  obtain ⟨hcount, hrecords⟩ := (encodeList_ok_iff raw).mp ⟨bytes, h⟩
  have hfits : ∀ thw ∈ file.targetsHardware, TargetHardwareWritten thw := by
    intro thw hthw
    obtain ⟨w, hw⟩ := hrecords thw hthw
    exact (encodeTargetHardware_written raw hw).1
  have hwritten : ∀ thw ∈ file.targetsHardware,
      encodeTargetHardware raw thw = .ok (targetHardwareBytes raw thw) := by
    intro thw hthw
    obtain ⟨w, hw⟩ := hrecords thw hthw
    exact (encodeTargetHardware_written raw hw).2 ▸ hw
  have hsize : 6 + (listBytes raw (targetHardwareBytes raw) file.targetsHardware).length =
      encodedSize file := by
    simp only [listBytes, encodedSize, headerSize, List.length_append, WordCodec.length_encode,
      length_flatten_map (length_targetHardwareBytes raw)]
    omega
  rw [encode, encodeList_ok raw hcount hwritten] at h
  cases h
  rw [decode, decodeList_done_iff raw (fun o : LoadConfigurationListFile => o.targetsHardware)
    (fun records o => { o with targetsHardware := records }) (fun _ _ => rfl) (fun _ _ _ => rfl)
    (fun _ => rfl) hcount (fun thw hthw => returns_decodeTargetHardware raw (hfits thw hthw)),
    hsize]
  exact and_congr_left' (and_iff_left fun _ _ => trivial)

end LoadConfigurationListFile

/-! ## All files -/

/-- What is written is read back exactly if it is `readable`, and then with its texts cut. -/
def ReadBack {σ : Type} (encode : σ → Except Arinc615aException Bytes) (decode : FileDecoder σ Unit)
    (empty : σ) (readable : σ → Prop) (cut : σ → σ) : Prop :=
  ∀ file bytes, encode file = .ok bytes → ∀ object unread,
    decode empty bytes = .done () object unread ↔ readable file ∧ object = cut file ∧ unread = []

/-- Whatever an encoder writes, its decoder takes exactly if the version is supported, the codes are
of the protocol and, for a list of hardware, the size fits; it loses nothing but what stands behind
the first NUL of a text. -/
theorem decode_encode_iff_cutAtNul :
    ReadBack (InitializationFile.encode raw) (InitializationFile.decode raw) {}
      InitializationFile.Readable InitializationFile.cutAtNul ∧
    ReadBack (LoadConfigurationListFile.encode raw) (LoadConfigurationListFile.decode raw) {}
      LoadConfigurationListFile.Readable LoadConfigurationListFile.cutAtNul ∧
    ReadBack (InformationOperationStatusFile.encode raw)
      (InformationOperationStatusFile.decode raw) {}
      InformationOperationStatusFile.Readable InformationOperationStatusFile.cutAtNul ∧
    ReadBack (UploadOperationRequestFile.encode raw) (UploadOperationRequestFile.decode raw) {}
      (fun file => file.protocolVersion.Supported) UploadOperationRequestFile.cutAtNul ∧
    ReadBack (UploadOperationStatusFile.encode raw) (UploadOperationStatusFile.decode raw) {}
      UploadOperationStatusFile.Readable UploadOperationStatusFile.cutAtNul ∧
    ReadBack (DownloadOperationRequestFile.encode raw) (DownloadOperationRequestFile.decode raw) {}
      (fun file => file.protocolVersion.Supported) DownloadOperationRequestFile.cutAtNul ∧
    ReadBack (DownloadOperationListFile.encode raw) (DownloadOperationListFile.decode raw) {}
      (fun file => file.protocolVersion.Supported) DownloadOperationListFile.cutAtNul ∧
    ReadBack (DownloadOperationAnswerFile.encode raw) (DownloadOperationAnswerFile.decode raw) {}
      (fun file => file.protocolVersion.Supported) DownloadOperationAnswerFile.cutAtNul ∧
    ReadBack (DownloadOperationStatusFile.encode raw) (DownloadOperationStatusFile.decode raw) {}
      DownloadOperationStatusFile.Readable DownloadOperationStatusFile.cutAtNul :=
  ⟨fun _ _ h _ _ => InitializationFile.decode_encode_done_iff raw h,
    fun _ _ h _ _ => LoadConfigurationListFile.decode_encode_done_iff raw h,
    fun _ _ h _ _ => InformationOperationStatusFile.decode_encode_done_iff raw h,
    fun _ _ h _ _ => UploadOperationRequestFile.decode_encode_done_iff raw h,
    fun _ _ h _ _ => UploadOperationStatusFile.decode_encode_done_iff raw h,
    fun _ _ h _ _ => DownloadOperationRequestFile.decode_encode_done_iff raw h,
    fun _ _ h _ _ => DownloadOperationListFile.decode_encode_done_iff raw h,
    fun _ _ h _ _ => DownloadOperationAnswerFile.decode_encode_done_iff raw h,
    fun _ _ h _ _ => DownloadOperationStatusFile.decode_encode_done_iff raw h⟩

/-- A description with a NUL, and a code that the host does not take. -/
theorem decode_encode_iff_cutAtNul_status :
    (∃ bytes, InformationOperationStatusFile.encode .bigEndian
        { status := { description := [65, 0, 66], code := .operationCompleted } } = .ok bytes ∧
      InformationOperationStatusFile.decode .bigEndian {} bytes =
        .done () { status := { description := [65], code := .operationCompleted } } []) ∧
    ∃ bytes, InformationOperationStatusFile.encode .bigEndian
        { status := { code := .operationDeferred } } = .ok bytes ∧
      ∀ object, InformationOperationStatusFile.decode .bigEndian {} bytes ≠
        .done () object [] := by
  have hread := (decode_encode_iff_cutAtNul .bigEndian).2.2.1
  constructor
  · refine ⟨_, rfl, (hread { status :=
      { description := [65, 0, 66], code := .operationCompleted } } _ rfl _ _).mpr ?_⟩
    exact ⟨⟨by decide, by decide⟩, rfl, rfl⟩
  · refine ⟨_, rfl, fun object h => ?_⟩
    have hknown := ((hread { status := { code := .operationDeferred } } _ rfl _ _).mp h).1.2
    exact absurd hknown (by decide)

end Files

end Arinc615a
