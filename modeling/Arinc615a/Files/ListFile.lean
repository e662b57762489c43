import Arinc615a.Files.Codec

/-!
# Files that end in a list

Some protocol files hold a number of entries and then the entries; the status files of upload and
download have a status and a ratio in front.  Their encoders and decoders differ in the entries,
the texts of the errors and the minimum size.
-/

open Reasoning Reasoning.Decoder

namespace Arinc615a.Files

open Information

variable {σ β : Type} (raw : RawDataCodec)

/-! ## A list behind the header -/

def encodeList (tooMany : String) (encodeEntry : β → Except Arinc615aException Bytes)
    (protocolVersion : Arinc615aVersion) (entries : List β) : Except Arinc615aException Bytes := do
  if 65535 < entries.length then .error ⟨tooMany⟩
  else
    let rawData ← appendEach encodeEntry
      (headerSpace ++ raw.uint16.encode entries.length.toUInt16) entries
    pure (insertHeader raw protocolVersion rawData)

def decodeList (minimumSize : Nat) (tooSmall moreData : String)
    (setVersion : Arinc615aVersion → σ → σ) (decodeEntry : FileDecoder σ Unit) :
    FileDecoder σ Unit := do
  decodeStart raw minimumSize tooSmall setVersion
  let count ← read raw.uint16.read
  times count.toNat decodeEntry
  decodeEnd moreData

/-- The bytes behind the header. -/
def listBytes (entryBytes : β → Bytes) (entries : List β) : Bytes :=
  raw.uint16.encode entries.length.toUInt16 ++ (entries.map entryBytes).flatten

/-- The number of entries alone fills the smallest minimum size. -/
theorem minimum_le_listBytes (entryBytes : β → Bytes) (entries : List β) :
    headerSize + 2 ≤ 6 + (listBytes raw entryBytes entries).length := by
  rw [listBytes, List.length_append, raw.uint16.length_encode, headerSize]
  omega

theorem length_listBytes_le {entryBytes : β → Bytes} {entries : List β} {size : Nat}
    (hcount : entries.length ≤ 65535) (hsize : ∀ b ∈ entries, (entryBytes b).length ≤ size) :
    6 + (listBytes raw entryBytes entries).length ≤ 8 + 65535 * size := by
  have hentries := length_flatten_le hcount hsize
  rw [listBytes, List.length_append, raw.uint16.length_encode]
  omega

theorem encodeList_ok {tooMany : String} {encodeEntry : β → Except Arinc615aException Bytes}
    {entryBytes : β → Bytes} {version : Arinc615aVersion} {entries : List β}
    (hcount : entries.length ≤ 65535)
    (hentry : ∀ b ∈ entries, encodeEntry b = .ok (entryBytes b)) :
    encodeList raw tooMany encodeEntry version entries =
      .ok (insertHeader raw version (headerSpace ++ listBytes raw entryBytes entries)) := by
  unfold encodeList listBytes
  rw [if_neg (Nat.not_lt.mpr hcount), appendEach_ok hentry, List.append_assoc]
  rfl

theorem encodeList_ok_iff {tooMany : String}
    {encodeEntry : β → Except Arinc615aException Bytes} {version : Arinc615aVersion}
    {entries : List β} :
    (∃ bytes, encodeList raw tooMany encodeEntry version entries = .ok bytes) ↔
      entries.length ≤ 65535 ∧ ∀ b ∈ entries, ∃ w, encodeEntry b = .ok w := by
  unfold encodeList
  by_cases hcount : 65535 < entries.length
  · rw [if_pos hcount]
    exact iff_of_false (fun ⟨_, h⟩ => nomatch h) fun h => Nat.not_lt.mpr h.1 hcount
  · rw [if_neg hcount,
      ← appendEach_ok_iff (headerSpace ++ raw.uint16.encode entries.length.toUInt16)]
    constructor
    · rintro ⟨bytes, h⟩
      -- the header is put in last and cannot fail
      obtain ⟨rawData, hloop, -⟩ := bind_eq_ok h
      exact ⟨Nat.not_lt.mp hcount, rawData, hloop⟩
    · rintro ⟨-, rawData, hloop⟩
      rw [hloop]
      exact ⟨_, rfl⟩

/-- A written list is appended to the list of the object, entry by entry. -/
theorem decodeList_written {minimumSize : Nat} (tooSmall moreData : String)
    {setVersion : Arinc615aVersion → σ → σ} {decodeEntry : FileDecoder σ Unit}
    {entryBytes : β → Bytes} {version : Arinc615aVersion} {entries : List β}
    (list : σ → List β) (put : List β → σ → σ) (list_put : ∀ bs o, list (put bs o) = bs)
    (put_put : ∀ bs cs o, put bs (put cs o) = put bs o) (put_list : ∀ o, put (list o) o = o)
    (hversion : version.Supported) (hcount : entries.length ≤ 65535)
    (hentry : ∀ b ∈ entries, ∀ o rest, decodeEntry o (entryBytes b ++ rest) =
      .done () (put (list o ++ [b]) o) rest)
    (hmin : minimumSize ≤ 6 + (listBytes raw entryBytes entries).length)
    (hsize : 6 + (listBytes raw entryBytes entries).length < 2 ^ 32) (o : σ) :
    decodeList raw minimumSize tooSmall moreData setVersion decodeEntry o
        (insertHeader raw version (headerSpace ++ listBytes raw entryBytes entries)) =
      .done () (put (list (setVersion version o) ++ entries) (setVersion version o)) [] := by
  -- the loop runs on the object that the header has been written to
  have hloop := times_appended list put list_put put_put put_list hentry (setVersion version o) []
  rw [List.append_nil] at hloop
  unfold decodeList
  rw [bind_run, decodeStart_written raw _ _ hversion _ hmin hsize, Outcome.andThen_done, bind_run,
    listBytes, read_word_written, Outcome.andThen_done, toNat_toUInt16 hcount, bind_run, hloop,
    Outcome.andThen_done, decodeEnd_nil]

def listLayout (entry : Layout) : Layout :=
  .counted 2 (fun w => (raw.uint16.decode w).toNat) entry .nil

theorem decodeList_reads {minimumSize : Nat} {tooSmall moreData : String}
    {setVersion : Arinc615aVersion → σ → σ} {decodeEntry : FileDecoder σ Unit} {entry : Layout}
    (h : Follows decodeEntry entry) :
    ReadsFile raw minimumSize (listLayout raw entry)
      (decodeList raw minimumSize tooSmall moreData setVersion decodeEntry) := by
  intro α k K hk
  simp only [decodeList, bind_assoc]
  -- decode reads the fields in the order of the layout
  apply cuts_decodeStart
  apply Cuts.times_counted h
  exact cuts_decodeEnd _ hk

/-- The number of entries lies within the minimum size, so guarded entries are never cut off. -/
theorem listLayout_covered {entry : Layout} (h : entry.Guarded) {minimumSize : Nat}
    (hmin : headerSize + 2 ≤ minimumSize) :
    (listLayout raw entry).CoveredBy (minimumSize - headerSize) :=
  ⟨Nat.le_sub_of_add_le' hmin, h, trivial⟩

/-! ## A status and a list behind the header -/

def encodeStatusList (tooMany : String) (encodeEntry : β → Except Arinc615aException Bytes)
    (protocolVersion : Arinc615aVersion) (status : Status) (listRatio : Ratio)
    (entries : List β) : Except Arinc615aException Bytes := do
  let rawDescription ← stringEncode raw status.description
  let rawData := headerSpace ++ raw.uint16.encode status.code.toUnderlying ++ rawDescription ++
    raw.uint16.encode status.counter ++ raw.uint16.encode status.exceptionTimer ++
    raw.int16.encode status.estimatedTime ++ ratioEncode listRatio
  -- the counter field has 16 bits
  if 65535 < entries.length then .error ⟨tooMany⟩
  else
    let rawData ← appendEach encodeEntry
      (rawData ++ raw.uint16.encode entries.length.toUInt16) entries
    pure (insertHeader raw protocolVersion rawData)

/-- The entries are collected first; the object gets them when the list is complete. -/
def decodeStatusList (setVersion : Arinc615aVersion → σ → σ)
    (modifyStatus : (Status → Status) → σ → σ) (setListRatio : Ratio → σ → σ)
    (setEntries : List β → σ → σ) (decodeEntry : FileDecoder σ β) : FileDecoder σ Unit := do
  decodeStart raw (headerSize + 9) "Protocol file to small" setVersion
  let intStatusCode ← read raw.uint16.read
  -- the code is set without a description, which is read next
  let code ← check (statusCode intStatusCode)
  update (modifyStatus fun status => status.setCode code)
  let statusDescription ← read (stringDecode raw)
  update (modifyStatus fun status => { status with description := statusDescription })
  let counter ← read raw.uint16.read
  update (modifyStatus fun status => { status with counter := counter })
  let exceptionTimer ← read raw.uint16.read
  update (modifyStatus fun status => { status with exceptionTimer := exceptionTimer })
  let estimatedTime ← read raw.int16.read
  update (modifyStatus fun status => { status with estimatedTime := estimatedTime })
  let listRatio ← read ratioDecode
  update (setListRatio listRatio)
  let count ← read raw.uint16.read
  let entries ← collect count.toNat decodeEntry
  update (setEntries entries)
  decodeEnd "More data then expected"

def statusListBytes (entryBytes : β → Bytes) (status : Status) (listRatio : Ratio)
    (entries : List β) : Bytes :=
  raw.uint16.encode status.code.toUnderlying ++ (stringBytes raw status.description ++
    (raw.uint16.encode status.counter ++ (raw.uint16.encode status.exceptionTimer ++
    (raw.int16.encode status.estimatedTime ++ (ratioEncode listRatio ++
      listBytes raw entryBytes entries)))))

theorem encodeStatusList_ok {tooMany : String}
    {encodeEntry : β → Except Arinc615aException Bytes} {entryBytes : β → Bytes}
    {version : Arinc615aVersion} {status : Status} {listRatio : Ratio} {entries : List β}
    (hdescription : status.description.length ≤ 253) (hcount : entries.length ≤ 65535)
    (hentry : ∀ b ∈ entries, encodeEntry b = .ok (entryBytes b)) :
    encodeStatusList raw tooMany encodeEntry version status listRatio entries =
      .ok (insertHeader raw version
        (headerSpace ++ statusListBytes raw entryBytes status listRatio entries)) := by
  unfold encodeStatusList
  rw [stringEncode_short raw hdescription]
  simp only [bind, Except.bind]
  rw [if_neg (Nat.not_lt.mpr hcount), appendEach_ok hentry]
  simp only [pure, Except.pure, List.append_assoc, statusListBytes, listBytes]

theorem length_statusListBytes {entryBytes : β → Bytes} {status : Status} (listRatio : Ratio)
    {entries : List β} {size : Nat} (hdescription : status.description.length ≤ 253)
    (hcount : entries.length ≤ 65535) (hsize : ∀ b ∈ entries, (entryBytes b).length ≤ size) :
    headerSize + 9 ≤ 6 + (statusListBytes raw entryBytes status listRatio entries).length ∧
      6 + (statusListBytes raw entryBytes status listRatio entries).length ≤
        274 + 65535 * size := by
  have hlist := length_listBytes_le raw hcount hsize
  have hmin := minimum_le_listBytes raw entryBytes entries
  have htext := stringSize_le hdescription
  rw [headerSize] at hmin ⊢
  simp only [statusListBytes, List.length_append, length_stringBytes, length_ratioEncode,
    WordCodec.length_encode]
  omega

theorem decodeStatusList_written {setVersion : Arinc615aVersion → σ → σ}
    {modifyStatus : (Status → Status) → σ → σ} {setListRatio : Ratio → σ → σ}
    {setEntries : List β → σ → σ} {decodeEntry : FileDecoder σ β} {entryBytes : β → Bytes}
    {version : Arinc615aVersion} {status : Status} {listRatio : Ratio} {entries : List β}
    (hversion : version.Supported) (hcode : status.code.Known)
    (hdescription : TextFits status.description) (hcount : entries.length ≤ 65535)
    (hentry : ∀ b ∈ entries, ∀ o rest,
      decodeEntry o (entryBytes b ++ rest) = .done b o rest)
    {size : Nat} (hsize : ∀ b ∈ entries, (entryBytes b).length ≤ size) (hmax : size ≤ 65535)
    (o : σ) :
    decodeStatusList raw setVersion modifyStatus setListRatio setEntries decodeEntry o
        (insertHeader raw version
          (headerSpace ++ statusListBytes raw entryBytes status listRatio entries)) =
      .done () (setEntries entries (setListRatio listRatio
        (modifyStatus (fun s => { s with estimatedTime := status.estimatedTime })
        (modifyStatus (fun s => { s with exceptionTimer := status.exceptionTimer })
        (modifyStatus (fun s => { s with counter := status.counter })
        (modifyStatus (fun s => { s with description := status.description })
        (modifyStatus (fun s => s.setCode status.code) (setVersion version o)))))))) [] := by
  obtain ⟨hmin, hle⟩ := length_statusListBytes raw listRatio hdescription.1 hcount hsize
  -- even the longest file has a size that fits the header
  have hfits : 274 + 65535 * size < 2 ^ 32 := by omega
  -- the list ends the file, so nothing is left behind the loop
  have hloop := fun o => collect_written hentry o []
  simp only [List.append_nil] at hloop
  unfold decodeStatusList
  rw [bind_run, decodeStart_written raw _ _ hversion _ hmin (Nat.lt_of_le_of_lt hle hfits)]
  simp only [statusListBytes, listBytes, Outcome.andThen_done, bind_run, read_word_written,
    statusCode_toUnderlying hcode, check_ok, update_run, read_string_written raw hdescription,
    read_ratio_written, toNat_toUInt16 hcount, hloop, decodeEnd_nil]

def statusListLayout (entry : Layout) : Layout :=
  .field (.checkedWord raw.uint16 fun n => ∃ code, statusCode n = .ok code) <|
  .field (stringField raw) <| .field (.word 2) <| .field (.word 2) <| .field (.word 2) <|
  .field ratioField <| listLayout raw entry

theorem decodeStatusList_reads {setVersion : Arinc615aVersion → σ → σ}
    {modifyStatus : (Status → Status) → σ → σ} {setListRatio : Ratio → σ → σ}
    {setEntries : List β → σ → σ} {decodeEntry : FileDecoder σ β} {entry : Layout}
    (h : Follows decodeEntry entry) :
    ReadsFile raw (headerSize + 9) (statusListLayout raw entry)
      (decodeStatusList raw setVersion modifyStatus setListRatio setEntries decodeEntry) := by
  intro α k K hk
  simp only [decodeStatusList, bind_assoc]
  apply cuts_decodeStart
  apply Cuts.checked
  intro code
  apply Cuts.update_bind
  apply Cuts.field (stringDecode_reads raw)
  intro statusDescription
  apply Cuts.update_bind
  apply Cuts.field raw.uint16.read_reads
  intro counter
  apply Cuts.update_bind
  apply Cuts.field raw.uint16.read_reads
  intro exceptionTimer
  apply Cuts.update_bind
  apply Cuts.field raw.int16.read_reads
  intro estimatedTime
  apply Cuts.update_bind
  apply Cuts.field ratioDecode_reads
  intro listRatio
  apply Cuts.update_bind
  apply Cuts.collect_counted h
  intro entries
  apply Cuts.update_bind
  exact cuts_decodeEnd _ hk

end Arinc615a.Files
