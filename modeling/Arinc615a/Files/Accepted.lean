import Arinc615a.Files.RoundTrip
import Arinc615a.Reasoning.Accepted
import Mathlib.Data.List.TakeWhile

/-!
# What the decoders accept, and whether it can be written again

A decoder takes strings of up to 254 characters, and an encoder writes up to 253.  Bytes behind
the NUL of a string are dropped, so a file that is written again can be shorter than it was.
-/

open Reasoning Reasoning.Decoder

namespace Arinc615a.Files

open Information

variable (raw : RawDataCodec)

/-! ## Fields -/

/-- A string as a decoder gives it: without a NUL, and never more than a length byte can count. -/
def TextRead (s : Text) : Prop := s.length ≤ 254 ∧ 0 ∉ s

theorem not_mem_untilNul (bs : Bytes) : 0 ∉ bs.takeWhile (· ≠ 0) := by
  intro hmem
  have hne := List.mem_takeWhile_imp hmem
  simp at hne

theorem length_untilNul_lt {bs : Bytes} (h : 0 ∈ bs) :
    (bs.takeWhile (· ≠ 0)).length < bs.length := by
  have hprefix := List.takeWhile_prefix (l := bs) fun b => decide (b ≠ 0)
  refine Nat.lt_of_le_of_ne hprefix.length_le fun hlen => ?_
  -- nothing would have been dropped, and the NUL with it
  have heq := hprefix.eq_of_length hlen
  exact not_mem_untilNul bs (heq.symm ▸ h)

theorem stringDecode_done {bs rest : Bytes} {s : Text} (h : stringDecode raw bs = .ok (s, rest)) :
    TextRead s ∧ stringSize s + rest.length ≤ bs.length := by
  have hne : bs ≠ [] := by
    rintro rfl
    cases h
  obtain ⟨length, body, rfl⟩ := exists_lengthByte raw hne
  have hlength := raw.uint8.length_encode length
  rw [stringDecode_cons] at h
  split_ifs at h with hshort hzero hterm
  · cases h
  · cases h
    refine ⟨⟨Nat.zero_le _, by simp⟩, ?_⟩
    rw [List.length_append, hlength]
    exact Nat.le_refl _
  · cases h
    -- the NUL among the counted bytes is the end of the string
    have hlt := length_untilNul_lt hterm
    have htake := List.length_take_of_le (Nat.not_lt.mp hshort)
    have hbyte := length.toNat_lt
    refine ⟨⟨by omega, not_mem_untilNul _⟩, ?_⟩
    rw [List.length_append, hlength, List.length_drop, stringSize]
    split <;> omega
  · cases h

/-- A string that was read can be written unless it has 254 characters. -/
theorem TextRead.fits_iff {s : Text} (h : TextRead s) : TextFits s ↔ s.length ≤ 253 :=
  and_iff_left h.2

theorem statusCode_known {n : UInt16} {code : StatusCode} (h : statusCode n = .ok code) :
    code.Known := by
  unfold statusCode at h
  split at h <;> cases h <;> decide

theorem operationAcceptanceStatusCode_ne {n : UInt16} {code : OperationAcceptanceStatusCode}
    (h : operationAcceptanceStatusCode n = .ok code) : code ≠ .operationDeferred := by
  unfold operationAcceptanceStatusCode at h
  split at h <;> cases h <;> decide

theorem supportedVersion_supported {n : UInt16} {version : Arinc615aVersion}
    (h : supportedVersion n = some version) : version.Supported := by
  unfold supportedVersion at h
  split at h <;> cases h <;> decide

theorem decodeHeader_done {bs rest : Bytes} {version : Arinc615aVersion}
    (h : decodeHeader raw bs = .ok (version, rest)) :
    version.Supported ∧ headerSize + rest.length = bs.length ∧ bs.length < 2 ^ 32 := by
  by_cases haccepted : HeaderAccepted raw bs
  · obtain ⟨hsize, hlength, -⟩ := haccepted
    have hsize' : 6 ≤ bs.length := hsize
    unfold decodeHeader at h
    rw [if_neg (Nat.not_lt.mpr hsize), raw.uint32.read_of_le (by omega)] at h
    simp only [bind, Except.bind, hlength, ne_eq, not_true_eq_false, if_false] at h
    rw [raw.uint16.read_of_le (by rw [List.length_drop]; omega)] at h
    cases hversion : supportedVersion (raw.uint16.decode ((bs.drop 4).take 2)) with
    | none =>
      simp only [hversion] at h
      cases h
    | some version' =>
      simp only [hversion] at h
      cases h
      -- the size of the file is what a 32-bit field holds
      have hlt := (raw.uint32.decode (bs.take 4)).toNat_lt
      rw [hlength] at hlt
      refine ⟨supportedVersion_supported hversion, ?_, hlt⟩
      rw [headerSize, List.length_drop, List.length_drop]
      omega
  · obtain ⟨e, he⟩ := decodeHeader_throws raw haccepted
    rw [h] at he
    cases he

theorem decodeStart_bind_done {σ α : Type} {minimumSize : Nat} {tooSmall : String}
    {setVersion : Arinc615aVersion → σ → σ} {k : Unit → FileDecoder σ α} {o o' : σ}
    {bs rest : Bytes} {a : α}
    (h : (decodeStart raw minimumSize tooSmall setVersion >>= k) o bs = .done a o' rest) :
    ∃ version body, version.Supported ∧ minimumSize ≤ headerSize + body.length ∧
      headerSize + body.length < 2 ^ 32 ∧ headerSize + body.length = bs.length ∧
      k () (setVersion version o) body = .done a o' rest := by
  unfold decodeStart at h
  simp only [bind_assoc] at h
  obtain ⟨hmin, h⟩ := require_bind_done h
  obtain ⟨version, body, hheader, h⟩ := read_bind_done h
  obtain ⟨hversion, hsize, hmax⟩ := decodeHeader_done raw hheader
  rw [← hsize] at hmax
  rw [← hsize, decide_eq_true_eq] at hmin
  exact ⟨version, body, hversion, hmin, hmax, hsize, h⟩

/-! ## Lists -/

section Lists

variable {σ β : Type}

/-- One round of a list decoder: an entry of at most the bytes it took is added to the list. -/
def AddsEntry (decodeEntry : FileDecoder σ Unit) (list : σ → List β) (put : List β → σ → σ)
    (Good : β → Prop) (size : β → Nat) : Prop :=
  ∀ o bs o' rest, decodeEntry o bs = .done () o' rest →
    ∃ b, Good b ∧ size b + rest.length ≤ bs.length ∧ o' = put (list o ++ [b]) o

theorem times_adds {decodeEntry : FileDecoder σ Unit} {list : σ → List β}
    {put : List β → σ → σ} {Good : β → Prop} {size : β → Nat}
    (hentry : AddsEntry decodeEntry list put Good size) (list_put : ∀ bs o, list (put bs o) = bs)
    (put_put : ∀ bs cs o, put bs (put cs o) = put bs o) (put_list : ∀ o, put (list o) o = o)
    {n : Nat} {o o' : σ} {bs rest : Bytes} (h : times n decodeEntry o bs = .done () o' rest) :
    ∃ entries, entries.length = n ∧ (∀ b ∈ entries, Good b) ∧
      (entries.map size).sum + rest.length ≤ bs.length ∧ o' = put (list o ++ entries) o := by
  -- after k rounds k good entries have been added, and their bytes have been taken
  have hinv := times_done (k := 0) (I := fun k o₁ mid => ∃ entries : List β, entries.length = k ∧
      (∀ b ∈ entries, Good b) ∧ (entries.map size).sum + mid.length ≤ bs.length ∧
      o₁ = put (list o ++ entries) o) ?_
    ⟨[], rfl, List.forall_mem_nil _, by simp, by rw [List.append_nil, put_list]⟩ h
  · rwa [Nat.zero_add] at hinv
  · rintro k o₂ mid o₃ rest₃ ⟨entries, hlen, hgood, hsum, rfl⟩ hbody
    obtain ⟨b, hb, hsize, rfl⟩ := hentry _ _ _ _ hbody
    refine ⟨entries ++ [b], by rw [List.length_append, hlen, List.length_singleton], ?_, ?_, ?_⟩
    · intro c hc
      rcases List.mem_append.mp hc with hc | hc
      · exact hgood c hc
      · rw [List.mem_singleton.mp hc]
        exact hb
    · rw [List.map_append, List.sum_append, List.map_singleton, List.sum_singleton]
      omega
    · rw [list_put, put_put, List.append_assoc]

theorem decodeList_done {minimumSize : Nat} {tooSmall moreData : String}
    {setVersion : Arinc615aVersion → σ → σ} {decodeEntry : FileDecoder σ Unit}
    {list : σ → List β} {put : List β → σ → σ} {Good : β → Prop} {size : β → Nat}
    (hentry : AddsEntry decodeEntry list put Good size) (list_put : ∀ bs o, list (put bs o) = bs)
    (put_put : ∀ bs cs o, put bs (put cs o) = put bs o) (put_list : ∀ o, put (list o) o = o)
    {o o' : σ} {bs rest : Bytes}
    (h : decodeList raw minimumSize tooSmall moreData setVersion decodeEntry o bs =
      .done () o' rest) :
    ∃ version entries, version.Supported ∧ entries.length ≤ 65535 ∧ (∀ b ∈ entries, Good b) ∧
      headerSize + 2 + (entries.map size).sum < 2 ^ 32 ∧
      o' = put (list (setVersion version o) ++ entries) (setVersion version o) := by
  unfold decodeList at h
  obtain ⟨version, body, hversion, -, hmax, -, h⟩ := decodeStart_bind_done raw h
  obtain ⟨count, list₀, hcount, h⟩ := read_bind_done h
  obtain ⟨⟨⟩, o₁, last, hloop, hend⟩ := bind_done h
  obtain ⟨-, rfl, -⟩ := require_done hend
  obtain ⟨entries, hlen, hgood, hsum, ho⟩ := times_adds hentry list_put put_put put_list hloop
  have hlt := count.toNat_lt
  -- the count took two bytes, the entries took theirs
  obtain ⟨w, rfl, hw⟩ := (raw.uint16.read_reads.ok body list₀).mp ⟨count, hcount⟩
  have hw : w.length = 2 := hw
  rw [List.length_append, hw] at hmax
  exact ⟨version, entries, hversion, by omega, hgood, by omega, ho⟩

/-- A list file is read to its end. -/
theorem decodeList_rest {minimumSize : Nat} {tooSmall moreData : String}
    {setVersion : Arinc615aVersion → σ → σ} {decodeEntry : FileDecoder σ Unit} {o o' : σ}
    {bs rest : Bytes}
    (h : decodeList raw minimumSize tooSmall moreData setVersion decodeEntry o bs =
      .done () o' rest) : rest = [] := by
  unfold decodeList at h
  obtain ⟨version, body, -, -, -, -, h⟩ := decodeStart_bind_done raw h
  obtain ⟨count, list₀, -, h⟩ := read_bind_done h
  obtain ⟨⟨⟩, o₁, last, -, hend⟩ := bind_done h
  obtain ⟨hempty, -, rfl⟩ := require_done hend
  exact List.isEmpty_iff.mp hempty

theorem encodeStatusList_ok_iff {tooMany : String}
    {encodeEntry : β → Except Arinc615aException Bytes} {version : Arinc615aVersion}
    {status : Status} {listRatio : Ratio} {entries : List β} :
    (∃ bytes, encodeStatusList raw tooMany encodeEntry version status listRatio entries =
        .ok bytes) ↔
      status.description.length ≤ 253 ∧ entries.length ≤ 65535 ∧
        ∀ b ∈ entries, ∃ w, encodeEntry b = .ok w := by
  rw [← stringEncode_ok_iff raw]
  unfold encodeStatusList
  constructor
  · rintro ⟨bytes, h⟩
    obtain ⟨rawDescription, hdescription, h⟩ := bind_eq_ok h
    by_cases hcount : 65535 < entries.length
    · rw [if_pos hcount] at h
      cases h
    · rw [if_neg hcount] at h
      obtain ⟨rawData, hloop, -⟩ := bind_eq_ok h
      exact ⟨⟨rawDescription, hdescription⟩, Nat.not_lt.mp hcount,
        (appendEach_ok_iff _).mp ⟨rawData, hloop⟩⟩
  · rintro ⟨⟨rawDescription, hdescription⟩, hcount, hentry⟩
    obtain ⟨rawData, hloop⟩ := (appendEach_ok_iff _).mpr hentry
    rw [hdescription]
    simp only [bind, Except.bind]
    rw [if_neg (Nat.not_lt.mpr hcount), hloop]
    exact ⟨_, rfl⟩

/-- A file with a status and a list that was accepted: which writes it consists of. -/
theorem decodeStatusList_done {setVersion : Arinc615aVersion → σ → σ}
    {modifyStatus : (Status → Status) → σ → σ} {setListRatio : Ratio → σ → σ}
    {setEntries : List β → σ → σ} {decodeEntry : FileDecoder σ β} {Good : β → Prop}
    (hentry : ∀ o bs b o' rest, decodeEntry o bs = .done b o' rest → o' = o ∧ Good b)
    {o o' : σ} {bs rest : Bytes}
    (h : decodeStatusList raw setVersion modifyStatus setListRatio setEntries decodeEntry o bs =
      .done () o' rest) :
    ∃ (version : Arinc615aVersion) (status : Status) (listRatio : Ratio) (entries : List β),
      version.Supported ∧ status.code.Known ∧ TextRead status.description ∧
      entries.length ≤ 65535 ∧ (∀ b ∈ entries, Good b) ∧
      o' = setEntries entries (setListRatio listRatio
        (modifyStatus (fun s => { s with estimatedTime := status.estimatedTime })
        (modifyStatus (fun s => { s with exceptionTimer := status.exceptionTimer })
        (modifyStatus (fun s => { s with counter := status.counter })
        (modifyStatus (fun s => { s with description := status.description })
        (modifyStatus (fun s => s.setCode status.code) (setVersion version o))))))) := by
  unfold decodeStatusList at h
  obtain ⟨version, body, hversion, -, -, -, h⟩ := decodeStart_bind_done raw h
  obtain ⟨intStatusCode, bs₁, -, h⟩ := read_bind_done h
  obtain ⟨code, hcode, h⟩ := check_bind_done h
  obtain ⟨description, bs₂, hdescription, h⟩ := read_bind_done h
  obtain ⟨counter, bs₃, -, h⟩ := read_bind_done h
  obtain ⟨exceptionTimer, bs₄, -, h⟩ := read_bind_done h
  obtain ⟨estimatedTime, bs₅, -, h⟩ := read_bind_done h
  obtain ⟨listRatio, bs₆, -, h⟩ := read_bind_done h
  obtain ⟨count, bs₇, -, h⟩ := read_bind_done h
  obtain ⟨entries, o₁, last, hloop, h⟩ := bind_done h
  obtain ⟨rfl, hlen, hgood⟩ := collect_forall hentry hloop
  obtain ⟨-, rfl, -⟩ := require_done h
  have hlt := count.toNat_lt
  exact ⟨version, ⟨counter, exceptionTimer, estimatedTime, code, description⟩, listRatio, entries,
    hversion, statusCode_known hcode, (stringDecode_done raw hdescription).1, by omega, hgood, rfl⟩

end Lists

/-- What was read can be written, and what is written is read as the same file. -/
def ComesBack {σ : Type} (encode : σ → Except Arinc615aException Bytes)
    (decode : Bytes → Outcome Arinc615aException σ Unit) (file : σ) : Prop :=
  ∃ bytes, encode file = .ok bytes ∧ (decode bytes).object? = some file

theorem done_of_object? {χ σ : Type} {out : Outcome χ σ Unit} {o : σ}
    (h : out.object? = some o) : ∃ rest, out = .done () o rest := by
  cases out with
  | done a o' rest =>
    cases h
    exact ⟨rest, rfl⟩
  | thrown e o' => cases h

theorem comesBack_iff_of {σ : Type} {encode : σ → Except Arinc615aException Bytes}
    {decode : Bytes → Outcome Arinc615aException σ Unit} {file : σ} {P : Prop}
    (hencode : ∀ bytes, encode file = .ok bytes → P)
    (hback : P → ∃ bytes, encode file = .ok bytes ∧ decode bytes = .done () file []) :
    ComesBack encode decode file ↔ P := by
  constructor
  · rintro ⟨bytes, hbytes, -⟩
    exact hencode bytes hbytes
  · intro h
    obtain ⟨bytes, hbytes, hdecode⟩ := hback h
    exact ⟨bytes, hbytes, by rw [hdecode]; rfl⟩

/-! ## The nine files -/

namespace InitializationFile

def texts (file : InitializationFile) : List Text := [file.response.description]

theorem encode_ok_iff (file : InitializationFile) :
    (∃ bytes, encode raw file = .ok bytes) ↔ file.response.description.length ≤ 253 := by
  rw [← stringEncode_ok_iff raw]
  unfold encode
  constructor
  · rintro ⟨bytes, h⟩
    obtain ⟨rawMessage, hmessage, -⟩ := bind_eq_ok h
    exact ⟨rawMessage, hmessage⟩
  · rintro ⟨rawMessage, hmessage⟩
    rw [hmessage]
    exact ⟨_, rfl⟩

theorem decode_done {o file : InitializationFile} {b rest : Bytes}
    (h : decode raw o b = .done () file rest) :
    file.protocolVersion.Supported ∧ file.response.code ≠ .operationDeferred ∧
      TextRead file.response.description := by
  unfold decode at h
  obtain ⟨version, body, hversion, -, -, -, h⟩ := decodeStart_bind_done raw h
  obtain ⟨intStatusCode, bs₁, -, h⟩ := read_bind_done h
  obtain ⟨code, hcode, h⟩ := check_bind_done h
  obtain ⟨description, bs₂, hdescription, h⟩ := read_bind_done h
  obtain ⟨-, rfl, -⟩ := require_done h
  exact ⟨hversion, operationAcceptanceStatusCode_ne hcode, (stringDecode_done raw hdescription).1⟩

theorem comesBack_iff {b : Bytes} {file : InitializationFile}
    (h : (decode raw {} b).object? = some file) :
    ComesBack (encode raw) (decode raw {}) file ↔ ∀ t ∈ file.texts, t.length ≤ 253 := by
  obtain ⟨rest, h⟩ := done_of_object? h
  obtain ⟨hversion, hcode, htext⟩ := decode_done raw h
  rw [texts, List.forall_mem_singleton]
  refine comesBack_iff_of (fun bytes hbytes => (encode_ok_iff raw file).mp ⟨bytes, hbytes⟩) ?_
  exact fun hlen => decode_encode raw ⟨hversion, hcode, htext.fits_iff.mpr hlen⟩

end InitializationFile

namespace InformationOperationStatusFile

def texts (file : InformationOperationStatusFile) : List Text := [file.status.description]

theorem encode_ok_iff (file : InformationOperationStatusFile) :
    (∃ bytes, encode raw file = .ok bytes) ↔ file.status.description.length ≤ 253 := by
  rw [← stringEncode_ok_iff raw]
  unfold encode
  constructor
  · rintro ⟨bytes, h⟩
    obtain ⟨rawStatusDescription, hdescription, -⟩ := bind_eq_ok h
    exact ⟨rawStatusDescription, hdescription⟩
  · rintro ⟨rawStatusDescription, hdescription⟩
    rw [hdescription]
    exact ⟨_, rfl⟩

theorem decode_done {o file : InformationOperationStatusFile} {b rest : Bytes}
    (h : decode raw o b = .done () file rest) :
    file.protocolVersion.Supported ∧ file.status.code.Known ∧
      TextRead file.status.description := by
  unfold decode at h
  obtain ⟨version, body, hversion, -, -, -, h⟩ := decodeStart_bind_done raw h
  obtain ⟨counter, bs₁, -, h⟩ := read_bind_done h
  obtain ⟨intStatusCode, bs₂, -, h⟩ := read_bind_done h
  obtain ⟨code, hcode, h⟩ := check_bind_done h
  obtain ⟨exceptionTimer, bs₃, -, h⟩ := read_bind_done h
  obtain ⟨estimatedTime, bs₄, -, h⟩ := read_bind_done h
  obtain ⟨description, bs₅, hdescription, h⟩ := read_bind_done h
  obtain ⟨-, rfl, -⟩ := require_done h
  exact ⟨hversion, statusCode_known hcode, (stringDecode_done raw hdescription).1⟩

theorem comesBack_iff {b : Bytes} {file : InformationOperationStatusFile}
    (h : (decode raw {} b).object? = some file) :
    ComesBack (encode raw) (decode raw {}) file ↔ ∀ t ∈ file.texts, t.length ≤ 253 := by
  obtain ⟨rest, h⟩ := done_of_object? h
  obtain ⟨hversion, hcode, htext⟩ := decode_done raw h
  rw [texts, List.forall_mem_singleton]
  refine comesBack_iff_of (fun bytes hbytes => (encode_ok_iff raw file).mp ⟨bytes, hbytes⟩) ?_
  exact fun hlen => decode_encode raw ⟨hversion, hcode, htext.fits_iff.mpr hlen⟩

end InformationOperationStatusFile

namespace UploadOperationRequestFile

def texts (file : UploadOperationRequestFile) : List Text :=
  file.loads.flatMap fun load => [load.headerFilename, load.partNumber]

theorem decodeLoad_adds :
    AddsEntry (decodeLoad raw) (fun o => o.loads) (fun loads o => { o with loads := loads })
      (fun load => TextRead load.headerFilename ∧ TextRead load.partNumber)
      fun load => stringSize load.headerFilename + stringSize load.partNumber := by
  intro o bs o' rest h
  obtain ⟨headerFilename, bs₁, hfilename, h⟩ := read_bind_done h
  obtain ⟨partNumber, bs₂, hpartNumber, h⟩ := read_bind_done h
  cases h
  obtain ⟨h1, hsize1⟩ := stringDecode_done raw hfilename
  obtain ⟨h2, hsize2⟩ := stringDecode_done raw hpartNumber
  exact ⟨{ headerFilename, partNumber }, ⟨h1, h2⟩, by dsimp only; omega, rfl⟩

theorem comesBack_iff {b : Bytes} {file : UploadOperationRequestFile}
    (h : (decode raw {} b).object? = some file) :
    ComesBack (encode raw) (decode raw {}) file ↔ ∀ t ∈ file.texts, t.length ≤ 253 := by
  obtain ⟨rest, h⟩ := done_of_object? h
  obtain ⟨version, loads, hversion, hcount, hgood, -, rfl⟩ :=
    decodeList_done raw (decodeLoad_adds raw) (fun _ _ => rfl) (fun _ _ _ => rfl) (fun _ => rfl) h
  simp only [texts, List.nil_append, List.forall_mem_flatMap, List.forall_mem_cons,
    List.not_mem_nil, false_implies, implies_true, and_true]
  refine comesBack_iff_of (fun bytes hbytes load hload => ?_) fun hlen => ?_
  · have hfits := (encode_ok_iff raw _).mp ⟨bytes, hbytes⟩
    exact ⟨hfits.headerFilename load hload, hfits.partNumber load hload⟩
  · obtain ⟨bytes, hbytes⟩ := (encode_ok_iff raw { protocolVersion := version, loads }).mpr
      ⟨hcount, fun load h => (hlen load h).1, fun load h => (hlen load h).2⟩
    exact ⟨bytes, hbytes, decode_encode raw hversion
      (fun load h => ⟨(hgood load h).1.2, (hgood load h).2.2⟩) hbytes⟩

end UploadOperationRequestFile

namespace UploadOperationStatusFile

def texts (file : UploadOperationStatusFile) : List Text :=
  file.status.description ::
    file.status.loads.flatMap fun load => [load.headerFilename, load.partNumber, load.description]

theorem encodeLoad_ok_iff (load : UploadLoadStatus) :
    (∃ w, encodeLoad raw load = .ok w) ↔ load.headerFilename.length ≤ 253 ∧
      load.partNumber.length ≤ 253 ∧ load.description.length ≤ 253 := by
  constructor
  · rintro ⟨w, h⟩
    obtain ⟨rawHeaderFilename, hfilename, h⟩ := bind_eq_ok h
    obtain ⟨rawLoadPartNumber, hpartNumber, h⟩ := bind_eq_ok h
    obtain ⟨rawLoadDescription, hdescription, -⟩ := bind_eq_ok h
    exact ⟨(stringEncode_eq_ok hfilename).1, (stringEncode_eq_ok hpartNumber).1,
      (stringEncode_eq_ok hdescription).1⟩
  · rintro ⟨hfilename, hpartNumber, hdescription⟩
    unfold encodeLoad
    rw [stringEncode_short raw hfilename, stringEncode_short raw hpartNumber,
      stringEncode_short raw hdescription]
    exact ⟨_, rfl⟩

theorem decodeLoad_done (o : UploadOperationStatusFile) (bs : Bytes) (load : UploadLoadStatus)
    (o' : UploadOperationStatusFile) (rest : Bytes) (h : decodeLoad raw o bs = .done load o' rest) :
    o' = o ∧ TextRead load.headerFilename ∧ TextRead load.partNumber ∧ load.code.Known ∧
      TextRead load.description := by
  obtain ⟨headerFilename, bs₁, hfilename, h⟩ := read_bind_done h
  obtain ⟨loadPartNumber, bs₂, hpartNumber, h⟩ := read_bind_done h
  obtain ⟨loadRatio, bs₃, -, h⟩ := read_bind_done h
  obtain ⟨intLoadStatusCode, bs₄, -, h⟩ := read_bind_done h
  obtain ⟨loadStatusDescription, bs₅, hdescription, h⟩ := read_bind_done h
  obtain ⟨code, hcode, h⟩ := check_bind_done h
  cases h
  exact ⟨rfl, (stringDecode_done raw hfilename).1, (stringDecode_done raw hpartNumber).1,
    statusCode_known hcode, (stringDecode_done raw hdescription).1⟩

theorem comesBack_iff {b : Bytes} {file : UploadOperationStatusFile}
    (h : (decode raw {} b).object? = some file) :
    ComesBack (encode raw) (decode raw {}) file ↔ ∀ t ∈ file.texts, t.length ≤ 253 := by
  obtain ⟨rest, h⟩ := done_of_object? h
  obtain ⟨version, status, listRatio, loads, hversion, hcode, htext, hcount, hgood, rfl⟩ :=
    decodeStatusList_done raw (decodeLoad_done raw) h
  simp only [texts, List.forall_mem_flatMap, List.forall_mem_cons, List.not_mem_nil,
    false_implies, implies_true, and_true]
  refine comesBack_iff_of (fun bytes hbytes => ?_) fun hlen => decode_encode raw ?_
  · obtain ⟨hdescription, -, hloads⟩ := (encodeStatusList_ok_iff raw).mp ⟨bytes, hbytes⟩
    exact ⟨hdescription, fun load hload => (encodeLoad_ok_iff raw load).mp (hloads load hload)⟩
  · refine ⟨hversion, hcode, htext.fits_iff.mpr hlen.1, hcount, fun load hload => ?_⟩
    obtain ⟨h1, h2, hknown, h3⟩ := hgood load hload
    obtain ⟨hlen1, hlen2, hlen3⟩ := hlen.2 load hload
    exact ⟨h1.fits_iff.mpr hlen1, h2.fits_iff.mpr hlen2, hknown, h3.fits_iff.mpr hlen3⟩

end UploadOperationStatusFile

namespace DownloadOperationRequestFile

def texts (file : DownloadOperationRequestFile) : List Text := file.files

theorem decodeFile_adds :
    AddsEntry (decodeFile raw) (fun o => o.files) (fun files o => { o with files := files })
      TextRead stringSize := by
  intro o bs o' rest h
  obtain ⟨filename, bs₁, hfilename, h⟩ := read_bind_done h
  cases h
  obtain ⟨htext, hsize⟩ := stringDecode_done raw hfilename
  exact ⟨filename, htext, hsize, rfl⟩

theorem decode_done {b rest : Bytes} {file : DownloadOperationRequestFile}
    (h : decode raw {} b = .done () file rest) :
    file.protocolVersion.Supported ∧ file.files.length ≤ 65535 ∧
      (∀ filename ∈ file.files, TextRead filename) ∧ file.userDefinedData.length ≤ 255 := by
  unfold decode at h
  obtain ⟨version, body, hversion, -, hmax, -, h⟩ := decodeStart_bind_done raw h
  obtain ⟨numberOfFiles, bs₁, -, h⟩ := read_bind_done h
  obtain ⟨⟨⟩, o₁, bs₂, hloop, h⟩ := bind_done h
  obtain ⟨userDefinedDataLength, data, -, h⟩ := read_bind_done h
  obtain ⟨hlength, h⟩ := require_bind_done h
  cases h
  obtain ⟨files, hlen, hgood, -, rfl⟩ := times_adds (decodeFile_adds raw) (fun _ _ => rfl)
    (fun _ _ _ => rfl) (fun _ => rfl) hloop
  have hcount := numberOfFiles.toNat_lt
  have hbyte := userDefinedDataLength.toNat_lt
  have hdata : data.length = userDefinedDataLength.toNat := by simpa using hlength
  exact ⟨hversion, by dsimp only [List.nil_append]; omega, hgood, by dsimp only; omega⟩

theorem comesBack_iff {b : Bytes} {file : DownloadOperationRequestFile}
    (h : (decode raw {} b).object? = some file) :
    ComesBack (encode raw) (decode raw {}) file ↔ ∀ t ∈ file.texts, t.length ≤ 253 := by
  obtain ⟨rest, h⟩ := done_of_object? h
  obtain ⟨hversion, hcount, hgood, hdata⟩ := decode_done raw h
  refine comesBack_iff_of (fun bytes hbytes => ?_) fun hlen => ?_
  · exact ((encode_ok_iff raw file).mp ⟨bytes, hbytes⟩).files.filename
  · obtain ⟨bytes, hbytes⟩ := (encode_ok_iff raw file).mpr ⟨⟨hcount, hlen⟩, hdata⟩
    exact ⟨bytes, hbytes, decode_encode raw hversion (fun f hf => (hgood f hf).2) hbytes⟩

end DownloadOperationRequestFile

namespace DownloadOperationListFile

def texts (file : DownloadOperationListFile) : List Text :=
  file.files.flatMap fun info => [info.filename, info.description]

theorem decodeFile_adds :
    AddsEntry (decodeFile raw) (fun o => o.files) (fun files o => { o with files := files })
      (fun info => TextRead info.filename ∧ TextRead info.description)
      fun info => stringSize info.filename + stringSize info.description := by
  intro o bs o' rest h
  obtain ⟨filename, bs₁, hfilename, h⟩ := read_bind_done h
  obtain ⟨description, bs₂, hdescription, h⟩ := read_bind_done h
  cases h
  obtain ⟨h1, hsize1⟩ := stringDecode_done raw hfilename
  obtain ⟨h2, hsize2⟩ := stringDecode_done raw hdescription
  exact ⟨{ filename, description }, ⟨h1, h2⟩, by dsimp only; omega, rfl⟩

theorem comesBack_iff {b : Bytes} {file : DownloadOperationListFile}
    (h : (decode raw {} b).object? = some file) :
    ComesBack (encode raw) (decode raw {}) file ↔ ∀ t ∈ file.texts, t.length ≤ 253 := by
  obtain ⟨rest, h⟩ := done_of_object? h
  obtain ⟨version, files, hversion, hcount, hgood, -, rfl⟩ :=
    decodeList_done raw (decodeFile_adds raw) (fun _ _ => rfl) (fun _ _ _ => rfl) (fun _ => rfl) h
  simp only [texts, List.nil_append, List.forall_mem_flatMap, List.forall_mem_cons,
    List.not_mem_nil, false_implies, implies_true, and_true]
  refine comesBack_iff_of (fun bytes hbytes info hinfo => ?_) fun hlen => ?_
  · have hfits := (encode_ok_iff raw _).mp ⟨bytes, hbytes⟩
    exact ⟨hfits.filename info hinfo, hfits.description info hinfo⟩
  · obtain ⟨bytes, hbytes⟩ := (encode_ok_iff raw { protocolVersion := version, files }).mpr
      ⟨hcount, fun info h => (hlen info h).1, fun info h => (hlen info h).2⟩
    exact ⟨bytes, hbytes, decode_encode raw hversion
      (fun info h => ⟨(hgood info h).1.2, (hgood info h).2.2⟩) hbytes⟩

end DownloadOperationListFile

namespace DownloadOperationAnswerFile

def texts (file : DownloadOperationAnswerFile) : List Text := file.files

theorem decodeFile_adds :
    AddsEntry (decodeFile raw) (fun o => o.files) (fun files o => { o with files := files })
      TextRead stringSize := by
  intro o bs o' rest h
  obtain ⟨filename, bs₁, hfilename, h⟩ := read_bind_done h
  cases h
  obtain ⟨htext, hsize⟩ := stringDecode_done raw hfilename
  exact ⟨filename, htext, hsize, rfl⟩

theorem comesBack_iff {b : Bytes} {file : DownloadOperationAnswerFile}
    (h : (decode raw {} b).object? = some file) :
    ComesBack (encode raw) (decode raw {}) file ↔ ∀ t ∈ file.texts, t.length ≤ 253 := by
  obtain ⟨rest, h⟩ := done_of_object? h
  obtain ⟨version, files, hversion, hcount, hgood, -, rfl⟩ :=
    decodeList_done raw (decodeFile_adds raw) (fun _ _ => rfl) (fun _ _ _ => rfl) (fun _ => rfl) h
  refine comesBack_iff_of (fun bytes hbytes => ?_) fun hlen => ?_
  · exact ((encode_ok_iff raw _).mp ⟨bytes, hbytes⟩).filename
  · obtain ⟨bytes, hbytes⟩ := (encode_ok_iff raw { protocolVersion := version, files }).mpr
      ⟨hcount, hlen⟩
    exact ⟨bytes, hbytes, decode_encode raw hversion (fun f hf => (hgood f hf).2) hbytes⟩

end DownloadOperationAnswerFile

namespace DownloadOperationStatusFile

def texts (file : DownloadOperationStatusFile) : List Text :=
  file.status.description :: file.status.files.flatMap fun f => [f.filename, f.description]

theorem encodeFile_ok_iff (file : DownloadFileStatus) :
    (∃ w, encodeFile raw file = .ok w) ↔
      file.filename.length ≤ 253 ∧ file.description.length ≤ 253 := by
  constructor
  · rintro ⟨w, h⟩
    obtain ⟨rawFilename, hfilename, h⟩ := bind_eq_ok h
    obtain ⟨rawStatusDescription, hdescription, -⟩ := bind_eq_ok h
    exact ⟨(stringEncode_eq_ok hfilename).1, (stringEncode_eq_ok hdescription).1⟩
  · rintro ⟨hfilename, hdescription⟩
    unfold encodeFile
    rw [stringEncode_short raw hfilename, stringEncode_short raw hdescription]
    exact ⟨_, rfl⟩

theorem decodeFile_done (o : DownloadOperationStatusFile) (bs : Bytes) (file : DownloadFileStatus)
    (o' : DownloadOperationStatusFile) (rest : Bytes)
    (h : decodeFile raw o bs = .done file o' rest) :
    o' = o ∧ TextRead file.filename ∧ file.code.Known ∧ TextRead file.description := by
  obtain ⟨filename, bs₁, hfilename, h⟩ := read_bind_done h
  obtain ⟨intFileStatusCode, bs₂, -, h⟩ := read_bind_done h
  obtain ⟨fileStatusDescription, bs₃, hdescription, h⟩ := read_bind_done h
  obtain ⟨code, hcode, h⟩ := check_bind_done h
  cases h
  exact ⟨rfl, (stringDecode_done raw hfilename).1, statusCode_known hcode,
    (stringDecode_done raw hdescription).1⟩

theorem comesBack_iff {b : Bytes} {file : DownloadOperationStatusFile}
    (h : (decode raw {} b).object? = some file) :
    ComesBack (encode raw) (decode raw {}) file ↔ ∀ t ∈ file.texts, t.length ≤ 253 := by
  obtain ⟨rest, h⟩ := done_of_object? h
  obtain ⟨version, status, listRatio, files, hversion, hcode, htext, hcount, hgood, rfl⟩ :=
    decodeStatusList_done raw (decodeFile_done raw) h
  simp only [texts, List.forall_mem_flatMap, List.forall_mem_cons, List.not_mem_nil,
    false_implies, implies_true, and_true]
  refine comesBack_iff_of (fun bytes hbytes => ?_) fun hlen => decode_encode raw ?_
  · obtain ⟨hdescription, -, hfiles⟩ := (encodeStatusList_ok_iff raw).mp ⟨bytes, hbytes⟩
    exact ⟨hdescription, fun f hf => (encodeFile_ok_iff raw f).mp (hfiles f hf)⟩
  · refine ⟨hversion, hcode, htext.fits_iff.mpr hlen.1, hcount, fun f hf => ?_⟩
    obtain ⟨h1, hknown, h2⟩ := hgood f hf
    exact ⟨h1.fits_iff.mpr (hlen.2 f hf).1, hknown, h2.fits_iff.mpr (hlen.2 f hf).2⟩

end DownloadOperationStatusFile

namespace LoadConfigurationListFile

def texts (file : LoadConfigurationListFile) : List Text :=
  file.targetsHardware.flatMap fun thw => thw.literalName :: thw.serialNumber ::
    thw.partNumbers.flatMap fun p => [p.partNumber, p.amendment, p.partDesignation]

def PartNumberRead (p : PartNumber) : Prop :=
  TextRead p.partNumber ∧ TextRead p.amendment ∧ TextRead p.partDesignation

structure TargetHardwareRead (thw : TargetHardware) : Prop where
  literalName : TextRead thw.literalName
  serialNumber : TextRead thw.serialNumber
  count : thw.partNumbers.length ≤ 65535
  partNumbers : ∀ p ∈ thw.partNumbers, PartNumberRead p

theorem decodePartNumber_done {o o' : LoadConfigurationListFile} {bs rest : Bytes}
    {p : PartNumber} (h : decodePartNumber raw o bs = .done p o' rest) :
    o' = o ∧ PartNumberRead p ∧ partNumberSize p + rest.length ≤ bs.length := by
  obtain ⟨partNumber, bs₁, hpartNumber, h⟩ := read_bind_done h
  obtain ⟨amendment, bs₂, hamendment, h⟩ := read_bind_done h
  obtain ⟨partDesignation, bs₃, hpartDesignation, h⟩ := read_bind_done h
  cases h
  obtain ⟨h1, hsize1⟩ := stringDecode_done raw hpartNumber
  obtain ⟨h2, hsize2⟩ := stringDecode_done raw hamendment
  obtain ⟨h3, hsize3⟩ := stringDecode_done raw hpartDesignation
  exact ⟨rfl, ⟨h1, h2, h3⟩, by dsimp only [partNumberSize]; omega⟩

theorem partNumbers_done {n : Nat} {o o' : LoadConfigurationListFile} {bs rest : Bytes}
    {ps : List PartNumber} (h : collect n (decodePartNumber raw) o bs = .done ps o' rest) :
    o' = o ∧ ps.length = n ∧ (∀ p ∈ ps, PartNumberRead p) ∧
      (ps.map partNumberSize).sum + rest.length ≤ bs.length := by
  have hloop := collect_done (I := fun ps o₁ mid => o₁ = o ∧
      (∀ p ∈ ps, PartNumberRead p) ∧ (ps.map partNumberSize).sum + mid.length ≤ bs.length) ?_
    ⟨rfl, List.forall_mem_nil _, by simp⟩ h
  · exact ⟨hloop.1.1, hloop.2, hloop.1.2.1, hloop.1.2.2⟩
  · rintro ps o₁ mid p o₂ rest₂ ⟨rfl, hgood, hsum⟩ hp
    obtain ⟨rfl, hread, hsize⟩ := decodePartNumber_done raw hp
    refine ⟨rfl, fun q hq => ?_, ?_⟩
    · rcases List.mem_append.mp hq with hq | hq
      · exact hgood q hq
      · rw [List.mem_singleton.mp hq]
        exact hread
    · rw [List.map_append, List.sum_append, List.map_singleton, List.sum_singleton]
      omega

theorem decodeTargetHardware_adds :
    AddsEntry (decodeTargetHardware raw) (fun o => o.targetsHardware)
      (fun records o => { o with targetsHardware := records }) TargetHardwareRead
      targetHardwareSize := by
  intro o bs o' rest h
  obtain ⟨literalName, bs₁, hliteral, h⟩ := read_bind_done h
  obtain ⟨serialNumber, bs₂, hserial, h⟩ := read_bind_done h
  obtain ⟨partNumbersCount, bs₃, hcount, h⟩ := read_bind_done h
  obtain ⟨partNumbers, o₁, bs₄, hloop, h⟩ := bind_done h
  cases h
  obtain ⟨rfl, hlen, hgood, hsum⟩ := partNumbers_done raw hloop
  obtain ⟨h1, hsize1⟩ := stringDecode_done raw hliteral
  obtain ⟨h2, hsize2⟩ := stringDecode_done raw hserial
  obtain ⟨w, rfl, hw⟩ := (raw.uint16.read_reads.ok bs₂ bs₃).mp ⟨partNumbersCount, hcount⟩
  have hw : w.length = 2 := hw
  have hlt := partNumbersCount.toNat_lt
  rw [List.length_append, hw] at hsize2
  exact ⟨{ literalName, serialNumber, partNumbers }, ⟨h1, h2, by dsimp only; omega, hgood⟩,
    by dsimp only [targetHardwareSize]; omega, rfl⟩

theorem TargetHardwareRead.fits {thw : TargetHardware} (h : TargetHardwareRead thw)
    (hliteral : thw.literalName.length ≤ 253) (hserial : thw.serialNumber.length ≤ 253)
    (hparts : ∀ p ∈ thw.partNumbers, p.partNumber.length ≤ 253 ∧ p.amendment.length ≤ 253 ∧
      p.partDesignation.length ≤ 253) : TargetHardwareFits thw where
  literalName := h.literalName.fits_iff.mpr hliteral
  serialNumber := h.serialNumber.fits_iff.mpr hserial
  count := h.count
  partNumbers p hp := by
    obtain ⟨h1, h2, h3⟩ := h.partNumbers p hp
    obtain ⟨hlen1, hlen2, hlen3⟩ := hparts p hp
    exact ⟨h1.fits_iff.mpr hlen1, h2.fits_iff.mpr hlen2, h3.fits_iff.mpr hlen3⟩

theorem nulFree_of_read (version : Arinc615aVersion) {records : List TargetHardware}
    (h : ∀ thw ∈ records, TargetHardwareRead thw) :
    NulFree { protocolVersion := version, targetsHardware := records } where
  literalName thw hthw := (h thw hthw).literalName.2
  serialNumber thw hthw := (h thw hthw).serialNumber.2
  partNumbers thw hthw p hp :=
    ⟨((h thw hthw).partNumbers p hp).1.2, ((h thw hthw).partNumbers p hp).2.1.2,
      ((h thw hthw).partNumbers p hp).2.2.2⟩

/-- The list can also shrink below the size that its decoder asks for. -/
theorem comesBack_iff {b : Bytes} {file : LoadConfigurationListFile}
    (h : (decode raw {} b).object? = some file) :
    ComesBack (encode raw) (decode raw {}) file ↔
      (∀ t ∈ file.texts, t.length ≤ 253) ∧ headerSize + 13 ≤ encodedSize file := by
  obtain ⟨rest, h⟩ := done_of_object? h
  obtain ⟨version, records, hversion, hcount, hgood, hmax, rfl⟩ :=
    decodeList_done raw (decodeTargetHardware_adds raw) (fun _ _ => rfl) (fun _ _ _ => rfl)
      (fun _ => rfl) h
  have hnul := nulFree_of_read version hgood
  simp only [texts, List.nil_append, List.forall_mem_flatMap, List.forall_mem_cons,
    List.not_mem_nil, false_implies, implies_true, and_true]
  constructor
  · rintro ⟨bytes, hbytes, hobject⟩
    obtain ⟨rest', hdecode⟩ := done_of_object? hobject
    have hrest := decodeList_rest raw hdecode
    subst hrest
    have hsize := (decode_encode_iff raw hversion hnul hbytes).mp hdecode
    obtain ⟨-, hfits⟩ := encode_fits raw hnul hbytes
    refine ⟨fun thw hthw => ⟨(hfits thw hthw).literalName.1, (hfits thw hthw).serialNumber.1,
      fun p hp => ?_⟩, hsize.1⟩
    have hp := (hfits thw hthw).partNumbers p hp
    exact ⟨hp.partNumber.1, hp.amendment.1, hp.partDesignation.1⟩
  · rintro ⟨hlen, hmin⟩
    have hfits : ∀ thw ∈ records, TargetHardwareFits thw := fun thw hthw =>
      (hgood thw hthw).fits (hlen thw hthw).1 (hlen thw hthw).2.1 (hlen thw hthw).2.2
    have hbytes : encode raw { protocolVersion := version, targetsHardware := records } = .ok _ :=
      encodeList_ok raw hcount fun thw hthw => encodeTargetHardware_ok raw (hfits thw hthw)
    refine ⟨_, hbytes, ?_⟩
    -- what was read had a size for the header, and writing it again drops bytes only
    rw [(decode_encode_iff raw hversion hnul hbytes).mpr ⟨hmin, hmax⟩]
    rfl

end LoadConfigurationListFile

/-- What a decoder accepts can be written and read again exactly when no string has 254 characters;
a load configuration list must also keep the size its decoder asks for. -/
theorem accepted_comesBack_iff :
    (∀ b file, (InitializationFile.decode raw {} b).object? = some file →
      (ComesBack (InitializationFile.encode raw) (InitializationFile.decode raw {}) file ↔
        ∀ t ∈ file.texts, t.length ≤ 253)) ∧
    (∀ b file, (InformationOperationStatusFile.decode raw {} b).object? = some file →
      (ComesBack (InformationOperationStatusFile.encode raw)
          (InformationOperationStatusFile.decode raw {}) file ↔
        ∀ t ∈ file.texts, t.length ≤ 253)) ∧
    (∀ b file, (LoadConfigurationListFile.decode raw {} b).object? = some file →
      (ComesBack (LoadConfigurationListFile.encode raw)
          (LoadConfigurationListFile.decode raw {}) file ↔
        (∀ t ∈ file.texts, t.length ≤ 253) ∧ headerSize + 13 ≤ file.encodedSize)) ∧
    (∀ b file, (UploadOperationRequestFile.decode raw {} b).object? = some file →
      (ComesBack (UploadOperationRequestFile.encode raw)
          (UploadOperationRequestFile.decode raw {}) file ↔
        ∀ t ∈ file.texts, t.length ≤ 253)) ∧
    (∀ b file, (UploadOperationStatusFile.decode raw {} b).object? = some file →
      (ComesBack (UploadOperationStatusFile.encode raw)
          (UploadOperationStatusFile.decode raw {}) file ↔
        ∀ t ∈ file.texts, t.length ≤ 253)) ∧
    (∀ b file, (DownloadOperationRequestFile.decode raw {} b).object? = some file →
      (ComesBack (DownloadOperationRequestFile.encode raw)
          (DownloadOperationRequestFile.decode raw {}) file ↔
        ∀ t ∈ file.texts, t.length ≤ 253)) ∧
    (∀ b file, (DownloadOperationListFile.decode raw {} b).object? = some file →
      (ComesBack (DownloadOperationListFile.encode raw)
          (DownloadOperationListFile.decode raw {}) file ↔
        ∀ t ∈ file.texts, t.length ≤ 253)) ∧
    (∀ b file, (DownloadOperationAnswerFile.decode raw {} b).object? = some file →
      (ComesBack (DownloadOperationAnswerFile.encode raw)
          (DownloadOperationAnswerFile.decode raw {}) file ↔
        ∀ t ∈ file.texts, t.length ≤ 253)) ∧
    (∀ b file, (DownloadOperationStatusFile.decode raw {} b).object? = some file →
      (ComesBack (DownloadOperationStatusFile.encode raw)
          (DownloadOperationStatusFile.decode raw {}) file ↔
        ∀ t ∈ file.texts, t.length ≤ 253)) :=
  ⟨fun _ _ h => InitializationFile.comesBack_iff raw h,
    fun _ _ h => InformationOperationStatusFile.comesBack_iff raw h,
    fun _ _ h => LoadConfigurationListFile.comesBack_iff raw h,
    fun _ _ h => UploadOperationRequestFile.comesBack_iff raw h,
    fun _ _ h => UploadOperationStatusFile.comesBack_iff raw h,
    fun _ _ h => DownloadOperationRequestFile.comesBack_iff raw h,
    fun _ _ h => DownloadOperationListFile.comesBack_iff raw h,
    fun _ _ h => DownloadOperationAnswerFile.comesBack_iff raw h,
    fun _ _ h => DownloadOperationStatusFile.comesBack_iff raw h⟩

/-- An answer with one filename that has a byte behind its NUL. -/
theorem accepted_comesBack_answer :
    let file : DownloadOperationAnswerFile := { files := [text "A"] }
    ComesBack (DownloadOperationAnswerFile.encode .bigEndian)
        (DownloadOperationAnswerFile.decode .bigEndian {}) file ↔
      ∀ t ∈ file.texts, t.length ≤ 253 :=
  (accepted_comesBack_iff .bigEndian).2.2.2.2.2.2.2.1
    [0, 0, 0, 12, 0x41, 0x34, 0, 1, 3, 0x41, 0, 7] _ (by decide +kernel)

/-- A request with a header filename of 254 characters, as its length byte of 255 allows. -/
def longFilenameRequest : Bytes :=
  [0, 0, 1, 9, 0x41, 0x34, 0, 1, 255] ++ List.replicate 254 0x61 ++ [0, 0]

/-- The request is accepted, and neither it nor a status with this header filename can be written. -/
theorem longFilenameRequest_not_comesBack :
    let file : UploadOperationRequestFile :=
      { loads := [{ headerFilename := List.replicate 254 0x61, partNumber := [] }] }
    (UploadOperationRequestFile.decode .bigEndian {} longFilenameRequest).object? = some file ∧
      ¬ComesBack (UploadOperationRequestFile.encode .bigEndian)
        (UploadOperationRequestFile.decode .bigEndian {}) file ∧
      UploadOperationStatusFile.encode .bigEndian
          { status :=
            { code := .operationAccepted, loads := [{ headerFilename := List.replicate 254 0x61 }] } } =
        .error ⟨"string too long"⟩ := by
  refine ⟨by decide +kernel, ?_, by decide +kernel⟩
  rintro ⟨bytes, hbytes, -⟩
  have hfits := (UploadOperationRequestFile.encode_ok_iff .bigEndian _).mp ⟨bytes, hbytes⟩
  have hlen := hfits.headerFilename _ (.head _)
  rw [List.length_replicate] at hlen
  omega

end Arinc615a.Files
