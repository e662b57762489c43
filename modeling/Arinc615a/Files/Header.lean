import Arinc615a.Files.DownloadFiles
import Arinc615a.Files.UploadFiles

/-!
# The header of the request files

`decodeHeader` accepts a request file that `encode` has written exactly if its version is supported,
and gets that version from it.
-/

open Reasoning

namespace Arinc615a.Files

variable {raw : RawDataCodec} {bytes : Bytes}

/-- A file with the header that `insertHeader` writes, and a size that fits the header. -/
def HasHeader (raw : RawDataCodec) (version : Arinc615aVersion) (bytes : Bytes) : Prop :=
  ∃ body, bytes = insertHeader raw version (headerSpace ++ body) ∧ 6 + body.length < 2 ^ 32

theorem supportedVersion_eq_some {version version' : Arinc615aVersion} :
    supportedVersion version.toUnderlying = some version' ↔
      version' = version ∧ version.Supported := by
  cases version <;> cases version' <;>
    simp [supportedVersion, Arinc615aVersion.toUnderlying, Arinc615aVersion.Supported]

/-- The version in the header is the only one that the file can be accepted with. -/
theorem HasHeader.decodeHeader_iff {version version' : Arinc615aVersion}
    (h : HasHeader raw version bytes) :
    (∃ rest, decodeHeader raw bytes = .ok (version', rest)) ↔
      version' = version ∧ version.Supported := by
  obtain ⟨body, rfl, hsize⟩ := h
  by_cases hversion : version.Supported
  · rw [decodeHeader_insertHeader raw hversion body hsize]
    refine ⟨fun ⟨rest, heq⟩ => ?_, fun ⟨heq, _⟩ => ⟨body, by rw [heq]⟩⟩
    cases heq
    exact ⟨rfl, hversion⟩
  · have hlength : (6 + body.length).toUInt32.toNat = 6 + body.length := by
      change (UInt32.ofNat _).toNat = _
      rw [UInt32.toNat_ofNat', Nat.mod_eq_of_lt hsize]
    have hnone : supportedVersion version.toUnderlying = none := by
      cases hsome : supportedVersion version.toUnderlying with
      | none => rfl
      | some found => exact absurd (supportedVersion_eq_some.mp hsome).2 hversion
    have htotal := length_written raw version body
    refine iff_of_false (fun ⟨rest, heq⟩ => ?_) fun heq => hversion heq.2
    unfold decodeHeader at heq
    rw [if_neg (by rw [htotal, headerSize]; omega), htotal, insertHeader_headerSpace] at heq
    simp only [WordCodec.read_encode, bind, Except.bind, hlength, ne_eq, not_true_eq_false,
      if_false, hnone] at heq
    cases heq

/-- The header tells the version, supported or not. -/
theorem HasHeader.version_unique {version version' : Arinc615aVersion}
    (h : HasHeader raw version bytes) (h' : HasHeader raw version' bytes) : version = version' := by
  obtain ⟨body, rfl, -⟩ := h
  obtain ⟨body', heq, -⟩ := h'
  rw [insertHeader_headerSpace, insertHeader_headerSpace] at heq
  have hsizes : (raw.uint32.encode (6 + body.length).toUInt32).length =
      (raw.uint32.encode (6 + body'.length).toUInt32).length := by
    rw [WordCodec.length_encode, WordCodec.length_encode]
  have hversions := (List.append_inj (List.append_inj heq hsizes).2 (by simp)).1
  have hsame := congrArg raw.uint16.decode hversions
  rw [WordCodec.decode_encode, WordCodec.decode_encode] at hsame
  cases version <;> cases version' <;> first | rfl | exact absurd hsame (by decide)

theorem UploadOperationRequestFile.encode_hasHeader {file : UploadOperationRequestFile}
    (h : encode raw file = .ok bytes) : HasHeader raw file.protocolVersion bytes := by
  have hfits := (encode_ok_iff raw file).mp ⟨bytes, h⟩
  have hwritten : ∀ load ∈ file.loads, encodeLoad raw load = .ok (loadBytes raw load) :=
    fun load hload =>
      encodeLoad_ok raw (hfits.headerFilename load hload) (hfits.partNumber load hload)
  have hsize := length_listBytes_le raw hfits.count fun load hload =>
    length_loadBytes raw (hfits.headerFilename load hload) (hfits.partNumber load hload)
  unfold encode at h
  rw [encodeList_ok raw hfits.count hwritten] at h
  cases h
  exact ⟨_, rfl, Nat.lt_of_le_of_lt hsize (by decide)⟩

theorem DownloadOperationRequestFile.encode_hasHeader {file : DownloadOperationRequestFile}
    (h : encode raw file = .ok bytes) : HasHeader raw file.protocolVersion bytes := by
  have hfits := (encode_ok_iff raw file).mp ⟨bytes, h⟩
  rw [encode_ok raw hfits] at h
  cases h
  have hlen := filenames_length raw hfits.files
  have hdata := hfits.userDefinedData
  refine ⟨_, rfl, ?_⟩
  simp only [List.length_append, WordCodec.length_encode]
  omega

theorem DownloadOperationAnswerFile.encode_hasHeader {file : DownloadOperationAnswerFile}
    (h : encode raw file = .ok bytes) : HasHeader raw file.protocolVersion bytes := by
  have hfits := (encode_ok_iff raw file).mp ⟨bytes, h⟩
  have hwritten : ∀ filename ∈ file.files,
      stringEncode raw filename = .ok (stringBytes raw filename) :=
    fun filename hfile => stringEncode_short raw (hfits.filename filename hfile)
  have hfilename : ∀ filename ∈ file.files, (stringBytes raw filename).length ≤ 255 := by
    intro filename hfile
    rw [length_stringBytes]
    exact stringSize_le (hfits.filename filename hfile)
  have hsize := length_listBytes_le raw hfits.count hfilename
  unfold encode at h
  rw [encodeList_ok raw hfits.count hwritten] at h
  cases h
  exact ⟨_, rfl, Nat.lt_of_le_of_lt hsize (by decide)⟩

end Arinc615a.Files
