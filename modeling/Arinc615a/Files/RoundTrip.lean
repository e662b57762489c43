import Arinc615a.Files.DownloadFiles
import Arinc615a.Files.InformationFiles
import Arinc615a.Files.InitializationFile
import Arinc615a.Files.UploadFiles

/-!
# What the encoders write and the decoders read back
-/

open Reasoning

namespace Arinc615a.Files

open Information

/-- The initialisation file and the three status files come back as they were written. -/
theorem statusFiles_decode_encode (raw : RawDataCodec) :
    (∀ file : InitializationFile, file.WellFormed → ∃ bytes,
      InitializationFile.encode raw file = .ok bytes ∧
        InitializationFile.decode raw {} bytes = .done () file []) ∧
    (∀ file : InformationOperationStatusFile, file.WellFormed → ∃ bytes,
      InformationOperationStatusFile.encode raw file = .ok bytes ∧
        InformationOperationStatusFile.decode raw {} bytes = .done () file []) ∧
    (∀ file : UploadOperationStatusFile, file.WellFormed → ∃ bytes,
      UploadOperationStatusFile.encode raw file = .ok bytes ∧
        UploadOperationStatusFile.decode raw {} bytes = .done () file []) ∧
    (∀ file : DownloadOperationStatusFile, file.WellFormed → ∃ bytes,
      DownloadOperationStatusFile.encode raw file = .ok bytes ∧
        DownloadOperationStatusFile.decode raw {} bytes = .done () file []) :=
  ⟨fun _ h => InitializationFile.decode_encode raw h,
    fun _ h => InformationOperationStatusFile.decode_encode raw h,
    fun _ h => UploadOperationStatusFile.decode_encode raw h,
    fun _ h => DownloadOperationStatusFile.decode_encode raw h⟩

theorem statusFiles_decode_encode_upload :
    let file : UploadOperationStatusFile :=
      { protocolVersion := .arinc615a34
        status :=
          { counter := 65535, exceptionTimer := 2, estimatedTime := -1
            code := .operationInProgress, description := text "loading", listRatio := ⟨100, by decide⟩
            loads := [{
              headerFilename := text "A.LUH", partNumber := [], ratio := ⟨7, by decide⟩
              code := .operationCompleted, description := [] }] } }
    ∃ bytes, UploadOperationStatusFile.encode .bigEndian file = .ok bytes ∧
      UploadOperationStatusFile.decode .bigEndian {} bytes = .done () file [] := by
  refine (statusFiles_decode_encode .bigEndian).2.2.1 _ ⟨by decide, by decide, by decide,
    by decide, ?_⟩
  intro load hload
  -- one load: each of its fields is checked
  cases List.mem_singleton.mp hload
  exact ⟨by decide, by decide, by decide, by decide⟩

/-- The list files are written exactly when every bound holds, and what is written comes back. -/
theorem listFiles_encode_iff_and_decode (raw : RawDataCodec) :
    (∀ file : UploadOperationRequestFile, file.protocolVersion.Supported → file.NulFree →
      ((∃ bytes, UploadOperationRequestFile.encode raw file = .ok bytes) ↔ file.Fits) ∧
      (¬file.Fits → ∃ e, UploadOperationRequestFile.encode raw file = .error e) ∧
      ∀ bytes, UploadOperationRequestFile.encode raw file = .ok bytes →
        UploadOperationRequestFile.decode raw {} bytes = .done () file []) ∧
    (∀ file : DownloadOperationRequestFile, file.protocolVersion.Supported → file.NulFree →
      ((∃ bytes, DownloadOperationRequestFile.encode raw file = .ok bytes) ↔ file.Fits) ∧
      (¬file.Fits → ∃ e, DownloadOperationRequestFile.encode raw file = .error e) ∧
      ∀ bytes, DownloadOperationRequestFile.encode raw file = .ok bytes →
        DownloadOperationRequestFile.decode raw {} bytes = .done () file []) ∧
    (∀ file : DownloadOperationListFile, file.protocolVersion.Supported → file.NulFree →
      ((∃ bytes, DownloadOperationListFile.encode raw file = .ok bytes) ↔ file.Fits) ∧
      (¬file.Fits → ∃ e, DownloadOperationListFile.encode raw file = .error e) ∧
      ∀ bytes, DownloadOperationListFile.encode raw file = .ok bytes →
        DownloadOperationListFile.decode raw {} bytes = .done () file []) ∧
    (∀ file : DownloadOperationAnswerFile, file.protocolVersion.Supported → file.NulFree →
      ((∃ bytes, DownloadOperationAnswerFile.encode raw file = .ok bytes) ↔ file.Fits) ∧
      (¬file.Fits → ∃ e, DownloadOperationAnswerFile.encode raw file = .error e) ∧
      ∀ bytes, DownloadOperationAnswerFile.encode raw file = .ok bytes →
        DownloadOperationAnswerFile.decode raw {} bytes = .done () file []) := by
  refine ⟨?_, ?_, ?_, ?_⟩
  -- the same three parts for each kind of file: the bounds, their converse, and the way back
  · intro file hversion hnul
    have hiff := UploadOperationRequestFile.encode_ok_iff raw file
    exact ⟨hiff, fun h => error_of_not_ok (h ∘ hiff.mp),
      fun _ h => UploadOperationRequestFile.decode_encode raw hversion hnul h⟩
  · intro file hversion hnul
    have hiff := DownloadOperationRequestFile.encode_ok_iff raw file
    exact ⟨hiff, fun h => error_of_not_ok (h ∘ hiff.mp),
      fun _ h => DownloadOperationRequestFile.decode_encode raw hversion hnul h⟩
  · intro file hversion hnul
    have hiff := DownloadOperationListFile.encode_ok_iff raw file
    exact ⟨hiff, fun h => error_of_not_ok (h ∘ hiff.mp),
      fun _ h => DownloadOperationListFile.decode_encode raw hversion hnul h⟩
  · intro file hversion hnul
    have hiff := DownloadOperationAnswerFile.encode_ok_iff raw file
    exact ⟨hiff, fun h => error_of_not_ok (h ∘ hiff.mp),
      fun _ h => DownloadOperationAnswerFile.decode_encode raw hversion hnul h⟩

theorem listFiles_decode_request :
    let file : DownloadOperationRequestFile :=
      { files := [text "DUMP.BIN", []], userDefinedData := [0, 255, 7] }
    ((∃ bytes, DownloadOperationRequestFile.encode .bigEndian file = .ok bytes) ↔ file.Fits) ∧
    (¬file.Fits → ∃ e, DownloadOperationRequestFile.encode .bigEndian file = .error e) ∧
    ∀ bytes, DownloadOperationRequestFile.encode .bigEndian file = .ok bytes →
      DownloadOperationRequestFile.decode .bigEndian {} bytes = .done () file [] :=
  (listFiles_encode_iff_and_decode .bigEndian).2.1 _ (by decide) (by
    intro filename hfile
    simp only [List.mem_cons, List.not_mem_nil, or_false] at hfile
    rcases hfile with rfl | rfl <;> decide)

/-- A load configuration list that is written is read back exactly when it has at least the size
that `decode` asks for and its size fits the header. -/
theorem loadConfigurationListFile_decode_encode_iff (raw : RawDataCodec)
    (file : LoadConfigurationListFile) (hversion : file.protocolVersion.Supported)
    (hnul : file.NulFree) (bytes : Bytes)
    (h : LoadConfigurationListFile.encode raw file = .ok bytes) :
    LoadConfigurationListFile.decode raw {} bytes = .done () file [] ↔
      headerSize + 13 ≤ file.encodedSize ∧ file.encodedSize < 2 ^ 32 :=
  LoadConfigurationListFile.decode_encode_iff raw hversion hnul h

/-- A record with a part number, and one without. -/
theorem loadConfigurationListFile_decode_encode_two :
    let file : LoadConfigurationListFile :=
      { targetsHardware :=
          [{ literalName := text "FMC1", serialNumber := text "1"
             partNumbers :=
               [{ partNumber := text "P1", amendment := text "A", partDesignation := [] }] },
            { literalName := text "GPU", serialNumber := [], partNumbers := [] }] }
    let bytes : Bytes :=
      [0, 0, 0, 35, 0x41, 0x34, 0, 2,
        5, 0x46, 0x4D, 0x43, 0x31, 0, 2, 0x31, 0, 0, 1, 3, 0x50, 0x31, 0, 2, 0x41, 0, 0,
        4, 0x47, 0x50, 0x55, 0, 0, 0, 0]
    LoadConfigurationListFile.encode .bigEndian file = .ok bytes ∧
      LoadConfigurationListFile.decode .bigEndian {} bytes = .done () file [] := by
  intro file bytes
  have hnul : file.NulFree :=
    { literalName := by decide, serialNumber := by decide, partNumbers := by decide }
  have hencode : LoadConfigurationListFile.encode .bigEndian file = .ok bytes := by decide +kernel
  refine ⟨hencode, ?_⟩
  refine (loadConfigurationListFile_decode_encode_iff .bigEndian file (by decide) hnul bytes
    hencode).mpr ?_
  decide

/-- The list of a target without hardware records has eight bytes, and its reader wants 19. -/
theorem loadConfigurationListFile_empty_rejected :
    LoadConfigurationListFile.encode .bigEndian {} = .ok [0, 0, 0, 8, 0x41, 0x34, 0, 0] ∧
      LoadConfigurationListFile.decode .bigEndian {} [0, 0, 0, 8, 0x41, 0x34, 0, 0] =
        .thrown (.exception ⟨"Protocol file to small"⟩) {} :=
  ⟨rfl, rfl⟩

end Arinc615a.Files
