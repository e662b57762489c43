import Arinc615a.Files.DownloadFiles
import Arinc615a.Files.InformationFiles
import Arinc615a.Files.InitializationFile
import Arinc615a.Files.UploadFiles

/-!
# Where the decoders run past their span

Strings and ratios look at the size of the span before they read.  Integers do not, so a file that
ends inside one of them is overrun unless the minimum size of the decoder covers the integer.
-/

open Reasoning Reasoning.Decoder

namespace Arinc615a.Files

variable {σ α : Type} (raw : RawDataCodec)

/-- A decoder whose minimum size covers all unguarded fields stays within its span. -/
theorem Cuts.never {d : FileDecoder σ α} {minimumSize : Nat} {layout : Layout}
    (h : Cuts d (Truncated raw minimumSize layout))
    (hcovered : layout.CoveredBy (minimumSize - headerSize)) (o : σ) (rawData : Bytes) :
    ¬(d o rawData).Overran := by
  rw [h o rawData]
  exact not_truncated raw hcovered rawData

/-- Five decoders never read past the end of their span.  The other four do so exactly when the
file ends inside an unguarded integer behind well-formed fields. -/
theorem decoders_overran_iff :
    (∀ o rawData, ¬(InitializationFile.decode raw o rawData).Overran) ∧
    (∀ o rawData, ¬(InformationOperationStatusFile.decode raw o rawData).Overran) ∧
    (∀ o rawData, ¬(UploadOperationRequestFile.decode raw o rawData).Overran) ∧
    (∀ o rawData, ¬(DownloadOperationListFile.decode raw o rawData).Overran) ∧
    (∀ o rawData, ¬(DownloadOperationAnswerFile.decode raw o rawData).Overran) ∧
    (∀ o rawData, (LoadConfigurationListFile.decode raw o rawData).Overran ↔
      Truncated raw (headerSize + 13) (LoadConfigurationListFile.layout raw) rawData) ∧
    (∀ o rawData, (UploadOperationStatusFile.decode raw o rawData).Overran ↔
      Truncated raw (headerSize + 9) (UploadOperationStatusFile.layout raw) rawData) ∧
    (∀ o rawData, (DownloadOperationRequestFile.decode raw o rawData).Overran ↔
      Truncated raw (headerSize + 3) (DownloadOperationRequestFile.layout raw) rawData) ∧
    (∀ o rawData, (DownloadOperationStatusFile.decode raw o rawData).Overran ↔
      Truncated raw (headerSize + 9) (DownloadOperationStatusFile.layout raw) rawData) :=
  ⟨Cuts.never raw (InitializationFile.cuts_decode raw) (InitializationFile.layout_covered raw),
    Cuts.never raw (InformationOperationStatusFile.cuts_decode raw)
      (InformationOperationStatusFile.layout_covered raw),
    Cuts.never raw (UploadOperationRequestFile.cuts_decode raw)
      (UploadOperationRequestFile.layout_covered raw),
    Cuts.never raw (DownloadOperationListFile.cuts_decode raw)
      (DownloadOperationListFile.layout_covered raw),
    Cuts.never raw (DownloadOperationAnswerFile.cuts_decode raw)
      (DownloadOperationAnswerFile.layout_covered raw),
    LoadConfigurationListFile.cuts_decode raw, UploadOperationStatusFile.cuts_decode raw,
    DownloadOperationRequestFile.cuts_decode raw, DownloadOperationStatusFile.cuts_decode raw⟩

/-- The description of an upload status fills the file, and no byte is left for the counter. -/
theorem uploadOperationStatusFile_cut_overruns :
    (UploadOperationStatusFile.decode .bigEndian {}
      [0, 0, 0, 15, 0x41, 0x34, 0, 2, 6, 0x61, 0x62, 0x63, 0x64, 0x65, 0]).Overran := by
  decide +kernel

end Arinc615a.Files
