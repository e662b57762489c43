import Arinc615a.Files.Codec

/-!
# Initialisation file (LCI, LUI, LND and LNO)
-/

open Reasoning Reasoning.Decoder

namespace Arinc615a.Files

open Information

structure InitializationFile extends ProtocolFile where
  response : InitializationResponse := {}
  deriving DecidableEq, Repr

namespace InitializationFile

variable (raw : RawDataCodec)

def minFileSize : Nat := headerSize + 3

def encode (file : InitializationFile) : Except Arinc615aException Bytes := do
  let rawData := headerSpace ++ raw.uint16.encode file.response.code.toUnderlying
  let rawMessage ← stringEncode raw file.response.description
  pure (insertHeader raw file.protocolVersion (rawData ++ rawMessage))

def decode : FileDecoder InitializationFile Unit := do
  decodeStart raw minFileSize "Protocol file to small"
    fun protocolVersion file => { file with protocolVersion := protocolVersion }
  let intStatusCode ← read raw.uint16.read
  -- a file cannot hold the code of a deferred operation
  let code ← check (operationAcceptanceStatusCode intStatusCode)
  update fun file => { file with response := { file.response with code := code } }
  let statusDescription ← read (stringDecode raw)
  update fun file =>
    { file with response := { file.response with description := statusDescription } }
  decodeEnd "More data then expected"

/-- A value that the file format can carry. -/
structure WellFormed (file : InitializationFile) : Prop where
  version : file.protocolVersion.Supported
  code : file.response.code ≠ .operationDeferred
  description : TextFits file.response.description

theorem decode_encode {file : InitializationFile} (h : file.WellFormed) :
    ∃ bytes, encode raw file = .ok bytes ∧ decode raw {} bytes = .done () file [] := by
  obtain ⟨hversion, hcode, htext⟩ := h
  -- the two fields behind the header
  let body := raw.uint16.encode file.response.code.toUnderlying ++
    stringBytes raw file.response.description
  refine ⟨insertHeader raw file.protocolVersion (headerSpace ++ body), ?_, ?_⟩
  · unfold encode
    rw [stringEncode_short raw htext.1]
    simp only [bind, Except.bind, pure, Except.pure, List.append_assoc, body]
  · have hpos := stringSize_pos file.response.description
    have hle := stringSize_le htext.1
    have hlen : body.length = 2 + stringSize file.response.description := by
      simp [body, length_stringBytes]
    unfold decode
    rw [bind_run, decodeStart_written raw _ _ hversion _ (by
      rw [hlen, minFileSize, headerSize]; omega) (by rw [hlen]; omega)]
    simp [body, operationAcceptanceStatusCode_toUnderlying hcode,
      read_string_written_last raw htext]

/-- The fields behind the header. -/
def layout : Layout :=
  .field (.checkedWord raw.uint16 fun n => ∃ code, operationAcceptanceStatusCode n = .ok code) <|
  .field (stringField raw) .nil

theorem decode_reads : ReadsFile raw minFileSize (layout raw) (decode raw) := by
  intro α k K hk
  simp only [decode, bind_assoc]
  apply cuts_decodeStart
  apply Cuts.checked
  intro code
  apply Cuts.update_bind
  apply Cuts.field (stringDecode_reads raw)
  intro description
  apply Cuts.update_bind
  exact cuts_decodeEnd _ hk

theorem cuts_decode : Cuts (decode raw) (Truncated raw minFileSize (layout raw)) :=
  (decode_reads raw).cuts

theorem layout_covered : (layout raw).CoveredBy (minFileSize - headerSize) :=
  .inr ⟨(by decide : 2 ≤ 3), fun _ h => h.1, .inl ⟨rfl, trivial⟩⟩

end InitializationFile

end Arinc615a.Files
