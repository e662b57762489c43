import Arinc615a.Reasoning.Terminated
import Arinc615a.Tftp

/-!
# FIND packets

The packets by which targets are found, `find/packets/`: an opcode, a list of terminated
parameters, and a byte that ends the packet.
-/

open Reasoning

namespace Arinc615a.Find

open Files Tftp

inductive Opcode where
  | informationRequest
  | informationAnswer
  | invalid
  deriving DecidableEq, Repr

def Opcode.toUnderlying : Opcode → UInt16
  | .informationRequest => 1
  | .informationAnswer => 2
  | .invalid => 0xFFFF

/-- The opcodes that a packet may have. -/
def Opcode.ofUnderlying (opcode : UInt16) : Opcode :=
  if opcode = Opcode.informationRequest.toUnderlying then .informationRequest
  else if opcode = Opcode.informationAnswer.toUnderlying then .informationAnswer
  else .invalid

@[simp] theorem Opcode.ofUnderlying_toUnderlying (opcode : Opcode) :
    Opcode.ofUnderlying opcode.toUnderlying = opcode := by
  cases opcode <;> rfl

theorem Opcode.toUnderlying_ofUnderlying {opcode : UInt16}
    (h : Opcode.ofUnderlying opcode ≠ .invalid) :
    (Opcode.ofUnderlying opcode).toUnderlying = opcode := by
  unfold Opcode.ofUnderlying at h ⊢
  split_ifs at h ⊢ with hrequest hanswer
  · exact hrequest.symm
  · exact hanswer.symm
  · exact absurd rfl h

/-- Thrown for data that is not a packet. -/
structure InvalidFindPacket where
  additionalInfo : String
  deriving DecidableEq, Repr

structure Packet where
  opcode : Opcode
  parameters : List Text
  deriving DecidableEq, Repr

namespace Packet

def maxPacketSize : Nat := 1024

def packetTerminator : UInt8 := 0x10

def stringTerminator : UInt8 := 0x00

def packetType (raw : RawDataCodec) (rawPacket : Bytes) : Opcode :=
  if rawPacket.length < 2 then .invalid
  else .ofUnderlying (raw.uint16.decode (rawPacket.take 2))

def throwInfo {α : Type} (additionalInfo : String) : Except (Failure InvalidFindPacket) α :=
  .error (.exception ⟨additionalInfo⟩)

/-- The loop over the parameters, each of which ends at its terminator. -/
def decodeParameters (opcode : Opcode) (parametersString : Text) :
    Except (Failure InvalidFindPacket) Packet :=
  match split stringTerminator parametersString with
  | none => throwInfo "String Terminator missing"
  | some [] => throwInfo "Packet must contain at least one (empty) parameter"
  | some parameters => .ok ⟨opcode, parameters⟩

/-- The constructor that loads a packet from received data. -/
def decode (raw : RawDataCodec) (rawPacket : Bytes) :
    Except (Failure InvalidFindPacket) Packet :=
  if rawPacket.length ≤ 2 then throwInfo s!"Packet to small: {rawPacket.length}"
  else if rawPacket.getLast? ≠ some packetTerminator then
    throwInfo "Packet is not terminated by packet terminator"
  else do
    let (intOpcode, remainingData) ← raw.uint16.read rawPacket.dropLast
    if Opcode.ofUnderlying intOpcode = .invalid then throwInfo "Invalid opcode"
    else
      let (parametersString, _) ← Reader.take remainingData.length remainingData
      decodeParameters (Opcode.ofUnderlying intOpcode) parametersString

def encode (raw : RawDataCodec) (packet : Packet) : Bytes :=
  raw.uint16.encode packet.opcode.toUnderlying ++
    terminate stringTerminator packet.parameters ++ [packetTerminator]

/-- A packet with a number of empty parameters. -/
def ofOpcode (opcode : Opcode) (numberOfParameters : Nat) : Packet :=
  ⟨opcode, List.replicate numberOfParameters []⟩

@[simp] theorem packetType_append (raw : RawDataCodec) (intOpcode : UInt16) (rest : Bytes) :
    packetType raw (raw.uint16.encode intOpcode ++ rest) = .ofUnderlying intOpcode := by
  unfold packetType
  have hsize : ¬(raw.uint16.encode intOpcode ++ rest).length < 2 := by
    rw [List.length_append, raw.uint16.length_encode]
    omega
  rw [if_neg hsize, List.take_left' (raw.uint16.length_encode intOpcode), raw.uint16.decode_encode]

/-- A packet that is long enough has an opcode, a body and a last byte. -/
theorem exists_parts (raw : RawDataCodec) {rawPacket : Bytes} (h : 2 < rawPacket.length) :
    ∃ intOpcode body last, rawPacket = raw.uint16.encode intOpcode ++ body ++ [last] := by
  have htake : (rawPacket.take 2).length = 2 := List.length_take_of_le (Nat.le_of_lt h)
  have hdrop : rawPacket.drop 2 ≠ [] := by
    rw [ne_eq, List.drop_eq_nil_iff]
    omega
  refine ⟨raw.uint16.decode (rawPacket.take 2), (rawPacket.drop 2).dropLast,
    (rawPacket.drop 2).getLast hdrop, ?_⟩
  rw [raw.uint16.encode_decode _ htake, List.append_assoc, List.dropLast_append_getLast,
    List.take_append_drop]

theorem decode_short (raw : RawDataCodec) {rawPacket : Bytes} (h : rawPacket.length ≤ 2) :
    decode raw rawPacket = throwInfo s!"Packet to small: {rawPacket.length}" := by
  unfold decode
  rw [if_pos h]

theorem decode_append (raw : RawDataCodec) (intOpcode : UInt16) (body : Bytes) (last : UInt8) :
    decode raw (raw.uint16.encode intOpcode ++ body ++ [last]) =
      if last ≠ packetTerminator then throwInfo "Packet is not terminated by packet terminator"
      else if Opcode.ofUnderlying intOpcode = .invalid then throwInfo "Invalid opcode"
      else decodeParameters (Opcode.ofUnderlying intOpcode) body := by
  unfold decode
  have hsize : ¬(raw.uint16.encode intOpcode ++ body ++ [last]).length ≤ 2 := by
    simp
  rw [if_neg hsize, List.getLast?_concat, List.dropLast_concat, raw.uint16.read_encode]
  simp only [ne_eq, Option.some.injEq, bind, Except.bind, Reader.take_of_le (Nat.le_refl _),
    List.take_length]

theorem decodeParameters_ne_overrun (opcode : Opcode) (parametersString : Text) :
    decodeParameters opcode parametersString ≠ .error .overrun := by
  unfold decodeParameters
  split
  · intro h
    cases h
  · intro h
    cases h
  · intro h
    cases h

/-- The checks before the reads are enough. -/
theorem decode_ne_overrun (raw : RawDataCodec) (rawPacket : Bytes) :
    decode raw rawPacket ≠ .error .overrun := by
  rcases Nat.lt_or_ge 2 rawPacket.length with hsize | hsize
  · obtain ⟨intOpcode, body, last, rfl⟩ := exists_parts raw hsize
    rw [decode_append]
    split
    · intro h
      cases h
    · split
      · intro h
        cases h
      · exact decodeParameters_ne_overrun _ _
  · rw [decode_short raw hsize]
    intro h
    cases h

/-- A packet whose parameters hold no terminator is read back. -/
theorem decode_encode (raw : RawDataCodec) {packet : Packet} (hopcode : packet.opcode ≠ .invalid)
    (hparameters : packet.parameters ≠ [])
    (hfree : ∀ parameter ∈ packet.parameters, stringTerminator ∉ parameter) :
    decode raw (encode raw packet) = .ok packet := by
  unfold encode
  rw [decode_append, Opcode.ofUnderlying_toUnderlying, if_neg (not_not.mpr rfl), if_neg hopcode,
    decodeParameters, split_terminate hfree]
  split
  next h => cases h
  next h => exact absurd (Option.some.inj h) hparameters
  next h =>
    cases h
    rfl

/-- The packets that are accepted, each in the one form in which it is written. -/
theorem decode_eq_ok_iff (raw : RawDataCodec) {rawPacket : Bytes} {packet : Packet} :
    decode raw rawPacket = .ok packet ↔
      packet.opcode ≠ .invalid ∧ packet.parameters ≠ [] ∧
        (∀ parameter ∈ packet.parameters, stringTerminator ∉ parameter) ∧
        rawPacket = encode raw packet := by
  constructor
  · intro h
    rcases Nat.lt_or_ge 2 rawPacket.length with hsize | hsize
    · obtain ⟨intOpcode, body, last, rfl⟩ := exists_parts raw hsize
      rw [decode_append] at h
      split_ifs at h with hlast hopcode
      · cases h
      · cases h
      · unfold decodeParameters at h
        split at h
        · cases h
        · cases h
        case h_3 parameters hnil hsplit =>
          cases h
          obtain ⟨hbody, hfree⟩ := split_eq_some_iff.mp hsplit
          have hword : (Opcode.ofUnderlying intOpcode).toUnderlying = intOpcode :=
            Opcode.toUnderlying_ofUnderlying hopcode
          refine ⟨hopcode, hnil, hfree, ?_⟩
          rw [encode, hword, hbody, not_not.mp hlast]
    · rw [decode_short raw hsize] at h
      cases h
  · rintro ⟨hopcode, hparameters, hfree, rfl⟩
    exact decode_encode raw hopcode hparameters hfree

theorem encode_informationRequest (parameters : List Text) :
    encode .bigEndian ⟨.informationRequest, parameters⟩ =
      [0, 1] ++ terminate 0 parameters ++ [0x10] := by
  have hopcode : RawDataCodec.bigEndian.uint16.encode 1 = [0, 1] := by decide
  exact congrArg (· ++ terminate 0 parameters ++ [0x10]) hopcode

theorem encode_informationAnswer (parameters : List Text) :
    encode .bigEndian ⟨.informationAnswer, parameters⟩ =
      [0, 2] ++ terminate 0 parameters ++ [0x10] := by
  have hopcode : RawDataCodec.bigEndian.uint16.encode 2 = [0, 2] := by decide
  exact congrArg (· ++ terminate 0 parameters ++ [0x10]) hopcode

/-- The language of the packets, and that decoding and encoding are inverses of each other. -/
theorem packets_accepted_comeBack :
    (∀ rawPacket, (∃ packet, decode .bigEndian rawPacket = .ok packet) ↔
      ∃ opcode parameters, (opcode = 1 ∨ opcode = 2) ∧ parameters ≠ [] ∧
        (∀ parameter ∈ parameters, (0 : UInt8) ∉ parameter) ∧
        rawPacket = [0, opcode] ++ terminate 0 parameters ++ [0x10]) ∧
    (∀ rawPacket packet, decode .bigEndian rawPacket = .ok packet →
      encode .bigEndian packet = rawPacket) ∧
    ∀ packet : Packet, packet.opcode = .informationRequest ∨ packet.opcode = .informationAnswer →
      packet.parameters ≠ [] → (∀ parameter ∈ packet.parameters, (0 : UInt8) ∉ parameter) →
      decode .bigEndian (encode .bigEndian packet) = .ok packet := by
  refine ⟨fun rawPacket => ⟨?_, ?_⟩, fun rawPacket packet h => ?_,
    fun packet hopcode hparameters hfree => ?_⟩
  · rintro ⟨⟨opcode, parameters⟩, h⟩
    obtain ⟨hopcode, hparameters, hfree, rfl⟩ := (decode_eq_ok_iff .bigEndian).mp h
    cases opcode with
    | informationRequest =>
      exact ⟨1, parameters, .inl rfl, hparameters, hfree, encode_informationRequest parameters⟩
    | informationAnswer =>
      exact ⟨2, parameters, .inr rfl, hparameters, hfree, encode_informationAnswer parameters⟩
    | invalid => exact absurd rfl hopcode
  · rintro ⟨opcode, parameters, rfl | rfl, hparameters, hfree, rfl⟩
    · exact ⟨⟨.informationRequest, parameters⟩, (decode_eq_ok_iff .bigEndian).mpr
        ⟨by simp, hparameters, hfree, (encode_informationRequest parameters).symm⟩⟩
    · exact ⟨⟨.informationAnswer, parameters⟩, (decode_eq_ok_iff .bigEndian).mpr
        ⟨by simp, hparameters, hfree, (encode_informationAnswer parameters).symm⟩⟩
  · exact ((decode_eq_ok_iff .bigEndian).mp h).2.2.2.symm
  · refine decode_encode .bigEndian ?_ hparameters hfree
    rcases hopcode with hopcode | hopcode
    · rw [hopcode]
      simp
    · rw [hopcode]
      simp

/-- An answer with an empty parameter in front of one that holds the last byte of a packet. -/
theorem packets_accepted_comeBack_answer :
    encode .bigEndian ⟨.informationAnswer, [[], [0x10]]⟩ = [0, 2, 0, 0x10, 0, 0x10] ∧
      decode .bigEndian (encode .bigEndian ⟨.informationAnswer, [[], [0x10]]⟩) =
        .ok ⟨.informationAnswer, [[], [0x10]]⟩ :=
  ⟨by decide, packets_accepted_comeBack.2.2 ⟨.informationAnswer, [[], [0x10]]⟩ (.inr rfl)
    (by decide) (by decide)⟩

/-- A packet that is cut short is thrown out, or it has fewer parameters. -/
theorem decode_take_encode (raw : RawDataCodec) {packet : Packet}
    (hfree : ∀ parameter ∈ packet.parameters, stringTerminator ∉ parameter) {n : Nat}
    (hcut : n < (encode raw packet).length) :
    (∃ e, decode raw ((encode raw packet).take n) = .error (.exception e)) ∨
      ∃ cut, decode raw ((encode raw packet).take n) = .ok cut ∧
        cut.parameters.length < packet.parameters.length := by
  rcases Nat.lt_or_ge 2 n with hsize | hsize
  · obtain ⟨m, rfl⟩ := Nat.exists_eq_add_of_lt hsize
    have hm : m < (terminate stringTerminator packet.parameters).length := by
      simp [encode] at hcut
      omega
    -- the last byte that is left is one of the parameters or of their terminators
    have htake : (encode raw packet).take (2 + m + 1) =
        raw.uint16.encode packet.opcode.toUnderlying ++
          (terminate stringTerminator packet.parameters).take m ++
          [(terminate stringTerminator packet.parameters)[m]] := by
      have hfits : 2 + m + 1 ≤ (raw.uint16.encode packet.opcode.toUnderlying ++
          terminate stringTerminator packet.parameters).length := by
        rw [List.length_append, raw.uint16.length_encode]
        omega
      have hword : (raw.uint16.encode packet.opcode.toUnderlying).length ≤ 2 + m + 1 := by
        rw [raw.uint16.length_encode]
        omega
      rw [encode, List.take_append_of_le_length hfits, List.take_append,
        List.take_of_length_le hword, raw.uint16.length_encode, List.append_assoc,
        Nat.add_assoc, Nat.add_sub_cancel_left, List.take_append_getElem hm]
    rw [htake, decode_append]
    split
    next => exact .inl ⟨_, rfl⟩
    split
    next => exact .inl ⟨_, rfl⟩
    unfold decodeParameters
    split
    next => exact .inl ⟨_, rfl⟩
    next => exact .inl ⟨_, rfl⟩
    next hsplit =>
      have hrest : (terminate stringTerminator packet.parameters).drop m ≠ [] := by
        rw [ne_eq, List.drop_eq_nil_iff]
        omega
      exact .inr ⟨_, rfl, length_split_of_cut hfree (List.take_append_drop ..) hrest hsplit⟩
  · have hshort : ((encode raw packet).take n).length ≤ 2 :=
      Nat.le_trans (List.length_take_le ..) hsize
    exact .inl ⟨_, decode_short raw hshort⟩

end Packet

/-- What is done with the packets, by kind. -/
structure PacketHandler (ω : Type) where
  informationRequestPacket : Endpoint → Packet → List ω
  informationAnswerPacket : Endpoint → Packet → List ω
  invalidPacket : Endpoint → Bytes → List ω

/-- `PacketHandler::packet`. -/
def PacketHandler.packet {ω : Type} (handler : PacketHandler ω) (raw : RawDataCodec)
    (remote : Endpoint) (rawPacket : Bytes) : List ω :=
  match Packet.packetType raw rawPacket with
  | .informationRequest =>
    match Packet.decode raw rawPacket with
    | .ok request => handler.informationRequestPacket remote request
    | .error (.exception _) => handler.invalidPacket remote rawPacket
    | .error .overrun => []
  | .informationAnswer =>
    match Packet.decode raw rawPacket with
    | .ok answer => handler.informationAnswerPacket remote answer
    | .error (.exception _) => handler.invalidPacket remote rawPacket
    | .error .overrun => []
  | .invalid => handler.invalidPacket remote rawPacket

structure TargetInformation where
  thwId : Text := []
  thwTypeName : Text := []
  thwPosition : Text := []
  literalName : Text := []
  manufacturerCode : Text := []
  deriving DecidableEq, Repr

/-- The strings in the order of the packet. -/
def TargetInformation.parameters (information : TargetInformation) : List Text :=
  [information.thwId, information.thwTypeName, information.thwPosition, information.literalName,
    information.manufacturerCode]

/-- The packet that the server sends as a response. -/
def Server.response (raw : RawDataCodec) (findInformation : TargetInformation) : Bytes :=
  Packet.encode raw ⟨.informationAnswer, findInformation.parameters⟩

end Arinc615a.Find
