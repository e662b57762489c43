import Arinc615a.Find.Packet
import Arinc615a.Reasoning.DatagramSocket

/-!
# The FIND server

`find/servers/implementation/ServerImpl.cpp`: a datagram that is an information request is handed
to the request handler, which may answer it.
-/

open Reasoning

namespace Arinc615a.Find

open Files Tftp

structure Server where
  localEndpoint : Endpoint := ⟨0, 1001⟩
  /-- A request handler is set. -/
  requestHandler : Bool := true
  socket : DatagramSocket Endpoint Packet.maxPacketSize := { remote := ⟨0, 0⟩ }
  deriving DecidableEq

namespace Server

inductive Output where
  | receive
  | requestHandler (remote : Endpoint)
  deriving DecidableEq, Repr

abbrev Reaction := Server × List Output

def receive (server : Server) : Reaction :=
  ({ server with socket := server.socket.receive }, [.receive])

/-- A request is turned down only if it has several parameters and the first one is not empty. -/
def informationRequestPacket (server : Server) (remote : Endpoint) (request : Packet) :
    List Output :=
  if request.parameters.length ≠ 1 ∧ request.parameters[0]? ≠ some [] then []
  else if server.requestHandler then [.requestHandler remote]
  else []

/-- Answers and invalid packets are ignored. -/
def packetHandler (server : Server) : PacketHandler Output where
  informationRequestPacket := server.informationRequestPacket
  informationAnswerPacket _ _ := []
  invalidPacket _ _ := []

def receiveHandler (raw : RawDataCodec) (server : Server) (result : ReceiveResult) : Reaction :=
  match result with
  | .operationAborted => (server, [])
  | .error => server.receive
  | .received bytesTransferred =>
    let out := server.packetHandler.packet raw server.socket.remote
      (server.socket.data bytesTransferred)
    (server.receive.1, out ++ server.receive.2)

/-- The remotes that the request handler is called with. -/
def requests (out : List Output) : List Endpoint :=
  out.filterMap fun
    | .requestHandler remote => some remote
    | .receive => none

/-- The calls of the request handler for a datagram.  What does not fit the buffer is lost. -/
def handleDatagram (raw : RawDataCodec) (server : Server) (remote : Endpoint) (datagram : Bytes) :
    List Endpoint :=
  requests ({ server with socket := server.socket.fill remote datagram }.receiveHandler raw
    (.received (min datagram.length Packet.maxPacketSize))).2

/-- A datagram calls the request handler as its packet does, if it is one. -/
theorem handleDatagram_eq (raw : RawDataCodec) (server : Server) (remote : Endpoint)
    (datagram : Bytes) :
    handleDatagram raw server remote datagram =
      match Packet.decode raw (datagram.take Packet.maxPacketSize) with
      | .ok packet =>
        if packet.opcode = .informationRequest then
          requests (server.informationRequestPacket remote packet)
        else []
      | .error _ => [] := by
  have hsplit : ∀ out : List Output, requests (out ++ [.receive]) = requests out := fun out => by
    rw [requests, List.filterMap_append]
    exact List.append_nil _
  unfold handleDatagram receiveHandler
  simp only [DatagramSocket.data_fill]
  refine (hsplit _).trans ?_
  unfold PacketHandler.packet
  cases hdecode : Packet.decode raw (datagram.take Packet.maxPacketSize) with
  | ok packet =>
    -- the opcode that is looked at first is the one of the packet
    obtain ⟨-, -, -, hencode⟩ := (Packet.decode_eq_ok_iff raw).mp hdecode
    have htype : Packet.packetType raw (datagram.take Packet.maxPacketSize) = packet.opcode := by
      rw [hencode, Packet.encode, List.append_assoc, Packet.packetType_append,
        Opcode.ofUnderlying_toUnderlying]
    rw [htype]
    cases hopcode : packet.opcode with
    | informationRequest => exact (if_pos hopcode).symm
    | informationAnswer => exact (if_neg (by simp [hopcode])).symm
    | invalid => exact (if_neg (by simp [hopcode])).symm
  | error e =>
    cases e with
    | exception => split <;> rfl
    | overrun => split <;> rfl

/-- The request handler is called for exactly the information request with one empty parameter. -/
def Discerns (server : Server) (remote : Endpoint) (datagram : Bytes) : Prop :=
  handleDatagram .bigEndian server remote datagram =
    if datagram = [0, 1, 0, 0x10] then [remote] else []

/-- A request with one parameter that is not empty, or with several of which the first one is. -/
def OddRequest (rawPacket : Bytes) : Prop :=
  ∃ parameters : List Text, (∀ parameter ∈ parameters, (0 : UInt8) ∉ parameter) ∧
    ((∃ parameter, parameter ≠ [] ∧ parameters = [parameter]) ∨
      ∃ others, others ≠ [] ∧ parameters = [] :: others) ∧
    rawPacket = [0, 1] ++ terminate 0 parameters ++ [0x10]

theorem not_oddRequest_proper : ¬OddRequest [0, 1, 0, 0x10] := by
  rintro ⟨parameters, hfree, hodd, hbytes⟩
  have hbody : [0] = terminate 0 parameters := by
    have hbytes' : [0, 1] ++ [0] ++ [0x10] = [0, 1] ++ terminate 0 parameters ++ [0x10] := hbytes
    exact List.append_cancel_left (List.append_cancel_right hbytes')
  -- there is one way only to split a single terminator
  have hsplit : split (0 : UInt8) [0] = some parameters := split_eq_some_iff.mpr ⟨hbody, hfree⟩
  have hone : split (0 : UInt8) [0] = some [[]] :=
    split_eq_some_iff.mpr ⟨rfl, by simp⟩
  cases hone.symm.trans hsplit
  rcases hodd with ⟨parameter, hne, hsingle⟩ | ⟨others, hne, hseveral⟩
  · cases hsingle
    exact hne rfl
  · cases hseveral
    exact hne rfl

/-- The information requests that get through to the request handler. -/
theorem oddRequest_or_proper_iff {rawPacket : Bytes} :
    rawPacket = [0, 1, 0, 0x10] ∨ OddRequest rawPacket ↔
      ∃ parameters, Packet.decode .bigEndian rawPacket = .ok ⟨.informationRequest, parameters⟩ ∧
        (parameters.length = 1 ∨ parameters[0]? = some []) := by
  simp only [Packet.decode_eq_ok_iff, Packet.encode_informationRequest]
  constructor
  · rintro (rfl | ⟨parameters, hfree, hodd, rfl⟩)
    · exact ⟨[[]], ⟨by simp, by simp, by decide, rfl⟩, .inl rfl⟩
    · rcases hodd with ⟨parameter, -, rfl⟩ | ⟨others, -, rfl⟩
      · exact ⟨_, ⟨by simp, by simp, hfree, rfl⟩, .inl rfl⟩
      · exact ⟨_, ⟨by simp, by simp, hfree, rfl⟩, .inr rfl⟩
  · rintro ⟨parameters, ⟨-, hne, hfree, rfl⟩, hsome⟩
    cases parameters with
    | nil => exact absurd rfl hne
    | cons parameter others =>
      by_cases hproper : parameter = [] ∧ others = []
      · obtain ⟨rfl, rfl⟩ := hproper
        exact .inl rfl
      · refine .inr ⟨_, hfree, ?_, rfl⟩
        by_cases hempty : parameter = []
        · subst hempty
          exact .inr ⟨others, fun h => hproper ⟨rfl, h⟩, rfl⟩
        · rcases hsome with hlength | hfirst
          · obtain rfl : others = [] := by simpa using hlength
            exact .inl ⟨parameter, hempty, rfl⟩
          · exact absurd (Option.some.inj hfirst) hempty

theorem handleDatagram_cases (server : Server) (hset : server.requestHandler = true)
    (remote : Endpoint) (datagram : Bytes) :
    let rawPacket := datagram.take Packet.maxPacketSize
    (handleDatagram .bigEndian server remote datagram = [remote] ∧
        (rawPacket = [0, 1, 0, 0x10] ∨ OddRequest rawPacket)) ∨
      (handleDatagram .bigEndian server remote datagram = [] ∧
        ¬(rawPacket = [0, 1, 0, 0x10] ∨ OddRequest rawPacket)) := by
  intro rawPacket
  rw [oddRequest_or_proper_iff, handleDatagram_eq]
  cases hdecode : Packet.decode .bigEndian rawPacket with
  | error e =>
    refine .inr ⟨rfl, ?_⟩
    rintro ⟨_, h, _⟩
    cases h
  | ok packet =>
    obtain ⟨opcode, parameters⟩ := packet
    dsimp only
    by_cases hrequest : opcode = .informationRequest
    · subst hrequest
      rw [if_pos rfl, informationRequestPacket, if_pos hset]
      by_cases hsome : parameters.length = 1 ∨ parameters[0]? = some []
      · rw [if_neg (by tauto)]
        exact .inl ⟨rfl, parameters, rfl, hsome⟩
      · rw [if_pos (by tauto)]
        refine .inr ⟨rfl, ?_⟩
        rintro ⟨_, h, hsome'⟩
        cases h
        exact hsome hsome'
    · rw [if_neg hrequest]
      refine .inr ⟨rfl, ?_⟩
      rintro ⟨_, h, -⟩
      cases h
      exact hrequest rfl

/-- The odd requests are what the server does not tell from proper ones. -/
theorem server_discerns_iff (localEndpoint : Endpoint)
    (socket : DatagramSocket Endpoint Packet.maxPacketSize) (remote : Endpoint) (datagram : Bytes) :
    Discerns ⟨localEndpoint, true, socket⟩ remote datagram ↔
      ¬OddRequest (datagram.take Packet.maxPacketSize) := by
  have hwhole : datagram.take Packet.maxPacketSize = [0, 1, 0, 0x10] ↔
      datagram = [0, 1, 0, 0x10] := by
    constructor
    · intro h
      have hlength := congrArg List.length h
      rw [List.length_take] at hlength
      have hfits : datagram.length ≤ Packet.maxPacketSize := by
        by_contra hlong
        rw [Nat.min_eq_left (by omega)] at hlength
        exact absurd hlength (by decide)
      rwa [List.take_of_length_le hfits] at h
    · rintro rfl
      rfl
  unfold Discerns
  rcases handleDatagram_cases ⟨localEndpoint, true, socket⟩ rfl remote datagram with
    ⟨hcalled, hthrough⟩ | ⟨hcalled, hthrough⟩
  · rw [hcalled]
    by_cases hproper : datagram = [0, 1, 0, 0x10]
    · rw [if_pos hproper, hwhole.mpr hproper]
      exact iff_of_true rfl not_oddRequest_proper
    · rw [if_neg hproper]
      exact iff_of_false (List.cons_ne_nil _ _)
        (not_not.mpr (hthrough.resolve_left fun h => hproper (hwhole.mp h)))
  · obtain ⟨hproper, hodd⟩ := not_or.mp hthrough
    rw [hcalled, if_neg (hwhole.not.mp hproper)]
    exact iff_of_true rfl hodd

/-- A request with the parameter A reaches the request handler. -/
theorem server_takes_parameter :
    handleDatagram .bigEndian {} ⟨1, 1001⟩ [0, 1, 0x41, 0, 0x10] = [⟨1, 1001⟩] ∧
      ¬Discerns {} ⟨1, 1001⟩ [0, 1, 0x41, 0, 0x10] := by
  have hcalled : handleDatagram .bigEndian {} ⟨1, 1001⟩ [0, 1, 0x41, 0, 0x10] = [⟨1, 1001⟩] := by
    decide +kernel
  refine ⟨hcalled, fun h => ?_⟩
  rw [Discerns, hcalled] at h
  exact absurd h (by decide)

end Server

end Arinc615a.Find
