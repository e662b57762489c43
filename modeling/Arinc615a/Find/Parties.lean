import Arinc615a.Find.Query
import Arinc615a.Find.Server
import Arinc615a.Reasoning.SerialReceives

/-!
# The parties of FIND

A server in its surroundings, and what queries and servers make of the datagrams that arrive for
them, one after the other.
-/

open Reasoning

namespace Arinc615a.Find

open Files Tftp

/-! ## The server in its surroundings -/

namespace Server

/-- The call in `start` that throws. -/
inductive StartError where
  | open
  | bind
  deriving DecidableEq, Repr

/-- What is seen of a server. -/
inductive Observation where
  | bind (localEndpoint : Endpoint)
  | call (output : Output)
  | response (remote : Endpoint) (findInformation : TargetInformation)
  /-- An exception goes to the caller. -/
  | thrown
  deriving DecidableEq, Repr

inductive Event where
  | start (error : Option StartError)
  | stop (closeFails : Bool)
  | response (remote : Endpoint) (findInformation : TargetInformation) (sendFails : Bool)
  | datagramArrives (remote : Endpoint) (datagram : Bytes)
  | receiveFails
  | receiveHandler (result : ReceiveResult)
  deriving DecidableEq

/-- An error closes the socket, also if it was open before. -/
def start (server : Server) (error : Option StartError) : Server × List Observation :=
  match if error = some .open then none else server.socket.open? with
  | none =>
    (if server.socket.isOpen then { server with socket := server.socket.close } else server,
      [.thrown])
  | some socket =>
    let server := { server with socket := socket }
    if error = some .bind then ({ server with socket := socket.close }, [.thrown])
    else (server.receive.1, .bind server.localEndpoint :: server.receive.2.map .call)

/-- `closeFails` if closing the socket throws; the socket is closed all the same. -/
def stop (server : Server) (closeFails : Bool) : Server × List Observation :=
  match server.socket.cancel with
  | none => (server, [.thrown])
  | some socket =>
    ({ server with socket := socket.close }, if closeFails then [.thrown] else [])

/-- `none` means that the event cannot happen.  Calls from inside the request handler are events of
their own. -/
def step (raw : RawDataCodec) (server : Server) : Event → Option (Server × List Observation)
  | .start error => some (server.start error)
  | .stop closeFails => some (server.stop closeFails)
  | .response remote findInformation sendFails =>
    some (server, if server.socket.isOpen = false ∨ sendFails = true then [.thrown]
      else [.response remote findInformation])
  | .datagramArrives remote datagram =>
    (server.socket.arrive remote datagram).map fun socket => ({ server with socket := socket }, [])
  | .receiveFails => server.socket.fail.map fun socket => ({ server with socket := socket }, [])
  | .receiveHandler result =>
    (server.socket.take result).map fun socket =>
      let r := { server with socket := socket }.receiveHandler raw result
      (r.1, r.2.map .call)

end Server

/-! ## What packets tell -/

/-- The request that a query sends. -/
def Query.request (raw : RawDataCodec) : Bytes :=
  Packet.encode raw (.ofOpcode .informationRequest 1)

/-- A response that is handed over is what the packet holds. -/
theorem Query.packet_eq_response {raw : RawDataCodec} {remote : Endpoint} {rawPacket : Bytes}
    {address : Nat} {targetInformation : TargetInformation}
    (h : .response address targetInformation ∈ packetHandler.packet raw remote rawPacket) :
    address = remote.address ∧ rawPacket = Server.response raw targetInformation ∧
      ∀ s ∈ targetInformation.parameters, Packet.stringTerminator ∉ s := by
  unfold PacketHandler.packet at h
  split at h
  · split at h <;> cases h
  case h_2 htype =>
    split at h
    case h_1 answer hdecode =>
      obtain ⟨-, -, hfree, rfl⟩ := (Packet.decode_eq_ok_iff raw).mp hdecode
      rw [Packet.encode, List.append_assoc, Packet.packetType_append,
        Opcode.ofUnderlying_toUnderlying] at htype
      obtain ⟨opcode, parameters⟩ := answer
      obtain rfl : opcode = .informationAnswer := htype
      change _ ∈ informationAnswerPacket remote ⟨.informationAnswer, parameters⟩ at h
      unfold informationAnswerPacket at h
      split at h
      case h_1 hparameters =>
        cases List.mem_singleton.mp h
        obtain rfl := hparameters
        exact ⟨rfl, rfl, hfree⟩
      case h_2 => cases h
    · cases h
    · cases h
  · cases h

/-- The request handler is called for a request only. -/
theorem Server.packet_eq_request {raw : RawDataCodec} {server : Server}
    {remote remote' : Endpoint} {rawPacket : Bytes}
    (h : .requestHandler remote' ∈ server.packetHandler.packet raw remote rawPacket) :
    remote' = remote ∧ Packet.packetType raw rawPacket = .informationRequest := by
  unfold PacketHandler.packet at h
  split at h
  case h_1 htype =>
    refine ⟨?_, htype⟩
    split at h
    case h_1 request hdecode =>
      change _ ∈ server.informationRequestPacket remote request at h
      unfold informationRequestPacket at h
      split_ifs at h with hodd hset
      · cases h
      · cases List.mem_singleton.mp h
        rfl
      · cases h
    · cases h
    · cases h
  · split at h <;> cases h
  · cases h

theorem packetType_response (raw : RawDataCodec) (findInformation : TargetInformation) (size : Nat)
    (hsize : 2 ≤ size) :
    Packet.packetType raw ((Server.response raw findInformation).take size) =
      .informationAnswer := by
  have hword : (raw.uint16.encode Opcode.informationAnswer.toUnderlying).length ≤ size := by
    rw [raw.uint16.length_encode]
    exact hsize
  rw [Server.response, Packet.encode, List.append_assoc, List.take_append,
    List.take_of_length_le hword, Packet.packetType_append, Opcode.ofUnderlying_toUnderlying]

theorem length_request (raw : RawDataCodec) : (Query.request raw).length = 4 := by
  simp [Query.request, Packet.encode, Packet.ofOpcode, raw.uint16.length_encode]

theorem packetType_request (raw : RawDataCodec) :
    Packet.packetType raw (Query.request raw) = .informationRequest := by
  rw [Query.request, Packet.encode, List.append_assoc, Packet.packetType_append,
    Packet.ofOpcode, Opcode.ofUnderlying_toUnderlying]

/-- No text of it holds a terminator, or it fits the buffer. -/
def Presentable (raw : RawDataCodec) (findInformation : TargetInformation) : Prop :=
  (∀ s ∈ findInformation.parameters, Packet.stringTerminator ∉ s) ∨
    (Server.response raw findInformation).length ≤ Packet.maxPacketSize

/-- What arrives of a response is handed over as it is, or not at all. -/
theorem eq_of_take_response {raw : RawDataCodec} {sent told : TargetInformation}
    (hsent : Presentable raw sent)
    (hfree : ∀ s ∈ told.parameters, Packet.stringTerminator ∉ s)
    (h : (Server.response raw sent).take Packet.maxPacketSize = Server.response raw told) :
    told = sent ∧ (Server.response raw sent).length ≤ Packet.maxPacketSize := by
  have hsize : (Server.response raw sent).length ≤ Packet.maxPacketSize := by
    rcases hsent with hclear | hfits
    · by_contra hlong
      -- a part of a response has fewer parameters
      have hpart : Query.packetHandler.packet raw ⟨0, 0⟩
          ((Server.response raw sent).take Packet.maxPacketSize) = [] := by
        rw [Query.packet_response raw ⟨0, 0⟩ hclear (by decide), if_neg hlong]
      rw [h, ← List.take_length (l := Server.response raw told),
        Query.packet_response raw ⟨0, 0⟩ hfree (by simp [Server.response, Packet.encode]),
        if_pos (Nat.le_refl _)] at hpart
      cases hpart
    · exact hfits
  refine ⟨?_, hsize⟩
  rw [List.take_of_length_le hsize] at h
  have hbody : terminate Packet.stringTerminator sent.parameters =
      terminate Packet.stringTerminator told.parameters :=
    List.append_cancel_left (List.append_cancel_right h)
  have hparameters : sent.parameters = told.parameters := eq_of_terminate_eq hfree rfl hbody
  simp only [TargetInformation.parameters, List.cons.injEq] at hparameters
  obtain ⟨sent₁, sent₂, sent₃, sent₄, sent₅⟩ := sent
  obtain ⟨told₁, told₂, told₃, told₄, told₅⟩ := told
  obtain ⟨rfl, rfl, rfl, rfl, rfl, -⟩ := hparameters
  rfl

/-! ## One party -/

section

variable {raw : RawDataCodec} {Sent : Endpoint → Bytes → Prop}

namespace Query

variable {query query' : Query} {event : Event} {out : List Observation}

/-- Nothing of the query is in flight. -/
def Idle (query : Query) : Prop := query.socket.inFlight = 0 ∧ query.responding = false

/-- A query receives one datagram at a time; while its response handler runs, it receives none. -/
def Serial (Sent : Endpoint → Bytes → Prop) (query : Query) : Prop :=
  SerialReceives Sent (if query.responding then 1 else 0) query.socket

/-- A query is started when nothing of it is in flight, and gets what has been sent. -/
def Granted (Sent : Endpoint → Bytes → Prop) (query : Query) : Event → Prop
  | .start _ => query.Idle
  | .datagramArrives remote datagram => Sent remote datagram
  | _ => True

/-- It sends the one request, and hands over responses as they have been sent. -/
structure Reliable (raw : RawDataCodec) (Sent : Endpoint → Bytes → Prop) (out : List Observation) :
    Prop where
  sends : ∀ remote rawPacket, .send remote rawPacket ∈ out → rawPacket = request raw
  hands : ∀ address targetInformation, .response address targetInformation ∈ out →
    ∃ remote datagram, Sent remote datagram ∧ remote.address = address ∧
      datagram.take Packet.maxPacketSize = Server.response raw targetInformation ∧
      ∀ s ∈ targetInformation.parameters, Packet.stringTerminator ∉ s

theorem Reliable.quiet (hsend : ∀ remote rawPacket, .send remote rawPacket ∉ out)
    (hresponse : ∀ address targetInformation, .response address targetInformation ∉ out) :
    Reliable raw Sent out :=
  ⟨fun remote rawPacket h => absurd h (hsend remote rawPacket),
    fun address targetInformation h => absurd h (hresponse address targetInformation)⟩

theorem serial_start (h : query.Serial Sent) (hidle : query.Idle) (error : Option StartError) :
    (query.start raw error).1.Serial Sent ∧ Reliable raw Sent (query.start raw error).2 := by
  have hserial : SerialReceives Sent 0 query.socket := by
    rw [Serial, hidle.2] at h
    exact h
  unfold start
  dsimp only
  split
  · exact ⟨h, .quiet (by simp) (by simp)⟩
  case h_2 socket hopen =>
    have hopen' : query.socket.open? = some socket := by
      split at hopen
      · cases hopen
      · exact hopen
    have hopened := hserial.opened hopen'
    have hnone : socket.inFlight = 0 := by
      unfold DatagramSocket.open? at hopen'
      split at hopen' <;> cases hopen'
      exact hidle.1
    have hquery : Serial Sent { query with socket := socket } := by
      rw [Serial, hidle.2]
      exact hopened
    split
    · exact ⟨hquery, .quiet (by simp) (by simp)⟩
    · split
      · exact ⟨hquery, .quiet (by simp) (by simp)⟩
      · refine ⟨?_, ?_, ?_⟩
        · show SerialReceives Sent (if query.responding then 1 else 0) socket.receive
          rw [hidle.2]
          exact hopened.start hnone
        · simp [receive, request]
        · simp [receive]

theorem serial_receive {socket : DatagramSocket Endpoint Packet.maxPacketSize}
    (h : SerialReceives Sent 1 socket) (hresponding : query.responding = false) :
    ({ query with socket := socket }.receive).1.Serial Sent ∧
      Reliable raw Sent ({ query with socket := socket }.receive).2 := by
  refine ⟨?_, .quiet (by simp [receive]) (by simp [receive])⟩
  show SerialReceives Sent (if query.responding then 1 else 0) socket.receive
  rw [hresponding]
  exact h.receive

theorem serial_receiveHandler {socket : DatagramSocket Endpoint Packet.maxPacketSize}
    {result : ReceiveResult} (h : query.Serial Sent) (hresponding : query.responding = false)
    (htake : query.socket.take result = some socket) :
    ({ query with socket := socket }.receiveHandler raw result).1.Serial Sent ∧
      Reliable raw Sent ({ query with socket := socket }.receiveHandler raw result).2 := by
  rw [Serial, hresponding] at h
  obtain ⟨htaken, hdata⟩ := SerialReceives.take h htake
  cases result with
  | operationAborted =>
    refine ⟨?_, .quiet (by simp [receiveHandler]) (by simp [receiveHandler])⟩
    show SerialReceives Sent (if query.responding then 1 else 0) socket
    rw [hresponding]
    exact htaken
  | error => exact serial_receive htaken hresponding
  | received bytesTransferred =>
    obtain ⟨datagram, hsent, hwhole⟩ := hdata bytesTransferred rfl
    unfold receiveHandler
    dsimp only
    rcases packet_cases raw socket.remote (socket.data bytesTransferred) with
      hdropped | ⟨targetInformation, htold⟩
    · rw [hdropped]
      exact serial_receive htaken hresponding
    · rw [htold]
      refine ⟨htaken, by simp, fun address told hmem => ?_⟩
      have hmem' : .response address told ∈
          packetHandler.packet raw socket.remote (socket.data bytesTransferred) := by
        rw [htold]
        exact hmem
      obtain ⟨haddress, hpacket, hfree⟩ := packet_eq_response hmem'
      exact ⟨socket.remote, datagram, hsent, haddress.symm, hwhole ▸ hpacket, hfree⟩

theorem serial_step (h : query.Serial Sent) (hstep : query.step raw event = some (query', out))
    (hgranted : query.Granted Sent event) :
    query'.Serial Sent ∧ Reliable raw Sent out := by
  have hquiet : ∀ {ends : List Observation}, ends = [.completed] ∨ ends = [.completed, .thrown] →
      Reliable raw Sent ends := by
    rintro _ (rfl | rfl)
    · exact .quiet (by simp) (by simp)
    · exact .quiet (by simp) (by simp)
  have hends : ∀ fails : Bool, Reliable raw Sent
      (if fails then [.completed, .thrown] else [.completed]) := by
    intro fails
    cases fails with
    | true => exact hquiet (.inr rfl)
    | false => exact hquiet (.inl rfl)
  cases event with
  | start error =>
    have hstarted : (query.start raw error).1.Serial Sent ∧
        Reliable raw Sent (query.start raw error).2 := serial_start h hgranted error
    rwa [Option.some.inj hstep] at hstarted
  | abort closeFails =>
    simp only [step, abort] at hstep
    split at hstep
    · cases hstep
      exact ⟨h, hquiet (.inr rfl)⟩
    next socket hcancel =>
      cases hstep
      exact ⟨(SerialReceives.cancelled h hcancel).closed, hends closeFails⟩
  | responded =>
    simp only [step] at hstep
    split at hstep
    case isTrue hresponding =>
      rw [Serial, hresponding] at h
      cases hstep
      exact ⟨h.receive, .quiet (by simp) (by simp)⟩
    case isFalse => cases hstep
  | datagramArrives remote datagram =>
    obtain ⟨socket, hsocket, heq⟩ := Option.map_eq_some_iff.mp hstep
    cases heq
    exact ⟨SerialReceives.arrive h hgranted hsocket, .quiet (by simp) (by simp)⟩
  | receiveFails =>
    obtain ⟨socket, hsocket, heq⟩ := Option.map_eq_some_iff.mp hstep
    cases heq
    exact ⟨SerialReceives.fail h hsocket, .quiet (by simp) (by simp)⟩
  | timerElapses result =>
    obtain ⟨timer, -, heq⟩ := Option.map_eq_some_iff.mp hstep
    cases heq
    exact ⟨h, .quiet (by simp) (by simp)⟩
  | timerHandler result closeFails =>
    simp only [step] at hstep
    split at hstep
    · cases hstep
    · obtain ⟨timer, -, heq⟩ := Option.map_eq_some_iff.mp hstep
      unfold timerHandler at heq
      split at heq
      · cases heq
        exact ⟨h, .quiet (by simp) (by simp)⟩
      · dsimp only at heq
        split at heq
        · cases heq
          exact ⟨h, hquiet (.inr rfl)⟩
        next socket hcancel =>
          cases heq
          exact ⟨(SerialReceives.cancelled h hcancel).closed, hends closeFails⟩
  | receiveHandler result =>
    simp only [step] at hstep
    split at hstep
    · cases hstep
    next hresponding =>
      obtain ⟨socket, htake, heq⟩ := Option.map_eq_some_iff.mp hstep
      have hhandled : ({ query with socket := socket }.receiveHandler raw result).1.Serial Sent ∧
          Reliable raw Sent ({ query with socket := socket }.receiveHandler raw result).2 :=
        serial_receiveHandler h (Bool.eq_false_iff.mpr hresponding) htake
      rwa [heq] at hhandled

end Query

namespace Server

variable {server server' : Server} {event : Event} {out : List Observation}

/-- A server is started when nothing of it is in flight, sends what can be told, and gets what has
been sent. -/
def Granted (raw : RawDataCodec) (Sent : Endpoint → Bytes → Prop) (server : Server) : Event → Prop
  | .start _ => server.socket.inFlight = 0
  | .response _ findInformation _ => Presentable raw findInformation
  | .datagramArrives remote datagram => Sent remote datagram
  | _ => True

/-- It sends what can be told, and its request handler is called for requests. -/
structure Reliable (raw : RawDataCodec) (Sent : Endpoint → Bytes → Prop) (out : List Observation) :
    Prop where
  responds : ∀ remote findInformation, .response remote findInformation ∈ out →
    Presentable raw findInformation
  hears : ∀ remote, .call (.requestHandler remote) ∈ out → ∃ datagram, Sent remote datagram ∧
    Packet.packetType raw (datagram.take Packet.maxPacketSize) = .informationRequest

theorem Reliable.quiet
    (hresponse : ∀ remote findInformation, .response remote findInformation ∉ out)
    (hcall : ∀ remote, .call (.requestHandler remote) ∉ out) : Reliable raw Sent out :=
  ⟨fun remote findInformation h => absurd h (hresponse remote findInformation),
    fun remote h => absurd h (hcall remote)⟩

theorem serial_start (h : SerialReceives Sent 0 server.socket)
    (hidle : server.socket.inFlight = 0) (error : Option StartError) :
    SerialReceives Sent 0 (server.start error).1.socket ∧
      Reliable raw Sent (server.start error).2 := by
  unfold start
  split
  · refine ⟨?_, .quiet (by simp) (by simp)⟩
    dsimp only
    split
    · exact h.closed
    · exact h
  case h_2 socket hopen =>
    have hopen' : server.socket.open? = some socket := by
      split at hopen
      · cases hopen
      · exact hopen
    have hopened := h.opened hopen'
    have hnone : socket.inFlight = 0 := by
      unfold DatagramSocket.open? at hopen'
      split at hopen' <;> cases hopen'
      exact hidle
    dsimp only
    split
    · exact ⟨hopened.closed, .quiet (by simp) (by simp)⟩
    · exact ⟨hopened.start hnone, .quiet (by simp [receive]) (by simp [receive])⟩

theorem serial_receiveHandler {socket : DatagramSocket Endpoint Packet.maxPacketSize}
    {result : ReceiveResult} (h : SerialReceives Sent 0 server.socket)
    (htake : server.socket.take result = some socket) :
    SerialReceives Sent 0 ({ server with socket := socket }.receiveHandler raw result).1.socket ∧
      Reliable raw Sent
        (({ server with socket := socket }.receiveHandler raw result).2.map .call) := by
  obtain ⟨htaken, hdata⟩ := h.take htake
  cases result with
  | operationAborted =>
    exact ⟨htaken, .quiet (by simp [receiveHandler]) (by simp [receiveHandler])⟩
  | error =>
    exact ⟨htaken.receive, .quiet (by simp [receiveHandler, receive])
      (by simp [receiveHandler, receive])⟩
  | received bytesTransferred =>
    obtain ⟨datagram, hsent, hwhole⟩ := hdata bytesTransferred rfl
    refine ⟨htaken.receive, by simp, fun remote hmem => ?_⟩
    obtain ⟨output, houtput, heq⟩ := List.mem_map.mp hmem
    cases heq
    have hcalled := (List.mem_append.mp houtput).resolve_right (by simp [receive])
    obtain ⟨rfl, htype⟩ := packet_eq_request hcalled
    exact ⟨datagram, hsent, hwhole ▸ htype⟩

theorem serial_step (h : SerialReceives Sent 0 server.socket)
    (hstep : server.step raw event = some (server', out))
    (hgranted : server.Granted raw Sent event) :
    SerialReceives Sent 0 server'.socket ∧ Reliable raw Sent out := by
  cases event with
  | start error =>
    have hstarted : SerialReceives Sent 0 (server.start error).1.socket ∧
        Reliable raw Sent (server.start error).2 := serial_start h hgranted error
    rwa [Option.some.inj hstep] at hstarted
  | stop closeFails =>
    simp only [step, stop] at hstep
    split at hstep
    · cases hstep
      exact ⟨h, .quiet (by simp) (by simp)⟩
    next socket hcancel =>
      cases hstep
      refine ⟨(h.cancelled hcancel).closed, ?_⟩
      split
      · exact .quiet (by simp) (by simp)
      · exact .quiet (by simp) (by simp)
  | response remote findInformation sendFails =>
    cases hstep
    refine ⟨h, fun remote' findInformation' hmem => ?_, fun remote' hmem => ?_⟩
    · split at hmem
      · cases List.mem_singleton.mp hmem
      · cases List.mem_singleton.mp hmem
        exact hgranted
    · split at hmem
      · cases List.mem_singleton.mp hmem
      · cases List.mem_singleton.mp hmem
  | datagramArrives remote datagram =>
    obtain ⟨socket, hsocket, heq⟩ := Option.map_eq_some_iff.mp hstep
    cases heq
    exact ⟨h.arrive hgranted hsocket, .quiet (by simp) (by simp)⟩
  | receiveFails =>
    obtain ⟨socket, hsocket, heq⟩ := Option.map_eq_some_iff.mp hstep
    cases heq
    exact ⟨h.fail hsocket, .quiet (by simp) (by simp)⟩
  | receiveHandler result =>
    obtain ⟨socket, htake, heq⟩ := Option.map_eq_some_iff.mp hstep
    cases heq
    exact serial_receiveHandler h htake

end Server

end

end Arinc615a.Find
