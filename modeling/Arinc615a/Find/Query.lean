import Arinc615a.Find.Packet
import Arinc615a.Reasoning.DatagramSocket
import Arinc615a.Reasoning.EventLoop
import Arinc615a.Reasoning.Reactive

/-!
# FIND queries

`find/clients/implementation/QueryImpl.cpp`: a query sends a request and hands the answers to its
response handler until the timer expires, or it is aborted.
-/

open Reasoning

namespace Arinc615a.Find

open Files Tftp

structure Query where
  localAddress : Nat := 0
  remoteAddress : Nat := 0xFFFFFFFF
  port : UInt16 := 1001
  dynamicLocalPort : Bool := false
  timeout : Nat := 3
  timer : EventLoop Empty := {}
  socket : DatagramSocket Endpoint Packet.maxPacketSize := { remote := ⟨0, 0⟩ }
  /-- The response handler has been called and has not returned; `receive` follows it. -/
  responding : Bool := false
  deriving DecidableEq

/-- What is seen of a query. -/
inductive Observation where
  | started
  | bind (localEndpoint : Endpoint)
  | send (remote : Endpoint) (rawPacket : Bytes)
  | receive
  | timerStart (timeout : Nat)
  | response (address : Nat) (targetInformation : TargetInformation)
  | completed
  /-- A `FindClientException` goes to the caller. -/
  | thrown
  deriving DecidableEq, Repr

/-- The call in `start` that throws. -/
inductive StartError where
  | open
  | setOption
  | bind
  | send
  deriving DecidableEq, Repr

abbrev Reaction := Query × List Observation

namespace Query

/-- The buffer has its size already. -/
def receive (query : Query) : Reaction :=
  ({ query with socket := query.socket.receive }, [.receive])

/-- The endpoint that the socket is bound to. -/
def localEndpoint (query : Query) : Endpoint :=
  ⟨query.localAddress, if query.dynamicLocalPort then 0 else query.port⟩

def start (raw : RawDataCodec) (query : Query) (error : Option StartError) : Reaction :=
  let failed : List Observation := [.completed, .thrown]
  match if error = some .open then none else query.socket.open? with
  | none => (query, .started :: failed)
  | some socket =>
    -- an error leaves the socket open
    let query := { query with socket := socket }
    if error = some .setOption ∨ error = some .bind then (query, .started :: failed)
    else if error = some .send then (query, .started :: .bind query.localEndpoint :: failed)
    else
      let request := Packet.encode raw (.ofOpcode .informationRequest 1)
      let sent : List Observation := [.started, .bind query.localEndpoint,
        .send ⟨query.remoteAddress, query.port⟩ request]
      let (query, out) := query.receive
      ({ query with timer := query.timer.perform .arm }, sent ++ out ++ [.timerStart query.timeout])

/-- `closeFails` if closing the socket throws; the socket is closed all the same. -/
def abort (query : Query) (closeFails : Bool) : Reaction :=
  match query.socket.cancel with
  | none => (query, [.completed, .thrown])
  | some socket =>
    ({ query with socket := socket.close, timer := query.timer.perform .cancel },
      if closeFails then [.completed, .thrown] else [.completed])

def timerHandler (query : Query) (result : WaitResult) (closeFails : Bool) : Reaction :=
  if result = .operationAborted then (query, [])
  else
    -- any other error is logged, and the query ends as if the time had expired
    match query.socket.cancel with
    | none => (query, [.completed, .thrown])
    | some socket =>
      ({ query with socket := socket.close },
        if closeFails then [.completed, .thrown] else [.completed])

/-- An answer with another number of parameters is dropped. -/
def informationAnswerPacket (remote : Endpoint) (answer : Packet) : List Observation :=
  match answer.parameters with
  | [thwId, thwTypeName, thwPosition, literalName, manufacturerCode] =>
    [.response remote.address ⟨thwId, thwTypeName, thwPosition, literalName, manufacturerCode⟩]
  | _ => []

/-- Requests and invalid packets are ignored. -/
def packetHandler : PacketHandler Observation where
  informationRequestPacket _ _ := []
  informationAnswerPacket := informationAnswerPacket
  invalidPacket _ _ := []

/-- The receive is started again behind the packet: behind the response handler, if the packet is
an answer. -/
def receiveHandler (raw : RawDataCodec) (query : Query) (result : ReceiveResult) : Reaction :=
  match result with
  | .operationAborted => (query, [])
  | .error => query.receive
  | .received bytesTransferred =>
    match packetHandler.packet raw query.socket.remote (query.socket.data bytesTransferred) with
    | [] => query.receive
    | out => ({ query with responding := true }, out)

/-- The response handler returns. -/
def responded (query : Query) : Reaction := { query with responding := false }.receive

end Query

inductive Event where
  | start (error : Option StartError)
  | abort (closeFails : Bool)
  | responded
  | datagramArrives (remote : Endpoint) (datagram : Bytes)
  | receiveFails
  | timerElapses (result : WaitResult)
  | timerHandler (result : WaitResult) (closeFails : Bool)
  | receiveHandler (result : ReceiveResult)
  deriving DecidableEq

namespace Query

/-- `none` means that the event cannot happen.  A handler runs when no other does; calls from
inside the response handler are events of their own. -/
def step (raw : RawDataCodec) (query : Query) : Event → Option (Query × List Observation)
  | .start error => some (query.start raw error)
  | .abort closeFails => some (query.abort closeFails)
  | .responded => if query.responding then some query.responded else none
  | .datagramArrives remote datagram =>
    (query.socket.arrive remote datagram).map fun socket => ({ query with socket := socket }, [])
  | .receiveFails => query.socket.fail.map fun socket => ({ query with socket := socket }, [])
  | .timerElapses result =>
    (query.timer.elapse result).map fun timer => ({ query with timer := timer }, [])
  | .timerHandler result closeFails =>
    if query.responding then none
    else (query.timer.take result).map fun timer =>
      { query with timer := timer }.timerHandler result closeFails
  | .receiveHandler result =>
    if query.responding then none
    else (query.socket.take result).map fun socket =>
      { query with socket := socket }.receiveHandler raw result

end Query

def querySystem (raw : RawDataCodec) : Reactive Query Event Observation := ⟨Query.step raw⟩

namespace Query

/-! ## Answers -/

/-- The calls of the response handler. -/
def responses (out : List Observation) : List (Nat × TargetInformation) :=
  out.filterMap fun
    | .response address targetInformation => some (address, targetInformation)
    | _ => none

theorem informationAnswerPacket_of_length_ne (remote : Endpoint) {answer : Packet}
    (h : answer.parameters.length ≠ 5) : informationAnswerPacket remote answer = [] := by
  unfold informationAnswerPacket
  split
  next hparameters =>
    rw [hparameters] at h
    exact absurd rfl h
  next => rfl

theorem informationAnswerPacket_cases (remote : Endpoint) (answer : Packet) :
    informationAnswerPacket remote answer = [] ∨
      ∃ targetInformation, informationAnswerPacket remote answer =
        [.response remote.address targetInformation] := by
  unfold informationAnswerPacket
  split
  · exact .inr ⟨_, rfl⟩
  · exact .inl rfl

/-- The response handler is called at most once for a packet, with the address of its sender. -/
theorem packet_cases (raw : RawDataCodec) (remote : Endpoint) (rawPacket : Bytes) :
    packetHandler.packet raw remote rawPacket = [] ∨
      ∃ targetInformation, packetHandler.packet raw remote rawPacket =
        [.response remote.address targetInformation] := by
  unfold PacketHandler.packet
  split
  · split <;> exact .inl rfl
  · split
    · exact informationAnswerPacket_cases remote _
    · exact .inl rfl
    · exact .inl rfl
  · exact .inl rfl

/-- A response of the server is handed over as it is if it arrives whole, and dropped if it is cut
short. -/
theorem packet_response (raw : RawDataCodec) (remote : Endpoint)
    {targetInformation : TargetInformation}
    (hfree : ∀ s ∈ targetInformation.parameters, Packet.stringTerminator ∉ s) {size : Nat}
    (hsize : 2 ≤ size) :
    packetHandler.packet raw remote ((Server.response raw targetInformation).take size) =
      if (Server.response raw targetInformation).length ≤ size then
        [.response remote.address targetInformation] else [] := by
  have htype : Packet.packetType raw ((Server.response raw targetInformation).take size) =
      .informationAnswer := by
    have hword : (raw.uint16.encode Opcode.informationAnswer.toUnderlying).length ≤ size := by
      rw [raw.uint16.length_encode]
      exact hsize
    rw [Server.response, Packet.encode, List.append_assoc, List.take_append,
      List.take_of_length_le hword, Packet.packetType_append, Opcode.ofUnderlying_toUnderlying]
  unfold PacketHandler.packet
  simp only [htype]
  by_cases hfits : (Server.response raw targetInformation).length ≤ size
  · rw [if_pos hfits, List.take_of_length_le hfits, Server.response,
      Packet.decode_encode raw (show Opcode.informationAnswer ≠ .invalid by decide)
        (List.cons_ne_nil _ _) hfree]
    rfl
  · rw [if_neg hfits]
    rcases Packet.decode_take_encode raw hfree (Nat.lt_of_not_le hfits) with
      ⟨e, hdecode⟩ | ⟨cut, hdecode, hfewer⟩
    · rw [Server.response, hdecode]
      rfl
    · rw [Server.response, hdecode]
      exact informationAnswerPacket_of_length_ne remote (Nat.ne_of_lt hfewer)

/-- Whatever the strings are that a server sends, a query hands them to its response handler as
they are if the packet fits the receive buffer, and hands over nothing if it does not. -/
theorem receiveHandler_response (raw : RawDataCodec) (query : Query) (remote : Endpoint)
    {targetInformation : TargetInformation}
    (hfree : ∀ s ∈ targetInformation.parameters, Packet.stringTerminator ∉ s) :
    responses ({ query with
        socket := query.socket.fill remote (Server.response raw targetInformation) }.receiveHandler
          raw (.received (min (Server.response raw targetInformation).length
            Packet.maxPacketSize))).2 =
      if (Server.response raw targetInformation).length ≤ Packet.maxPacketSize then
        [(remote.address, targetInformation)] else [] := by
  have hpacket : packetHandler.packet raw
      (query.socket.fill remote (Server.response raw targetInformation)).remote
      (List.take Packet.maxPacketSize (Server.response raw targetInformation)) = _ :=
    packet_response raw remote hfree (by decide)
  simp only [receiveHandler, DatagramSocket.data_fill]
  rw [hpacket]
  by_cases hfits : (Server.response raw targetInformation).length ≤ Packet.maxPacketSize
  · rw [if_pos hfits, if_pos hfits]
    rfl
  · rw [if_neg hfits, if_neg hfits]
    rfl

/-- A target whose identifier holds the byte that ends a packet, and a target whose response is too
long, cut inside such bytes. -/
theorem receiveHandler_response_packetTerminators :
    let query : Query := {}
    let short : TargetInformation := { thwId := [0x10], manufacturerCode := [0x41] }
    let long : TargetInformation := { thwId := List.replicate 1018 0x10 }
    responses ({ query with
        socket := query.socket.fill ⟨1, 1001⟩ (Server.response .bigEndian short) }.receiveHandler
          .bigEndian (.received (min (Server.response .bigEndian short).length
            Packet.maxPacketSize))).2 = [(1, short)] ∧
      responses ({ query with
        socket := query.socket.fill ⟨1, 1001⟩ (Server.response .bigEndian long) }.receiveHandler
          .bigEndian (.received (min (Server.response .bigEndian long).length
            Packet.maxPacketSize))).2 = [] :=
  ⟨(receiveHandler_response .bigEndian {} ⟨1, 1001⟩ (by decide)).trans (if_pos (by decide)),
    (receiveHandler_response .bigEndian {} ⟨1, 1001⟩ (by decide +kernel)).trans
      (if_neg (by decide +kernel))⟩

/-! ## Completion -/

end Query

/-- A query is active when it hands over a response, and when it starts a receive. -/
def Observation.mark : Observation → Mark
  | .started => .start
  | .completed => .finish
  | .response _ _ => .activity
  | .receive => .activity
  | _ => .neutral

namespace Query

/-- What may happen to a query that has completed: neither a call of `abort`, nor a handler that
goes on. -/
def Harmless : Event → Prop
  | .abort _ => False
  | .responded => False
  | .timerHandler result _ => result = .operationAborted
  | .receiveHandler result => result = .operationAborted
  | _ => True

instance : (e : Event) → Decidable (Harmless e)
  | .abort _ | .responded => isFalse id
  | .timerHandler result _ => inferInstanceAs (Decidable (result = .operationAborted))
  | .receiveHandler result => inferInstanceAs (Decidable (result = .operationAborted))
  | .start _ | .datagramArrives _ _ | .receiveFails | .timerElapses _ => isTrue trivial

variable {raw : RawDataCodec} {query query' : Query} {out : List Observation}

/-- Whether `start` throws or not, it is quiet after its own start. -/
theorem start_quiet (raw : RawDataCodec) (query : Query) (error : Option StartError)
    (closed : Bool) : Mark.Quiet Observation.mark closed (query.start raw error).2 := by
  unfold start
  split
  · simp [Observation.mark, Mark.Allowed, Mark.next]
  · dsimp only
    -- in the order of the calls that can throw
    split
    · simp [Observation.mark, Mark.Allowed, Mark.next]
    · split
      · simp [Observation.mark, Mark.Allowed, Mark.next]
      · simp [receive, Observation.mark, Mark.Allowed, Mark.next]

/-- The query completes, and an exception may follow. -/
theorem hasEffect_completed (fails : Bool) :
    Mark.HasEffect Observation.mark .finishing
      (if fails then [.completed, .thrown] else [.completed]) := by
  have hcompleted : Mark.HasEffect Observation.mark .finishing [.completed] :=
    .single (by decide) (by decide) (by decide)
  cases fails with
  | false => exact hcompleted
  | true => exact hcompleted.append_calm (.single (by decide) (by decide) (by decide))

theorem abort_effect (query : Query) (closeFails : Bool) :
    Mark.HasEffect Observation.mark .finishing (query.abort closeFails).2 := by
  unfold abort
  split
  · exact hasEffect_completed true
  · exact hasEffect_completed closeFails

theorem receive_effect (query : Query) :
    Mark.HasEffect Observation.mark .busy query.receive.2 :=
  .single (by decide) (by decide) (by decide)

theorem timerHandler_effect (query : Query) (result : WaitResult) (closeFails : Bool) :
    Mark.HasEffect Observation.mark (if result = .operationAborted then .calm else .finishing)
      (query.timerHandler result closeFails).2 := by
  unfold timerHandler
  split
  · exact .none
  · split
    · exact hasEffect_completed true
    · exact hasEffect_completed closeFails

theorem receiveHandler_effect (raw : RawDataCodec) (query : Query) (result : ReceiveResult) :
    Mark.HasEffect Observation.mark (if result = .operationAborted then .calm else .busy)
      (query.receiveHandler raw result).2 := by
  cases result with
  | operationAborted => exact .none
  | error => exact receive_effect query
  | received bytesTransferred =>
    rcases packet_cases raw query.socket.remote (query.socket.data bytesTransferred) with
      hpacket | ⟨targetInformation, hpacket⟩
    · simp only [receiveHandler, hpacket]
      exact receive_effect query
    · simp only [receiveHandler, hpacket]
      exact .single (by simp [Observation.mark]) (by simp [Observation.mark])
        (by simp [Observation.mark])

/-- What a step other than `start` comes to: nothing, if it is harmless. -/
theorem step_effect {event : Event} (hstep : query.step raw event = some (query', out))
    (hstart : ∀ error, event ≠ .start error) :
    ∃ e, Mark.HasEffect Observation.mark e out ∧ (e = .calm ↔ Harmless event) := by
  cases event with
  | start error => exact absurd rfl (hstart error)
  | abort closeFails =>
    obtain rfl : (query.abort closeFails).2 = out := congrArg Prod.snd (Option.some.inj hstep)
    exact ⟨_, abort_effect query closeFails, by simp [Harmless]⟩
  | responded =>
    simp only [step] at hstep
    split at hstep
    · cases hstep
      exact ⟨_, receive_effect { query with responding := false }, by simp [Harmless]⟩
    · cases hstep
  | datagramArrives remote datagram =>
    obtain ⟨socket, -, h⟩ := Option.map_eq_some_iff.mp hstep
    cases h
    exact ⟨_, .none, iff_of_true rfl trivial⟩
  | receiveFails =>
    obtain ⟨socket, -, h⟩ := Option.map_eq_some_iff.mp hstep
    cases h
    exact ⟨_, .none, iff_of_true rfl trivial⟩
  | timerElapses result =>
    obtain ⟨timer, -, h⟩ := Option.map_eq_some_iff.mp hstep
    cases h
    exact ⟨_, .none, iff_of_true rfl trivial⟩
  | timerHandler result closeFails =>
    simp only [step] at hstep
    split at hstep
    · cases hstep
    · obtain ⟨timer, -, h⟩ := Option.map_eq_some_iff.mp hstep
      refine ⟨_, congrArg Prod.snd h ▸ timerHandler_effect _ result closeFails, ?_⟩
      by_cases haborted : result = .operationAborted <;> simp [haborted, Harmless]
  | receiveHandler result =>
    simp only [step] at hstep
    split at hstep
    · cases hstep
    · obtain ⟨socket, -, h⟩ := Option.map_eq_some_iff.mp hstep
      refine ⟨_, congrArg Prod.snd h ▸ receiveHandler_effect raw _ result, ?_⟩
      by_cases haborted : result = .operationAborted <;> simp [haborted, Harmless]

theorem finishSteps (raw : RawDataCodec) :
    Reactive.FinishSteps (querySystem raw) Observation.mark (fun _ _ => True)
      (fun _ event => Harmless event) where
  opened query event query' out _ hstep := by
    by_cases hstart : ∃ error, event = .start error
    · obtain ⟨error, rfl⟩ := hstart
      obtain rfl : (query.start raw error).2 = out := congrArg Prod.snd (Option.some.inj hstep)
      exact start_quiet raw query error false
    · obtain ⟨e, heffect, -⟩ := step_effect hstep fun error h => hstart ⟨error, h⟩
      exact heffect.quiet
  closed query event query' out _ hstep := by
    by_cases hstart : ∃ error, event = .start error
    · obtain ⟨error, rfl⟩ := hstart
      obtain rfl : (query.start raw error).2 = out := congrArg Prod.snd (Option.some.inj hstep)
      exact iff_of_true (start_quiet raw query error true) trivial
    · obtain ⟨e, heffect, hcalm⟩ := step_effect hstep fun error h => hstart ⟨error, h⟩
      exact heffect.calm.trans hcalm
  inv _ _ _ _ _ _ _ := trivial

/-- A query completes once for each start, with no response and no new receive behind it, exactly
if `abort` is not called and no handler but those of cancelled operations runs between a completion
and the next start. -/
theorem query_completesOnce_iff (raw : RawDataCodec) {query query' : Query} {events : List Event}
    {out : List Observation} (hrun : (querySystem raw).run query events = some (query', out)) :
    Mark.FinishOnce Observation.mark out ↔
      (querySystem raw).HarmlessRun Observation.mark (fun _ event => Harmless event) query events :=
  (finishSteps raw).finishOnce_run_iff trivial hrun

/-- A query that gets a datagram, and ends when its timer expires. -/
theorem query_completesOnce_timeout :
    ∃ query' out, (querySystem .bigEndian).run {} [.start none, .datagramArrives ⟨1, 1001⟩ [0],
        .receiveHandler (.received 1), .timerElapses .expired, .timerHandler .expired false,
        .receiveHandler .operationAborted] = some (query', out) ∧
      (Mark.FinishOnce Observation.mark out ↔
        (querySystem .bigEndian).HarmlessRun Observation.mark (fun _ event => Harmless event) {}
          [.start none, .datagramArrives ⟨1, 1001⟩ [0], .receiveHandler (.received 1),
            .timerElapses .expired, .timerHandler .expired false,
            .receiveHandler .operationAborted]) := by
  obtain ⟨⟨query', out⟩, hrun⟩ : ∃ r, (querySystem .bigEndian).run {} [.start none,
      .datagramArrives ⟨1, 1001⟩ [0], .receiveHandler (.received 1), .timerElapses .expired,
      .timerHandler .expired false, .receiveHandler .operationAborted] = some r := ⟨_, rfl⟩
  exact ⟨query', out, hrun, query_completesOnce_iff .bigEndian hrun⟩

/-- The timer has expired when the query is aborted: the query completes twice. -/
theorem query_abort_completesTwice :
    ∃ query' out, (querySystem .bigEndian).run {} [.start none, .timerElapses .expired, .abort false,
        .timerHandler .expired false] = some (query', out) ∧
      ¬Mark.FinishOnce Observation.mark out := by
  have hmarks : ((querySystem .bigEndian).run {} [.start none, .timerElapses .expired, .abort false,
      .timerHandler .expired false]).map (fun r => r.2.map Observation.mark) =
        some [.start, .neutral, .neutral, .activity, .neutral, .finish, .finish, .neutral] := rfl
  exact Reactive.exists_run_not_finishOnce hmarks (by decide)

end Query

end Arinc615a.Find
