import Arinc615a.Find.Parties
import Arinc615a.Reasoning.Precedence

/-!
# A query and the servers that it finds

A query and any number of servers, driven by arbitrary users and timers.  The network loses, delays,
duplicates and reorders datagrams, and may deliver them to anyone, but does not make up datagrams: a
datagram that arrives has been sent before, and comes from the endpoint that it was sent from.
-/

open Reasoning

namespace Arinc615a.Find

open Files Tftp

structure Datagram where
  source : Endpoint
  data : Bytes
  deriving DecidableEq

/-- A server, and the endpoint that its datagrams come from. -/
structure Node where
  endpoint : Endpoint
  server : Server := {}
  deriving DecidableEq

structure Network where
  /-- The endpoint that the datagrams of the query come from. -/
  endpoint : Endpoint
  query : Query := {}
  nodes : List Node
  datagrams : List Datagram := []
  deriving DecidableEq

inductive NetworkEvent where
  | query (event : Event)
  | node (number : Nat) (event : Server.Event)
  | queryReceives (datagram : Datagram)
  | nodeReceives (number : Nat) (datagram : Datagram)
  deriving DecidableEq

inductive NetworkObservation where
  | query (observation : Observation)
  | node (number : Nat) (observation : Server.Observation)
  deriving DecidableEq

namespace Network

variable (raw : RawDataCodec) (s : Network)

def sentByQuery : Observation → Option Datagram
  | .send _ rawPacket => some ⟨s.endpoint, rawPacket⟩
  | _ => none

def sentByNode (endpoint : Endpoint) : Server.Observation → Option Datagram
  | .response _ findInformation => some ⟨endpoint, Server.response raw findInformation⟩
  | _ => none

def queryStep (event : Event) : Option (Network × List NetworkObservation) :=
  (s.query.step raw event).map fun (query, out) =>
    ({ s with query := query, datagrams := s.datagrams ++ out.filterMap s.sentByQuery },
      out.map .query)

def nodeStep (number : Nat) (event : Server.Event) : Option (Network × List NetworkObservation) :=
  match s.nodes[number]? with
  | none => none
  | some node =>
    (node.server.step raw event).map fun (server, out) =>
      ({ s with
          nodes := s.nodes.set number { node with server := server }
          datagrams := s.datagrams ++ out.filterMap (sentByNode raw node.endpoint) },
        out.map (.node number))

/-- A datagram arrives only by the events for it. -/
def step : NetworkEvent → Option (Network × List NetworkObservation)
  | .query (.datagramArrives _ _) => none
  | .query event => s.queryStep raw event
  | .node _ (.datagramArrives _ _) => none
  | .node number event => s.nodeStep raw number event
  | .queryReceives datagram =>
    if datagram ∈ s.datagrams then s.queryStep raw (.datagramArrives datagram.source datagram.data)
    else none
  | .nodeReceives number datagram =>
    if datagram ∈ s.datagrams then
      s.nodeStep raw number (.datagramArrives datagram.source datagram.data)
    else none

/-- Nobody has been started. -/
structure Unstarted (s : Network) : Prop where
  socket : s.query.socket = { remote := ⟨0, 0⟩ }
  responding : s.query.responding = false
  nodes : ∀ node ∈ s.nodes, node.server.socket = { remote := ⟨0, 0⟩ }
  datagrams : s.datagrams = []

end Network

def networkSystem (raw : RawDataCodec) : Reactive Network NetworkEvent NetworkObservation :=
  ⟨Network.step raw⟩

/-! ## Origins -/

section

variable (raw : RawDataCodec) (endpoint : Endpoint) (endpoints : List Endpoint)

/-- How a datagram that comes from somewhere has been sent. -/
inductive Origin (past : List NetworkObservation) : Endpoint → Bytes → Prop
  | request (destination : Endpoint)
      (h : .query (.send destination (Query.request raw)) ∈ past) :
    Origin past endpoint (Query.request raw)
  | response (number : Nat) (source destination : Endpoint) (findInformation : TargetInformation)
      (hnumber : endpoints[number]? = some source) (hpresentable : Presentable raw findInformation)
      (h : .node number (.response destination findInformation) ∈ past) :
    Origin past source (Server.response raw findInformation)

/-- A response that is handed over has been sent, as it is, by a server at its address; and a
request handler is called for the query, which has sent its request. -/
def Explained (past : List NetworkObservation) : NetworkObservation → Prop
  | .query (.response address targetInformation) =>
    ∃ number source destination, endpoints[number]? = some source ∧ source.address = address ∧
      .node number (.response destination targetInformation) ∈ past ∧
      (Server.response raw targetInformation).length ≤ Packet.maxPacketSize
  | .node _ (.call (.requestHandler remote)) =>
    remote = endpoint ∧ ∃ destination, .query (.send destination (Query.request raw)) ∈ past
  | _ => True

/-- Nobody is started anew while something is in flight, and servers send what can be told. -/
def Orderly (s : Network) : NetworkEvent → Prop
  | .query (.start _) => s.query.Idle
  | .node number (.start _) =>
    ∀ node, s.nodes[number]? = some node → node.server.socket.inFlight = 0
  | .node _ (.response _ findInformation _) => Presentable raw findInformation
  | _ => True

structure NetworkInv (s : Network) (past : List NetworkObservation) : Prop where
  sender : s.endpoint = endpoint
  senders : s.nodes.map (·.endpoint) = endpoints
  query : s.query.Serial (Origin raw endpoint endpoints past)
  nodes : ∀ node ∈ s.nodes, SerialReceives (Origin raw endpoint endpoints past) 0 node.server.socket
  datagrams : ∀ datagram ∈ s.datagrams,
    Origin raw endpoint endpoints past datagram.source datagram.data

end

section

variable {raw : RawDataCodec} {endpoint : Endpoint} {endpoints : List Endpoint} {s s' : Network}
  {past out : List NetworkObservation} {e : NetworkEvent}

theorem Origin.append {source : Endpoint} {data : Bytes} (more : List NetworkObservation)
    (h : Origin raw endpoint endpoints past source data) :
    Origin raw endpoint endpoints (past ++ more) source data := by
  cases h with
  | request destination h => exact .request destination (List.mem_append_left _ h)
  | response number source destination findInformation hnumber hpresentable h =>
    exact .response number source destination findInformation hnumber hpresentable
      (List.mem_append_left _ h)

theorem lasting_explained : Lasting (Explained raw endpoint endpoints) := by
  intro past more o h
  cases o with
  | query observation =>
    cases observation with
    | response address targetInformation =>
      obtain ⟨number, source, destination, hnumber, haddress, hsent, hsize⟩ := h
      exact ⟨number, source, destination, hnumber, haddress, List.mem_append_left _ hsent, hsize⟩
    | _ => trivial
  | node number observation =>
    cases observation with
    | call output =>
      cases output with
      | requestHandler remote =>
        obtain ⟨hremote, destination, hsent⟩ := h
        exact ⟨hremote, destination, List.mem_append_left _ hsent⟩
      | receive => trivial
    | _ => trivial

/-- A response that has arrived, in whole or in part, explains what is handed over. -/
theorem explained_of_told {remote : Endpoint} {datagram : Bytes}
    {targetInformation : TargetInformation} (h : Origin raw endpoint endpoints past remote datagram)
    (hwhole : datagram.take Packet.maxPacketSize = Server.response raw targetInformation)
    (hfree : ∀ s ∈ targetInformation.parameters, Packet.stringTerminator ∉ s) :
    Explained raw endpoint endpoints past
      (.query (.response remote.address targetInformation)) := by
  cases h with
  | request destination h =>
    have htype := packetType_response raw targetInformation
      (Server.response raw targetInformation).length (by simp [Server.response, Packet.encode])
    rw [List.take_length, ← hwhole, List.take_of_length_le (by simp [length_request]; decide),
      packetType_request] at htype
    cases htype
  | response number source destination findInformation hnumber hpresentable h =>
    obtain ⟨rfl, hsize⟩ := eq_of_take_response hpresentable hfree hwhole
    exact ⟨number, remote, destination, hnumber, rfl, h, hsize⟩

theorem explained_of_heard {remote : Endpoint} {datagram : Bytes} (number : Nat)
    (h : Origin raw endpoint endpoints past remote datagram)
    (htype : Packet.packetType raw (datagram.take Packet.maxPacketSize) = .informationRequest) :
    Explained raw endpoint endpoints past (.node number (.call (.requestHandler remote))) := by
  cases h with
  | request destination h => exact ⟨rfl, destination, h⟩
  | response =>
    rw [packetType_response raw _ _ (by decide)] at htype
    cases htype

theorem NetworkInv.queryStep {event : Event} (hinv : NetworkInv raw endpoint endpoints s past)
    (hstep : s.queryStep raw event = some (s', out))
    (hgranted : s.query.Granted (Origin raw endpoint endpoints past) event) :
    NetworkInv raw endpoint endpoints s' (past ++ out) ∧
      Preceded (Explained raw endpoint endpoints) past out := by
  obtain ⟨⟨query, seen⟩, hquery, heq⟩ := Option.map_eq_some_iff.mp hstep
  cases heq
  obtain ⟨hserial, hreliable⟩ := Query.serial_step hinv.query hquery hgranted
  refine ⟨⟨hinv.sender, hinv.senders, hserial.mono fun _ _ h => h.append _,
    fun node hnode => (hinv.nodes node hnode).mono fun _ _ h => h.append _, ?_⟩, ?_⟩
  · refine List.forall_mem_append.mpr ⟨fun datagram h => (hinv.datagrams datagram h).append _, ?_⟩
    intro datagram hdatagram
    obtain ⟨o, ho, hsent⟩ := List.mem_filterMap.mp hdatagram
    cases o with
    | send remote rawPacket =>
      obtain rfl := hreliable.sends remote rawPacket ho
      cases hsent
      rw [hinv.sender]
      exact .request remote (List.mem_append_right _ (List.mem_map_of_mem ho))
    | _ => cases hsent
  · refine .of_forall lasting_explained fun o ho => ?_
    obtain ⟨observation, hobservation, rfl⟩ := List.mem_map.mp ho
    cases observation with
    | response address targetInformation =>
      obtain ⟨remote, datagram, horigin, rfl, hwhole, hfree⟩ :=
        hreliable.hands address targetInformation hobservation
      exact explained_of_told horigin hwhole hfree
    | _ => trivial

theorem NetworkInv.nodeStep {number : Nat} {event : Server.Event}
    (hinv : NetworkInv raw endpoint endpoints s past)
    (hstep : s.nodeStep raw number event = some (s', out))
    (hgranted : ∀ node, s.nodes[number]? = some node →
      node.server.Granted raw (Origin raw endpoint endpoints past) event) :
    NetworkInv raw endpoint endpoints s' (past ++ out) ∧
      Preceded (Explained raw endpoint endpoints) past out := by
  unfold Network.nodeStep at hstep
  split at hstep
  · cases hstep
  next node hnode =>
    obtain ⟨⟨server, seen⟩, hserver, heq⟩ := Option.map_eq_some_iff.mp hstep
    cases heq
    have hmem := List.mem_of_getElem? hnode
    obtain ⟨hserial, hreliable⟩ := Server.serial_step (hinv.nodes node hmem) hserver
      (hgranted node hnode)
    have hsame : (s.nodes.set number { node with server := server }).map (·.endpoint) =
        s.nodes.map (·.endpoint) := by
      obtain ⟨hlt, hget⟩ := List.getElem?_eq_some_iff.mp hnode
      have hlt' : number < (s.nodes.map (·.endpoint)).length := by rwa [List.length_map]
      have hsame : node.endpoint = (s.nodes.map (·.endpoint))[number] := by
        rw [List.getElem_map, hget]
      rw [List.map_set, hsame, List.set_getElem_self]
    refine ⟨⟨hinv.sender, hsame.trans hinv.senders, hinv.query.mono fun _ _ h => h.append _,
      fun other hother => ?_, ?_⟩, ?_⟩
    · rcases List.mem_or_eq_of_mem_set hother with hold | rfl
      · exact (hinv.nodes other hold).mono fun _ _ h => h.append _
      · exact hserial.mono fun _ _ h => h.append _
    · refine List.forall_mem_append.mpr
        ⟨fun datagram h => (hinv.datagrams datagram h).append _, ?_⟩
      intro datagram hdatagram
      obtain ⟨o, ho, hsent⟩ := List.mem_filterMap.mp hdatagram
      cases o with
      | response remote findInformation =>
        cases hsent
        have hnumber : endpoints[number]? = some node.endpoint := by
          rw [← hinv.senders, List.getElem?_map, hnode]
          rfl
        exact .response number node.endpoint remote findInformation hnumber
          (hreliable.responds remote findInformation ho)
          (List.mem_append_right _ (List.mem_map_of_mem ho))
      | _ => cases hsent
    · refine .of_forall lasting_explained fun o ho => ?_
      obtain ⟨observation, hobservation, rfl⟩ := List.mem_map.mp ho
      cases observation with
      | call output =>
        cases output with
        | requestHandler remote =>
          obtain ⟨datagram, horigin, htype⟩ := hreliable.hears remote hobservation
          exact explained_of_heard number horigin htype
        | receive => trivial
      | _ => trivial

theorem NetworkInv.step (hinv : NetworkInv raw endpoint endpoints s past)
    (horderly : Orderly raw s e) (hstep : s.step raw e = some (s', out)) :
    NetworkInv raw endpoint endpoints s' (past ++ out) ∧
      Preceded (Explained raw endpoint endpoints) past out := by
  cases e with
  | query event =>
    cases event with
    | datagramArrives => cases hstep
    | start error => exact hinv.queryStep hstep horderly
    | _ => exact hinv.queryStep hstep trivial
  | node number event =>
    cases event with
    | datagramArrives => cases hstep
    | start error => exact hinv.nodeStep hstep horderly
    | response remote findInformation sendFails => exact hinv.nodeStep hstep fun _ _ => horderly
    | _ => exact hinv.nodeStep hstep fun _ _ => trivial
  | queryReceives datagram =>
    simp only [Network.step] at hstep
    split at hstep
    case isTrue hsent => exact hinv.queryStep hstep (hinv.datagrams datagram hsent)
    case isFalse => cases hstep
  | nodeReceives number datagram =>
    simp only [Network.step] at hstep
    split at hstep
    case isTrue hsent => exact hinv.nodeStep hstep fun _ _ => hinv.datagrams datagram hsent
    case isFalse => cases hstep

theorem Network.Unstarted.inv (h : s.Unstarted) :
    NetworkInv raw s.endpoint (s.nodes.map (·.endpoint)) s [] where
  sender := rfl
  senders := rfl
  query := by
    rw [Query.Serial, h.responding, h.socket]
    exact .created _
  nodes node hnode := by
    rw [h.nodes node hnode]
    exact .created _
  datagrams := by
    rw [h.datagrams]
    exact List.forall_mem_nil _

/-- Over any run, a query is told what its servers have said, and servers are asked by the query. -/
theorem find_authentic {events : List NetworkEvent} (hunstarted : s.Unstarted)
    (horderly : (networkSystem raw).Throughout (Orderly raw) s events)
    (hrun : (networkSystem raw).run s events = some (s', out)) :
    ∀ pre o post, out = pre ++ o :: post →
      Explained raw s.endpoint (s.nodes.map (·.endpoint)) pre o :=
  (networkSystem raw).run_preceded (fun _ _ _ _ _ hinv horderly => hinv.step horderly)
    hunstarted.inv horderly hrun

/-- A server that is asked, and found. -/
theorem find_authentic_found :
    let found : TargetInformation := { thwId := text "HNPFMS", manufacturerCode := text "AB" }
    ∃ after pre post,
      (networkSystem .bigEndian).run { endpoint := ⟨1, 1001⟩, nodes := [{ endpoint := ⟨7, 1001⟩ }] }
          [.query (.start none), .node 0 (.start none),
            .nodeReceives 0 ⟨⟨1, 1001⟩, [0, 1, 0, 0x10]⟩, .node 0 (.receiveHandler (.received 4)),
            .node 0 (.response ⟨1, 1001⟩ found false),
            .queryReceives ⟨⟨7, 1001⟩, Server.response .bigEndian found⟩,
            .query (.receiveHandler (.received 16))] =
        some (after, pre ++ .query (.response 7 found) :: post) ∧
      ∃ number source destination, [(⟨7, 1001⟩ : Endpoint)][number]? = some source ∧
        source.address = 7 ∧
        .node number (.response destination found) ∈ pre ∧
        (Server.response .bigEndian found).length ≤ Packet.maxPacketSize := by
  intro found
  let s : Network := { endpoint := ⟨1, 1001⟩, nodes := [{ endpoint := ⟨7, 1001⟩ }] }
  have hunstarted : s.Unstarted := ⟨rfl, rfl, by simp [s], rfl⟩
  have hseen : ((networkSystem .bigEndian).run s
      [.query (.start none), .node 0 (.start none),
        .nodeReceives 0 ⟨⟨1, 1001⟩, [0, 1, 0, 0x10]⟩, .node 0 (.receiveHandler (.received 4)),
        .node 0 (.response ⟨1, 1001⟩ found false),
        .queryReceives ⟨⟨7, 1001⟩, Server.response .bigEndian found⟩,
        .query (.receiveHandler (.received 16))]).map
      (fun r => decide (.query (.response 7 found) ∈ r.2)) = some true := by
    decide +kernel
  obtain ⟨⟨after, seen⟩, hrun, hmem⟩ := Option.map_eq_some_iff.mp hseen
  obtain ⟨pre, post, rfl⟩ := List.append_of_mem (of_decide_eq_true hmem)
  have horderly : (networkSystem .bigEndian).Throughout (Orderly .bigEndian) s
      [.query (.start none), .node 0 (.start none),
        .nodeReceives 0 ⟨⟨1, 1001⟩, [0, 1, 0, 0x10]⟩, .node 0 (.receiveHandler (.received 4)),
        .node 0 (.response ⟨1, 1001⟩ found false),
        .queryReceives ⟨⟨7, 1001⟩, Server.response .bigEndian found⟩,
        .query (.receiveHandler (.received 16))] := by
    refine ((networkSystem .bigEndian).throughout_cons rfl).mpr ⟨⟨rfl, rfl⟩, ?_⟩
    refine ((networkSystem .bigEndian).throughout_cons rfl).mpr ⟨?_, ?_⟩
    · intro node hnode
      cases hnode
      rfl
    -- whatever the state, the other events are in order
    have hothers : ∀ e ∈ ([.nodeReceives 0 ⟨⟨1, 1001⟩, [0, 1, 0, 0x10]⟩,
        .node 0 (.receiveHandler (.received 4)), .node 0 (.response ⟨1, 1001⟩ found false),
        .queryReceives ⟨⟨7, 1001⟩, Server.response .bigEndian found⟩,
        .query (.receiveHandler (.received 16))] : List NetworkEvent),
        ∀ s, Orderly .bigEndian s e := by
      have hfree : Presentable .bigEndian found := .inl (by decide)
      simp [Orderly, hfree]
    exact (networkSystem .bigEndian).throughout_of_forall hothers
  exact ⟨after, pre, post, hrun, find_authentic hunstarted horderly hrun pre _ post rfl⟩

end

end Arinc615a.Find
