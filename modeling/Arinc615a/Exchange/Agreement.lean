import Arinc615a.Exchange.Parties

/-!
# When both ends of an information operation agree

The host takes the list for the end of the operation as long as it has seen no status; the target
goes by what it has sent.  The invariant ties the two together over the files between them: the
target sends no final status, and the host does not stop its server, before the list is taken.
-/

open Reasoning

namespace Arinc615a.Exchange

open Files Information Tftp

/-! ## Connections -/

/-- The request for the list has been answered. -/
def Listed (cs : List Connection) : Prop :=
  ∃ connection ∈ cs, connection.transfer = .list ∧ connection.request ≠ .waiting

def isList (connection : Connection) : Bool := connection.transfer = .list

/-- Files are received as what they are, and only requests for status files come too late. -/
def Connection.Answered (running : Bool) (connection : Connection) : Prop :=
  match connection.request with
  | .waiting => True
  | .taken (.status _) => connection.transfer ≠ .list
  | .taken (.list _) => connection.transfer = .list
  | .taken _ => False
  | .refused status =>
    status = .communicationError ∧ connection.transfer ≠ .list ∧ running = false

theorem Connection.Answered.stop {running running' : Bool} {connection : Connection}
    (h : connection.Answered running) (hstop : running = false → running' = false) :
    connection.Answered running' := by
  -- a running server is only asked for where a request was refused
  unfold Connection.Answered at h ⊢
  split at h
  all_goals first
    | exact h
    | exact ⟨h.1, h.2.1, hstop h.2.2⟩

section Set

variable {cs : List Connection} {n : Nat} {connection connection' : Connection}

theorem listed_set_self (hn : cs[n]? = some connection) (hlist : connection'.transfer = .list)
    (hrequest : connection'.request ≠ .waiting) : Listed (cs.set n connection') :=
  ⟨connection', List.mem_of_getElem? (List.getElem?_set_self (List.getElem?_eq_some_iff.mp hn).1),
    hlist, hrequest⟩

theorem listed_set (hn : cs[n]? = some connection)
    (htransfer : connection'.transfer = connection.transfer)
    (hrequest : connection.request ≠ .waiting → connection'.request ≠ .waiting)
    (h : Listed cs) : Listed (cs.set n connection') := by
  obtain ⟨other, hmem, hlist, hanswered⟩ := h
  obtain ⟨m, hm⟩ := List.getElem?_of_mem hmem
  by_cases heq : n = m
  · subst heq
    rw [hn] at hm
    cases hm
    exact listed_set_self hn (htransfer.trans hlist) (hrequest hanswered)
  · exact ⟨other, List.mem_of_getElem? ((List.getElem?_set_ne heq).trans hm), hlist, hanswered⟩

theorem countP_set (hn : cs[n]? = some connection)
    (htransfer : connection'.transfer = connection.transfer) :
    (cs.set n connection').countP isList = cs.countP isList := by
  obtain ⟨hlt, hget⟩ := List.getElem?_eq_some_iff.mp hn
  have hsame : isList connection' = isList connection := by rw [isList, isList, htransfer]
  rw [List.countP_set hlt, hget, hsame]
  -- the place of the connection counts before and after, or neither time
  by_cases hlist : isList connection = true
  · have hpos : 0 < cs.countP isList :=
      List.countP_pos_iff.mpr ⟨connection, List.mem_of_getElem? hn, hlist⟩
    simp only [hlist, if_true]
    omega
  · simp [hlist]

/-- The list that waits for an answer is the only one. -/
theorem not_listed (hn : cs[n]? = some connection) (hlist : connection.transfer = .list)
    (hwaiting : connection.request = .waiting) (hone : cs.countP isList ≤ 1) : ¬Listed cs := by
  rintro ⟨other, hmem, hother, hanswered⟩
  -- without the connection, the other list would still be counted
  obtain ⟨m, hm⟩ := List.getElem?_of_mem hmem
  have hne : n ≠ m := by
    rintro rfl
    rw [hn] at hm
    cases hm
    exact hanswered hwaiting
  let changed : Connection := { connection with transfer := .initialisation }
  obtain ⟨hlt, hget⟩ := List.getElem?_eq_some_iff.mp hn
  have hcount : (cs.set n changed).countP isList < cs.countP isList := by
    have hold : isList connection = true := by simp [isList, hlist]
    have hnew : isList changed = false := by simp [isList, changed]
    have hpos : 0 < cs.countP isList :=
      List.countP_pos_iff.mpr ⟨connection, List.mem_of_getElem? hn, hold⟩
    rw [List.countP_set hlt, hget, hold, hnew]
    simp only [if_true, Bool.false_eq_true, if_false]
    omega
  have hkept : 0 < (cs.set n changed).countP isList :=
    List.countP_pos_iff.mpr ⟨other,
      List.mem_of_getElem? ((List.getElem?_set_ne hne).trans hm), by simp [isList, hother]⟩
  omega

end Set

/-! ## Transfers that are given up -/

namespace Connection

variable (connection : Connection)

/-- Whether a transfer is given up is no concern of the other members. -/
theorem drop_eq : ∃ dropped, connection.drop = { connection with dropped := dropped } := by
  unfold drop
  split
  · exact ⟨_, rfl⟩
  · exact ⟨connection.dropped, rfl⟩

@[simp] theorem drop_transfer : connection.drop.transfer = connection.transfer := by
  obtain ⟨dropped, h⟩ := connection.drop_eq
  rw [h]

@[simp] theorem drop_request : connection.drop.request = connection.request := by
  obtain ⟨dropped, h⟩ := connection.drop_eq
  rw [h]

end Connection

theorem listed_resetStatusOperation {cs : List Connection} (h : Listed cs) :
    Listed (resetStatusOperation cs) := by
  obtain ⟨connection, hmem, hlist, hanswered⟩ := h
  exact ⟨connection.drop, List.mem_map_of_mem hmem, by simpa using hlist, by simpa using hanswered⟩

theorem countP_resetStatusOperation (cs : List Connection) :
    (resetStatusOperation cs).countP isList = cs.countP isList := by
  rw [resetStatusOperation, List.countP_map]
  congr 1
  funext connection
  simp [isList]

/-! ## The invariant -/

/-- A connection as it stands between the two operations. -/
structure Connection.Valid (lib : Library) (c : Configuration) (listed : Prop) (running : Bool)
    (connection : Connection) : Prop where
  sends : Sends lib c listed connection.transfer connection.filename connection.data
  answered : connection.Answered running

namespace Connection.Valid

variable {lib : Library} {c : Configuration} {listed listed' : Prop} {running running' : Bool}
  {connection : Connection}

theorem mono (h : connection.Valid lib c listed running) (hlisted : listed → listed')
    (hstop : running = false → running' = false) : connection.Valid lib c listed' running' :=
  ⟨h.sends.mono hlisted, h.answered.stop hstop⟩

theorem drop (h : connection.Valid lib c listed running) :
    connection.drop.Valid lib c listed running := by
  obtain ⟨dropped, heq⟩ := connection.drop_eq
  rw [heq]
  exact ⟨h.sends, h.answered⟩

end Connection.Valid

/-- The lists that are sent, or that the handler will send. -/
def World.lists (w : World) : Nat :=
  w.connections.countP isList + w.calls.countP (· ≠ .accepted) +
    w.target.state.loop.pending.count .initialisation

/-- What holds between the two operations.  A server that is stopped, and a final status, come
behind the list. -/
structure Inv (lib : Library) (c : Configuration) (w : World) : Prop where
  host : identity w.host.operation = (.information, c.targetId, .noAbort)
  tracked : Host.World.Tracked w.host.operation w.host.loop.pending
  target : Regular c (Listed w.connections) w.target.state.operation
  rests : ∀ rest ∈ w.target.rests, Resumes (Listed w.connections) rest
  connections : ∀ connection ∈ w.connections,
    connection.Valid lib c (Listed w.connections) w.host.serverRunning
  stopped : w.host.serverRunning = false → Listed w.connections
  lists : w.lists ≤ 1
  calls : ∀ call ∈ w.calls, call ∈ c.handlerCalls
  initialisation : ∀ file, w.initialisation = some file → ∀ initFile rest,
    InitializationFile.decode lib.raw {} file = .done () initFile rest →
      initFile.response.code = .operationAccepted

/-- The host can read what it needs, and no transfer breaks off. -/
def World.Undisturbed (lib : Library) (w : World) : Event → Prop
  | .hostReceivesInitialisation => ∀ file ∈ w.initialisation,
    Host.Operation.InitialisationUsable lib .successful file
  | .hostCompletes n => ∀ connection ∈ w.connections[n]?, connection.transfer = .list →
    ((LoadConfigurationListFile.decode lib.raw {} connection.data).object?).isSome = true
  | .hostLoses _ => False
  | .targetCompletes n => ∀ connection ∈ w.connections[n]?, connection.dropped = false
  | _ => True

/-- A transfer that the target completes was taken by the host. -/
def World.Taken (w : World) : Event → Prop
  | .targetCompletes n => ∀ connection ∈ w.connections[n]?,
    ∀ status, connection.request ≠ .refused status
  | _ => True

instance (lib : Library) (w : World) : (event : Event) → Decidable (w.Undisturbed lib event)
  | .hostReceivesInitialisation => inferInstanceAs (Decidable (∀ file ∈ w.initialisation,
    _ ∧ ((InitializationFile.decode lib.raw {} file).object?).isSome = true))
  | .hostCompletes n => inferInstanceAs (Decidable (∀ connection ∈ w.connections[n]?,
    connection.transfer = .list →
      ((LoadConfigurationListFile.decode lib.raw {} connection.data).object?).isSome = true))
  | .hostLoses _ => .isFalse id
  | .targetCompletes n =>
    inferInstanceAs (Decidable (∀ connection ∈ w.connections[n]?, connection.dropped = false))
  | .hostDeferred _ | .hostTimerAborted | .targetSentInitialisation | .targetTimerElapses _
  | .targetTimerHandler _ | .handlerCalls | .handlerLeaves _ | .requestArrives _ =>
    .isTrue trivial

instance Request.decidableTaken : (request : Request) →
    Decidable (∀ status, request ≠ .refused status)
  | .waiting => .isTrue fun _ => Request.noConfusion
  | .taken _ => .isTrue fun _ => Request.noConfusion
  | .refused status => .isFalse fun h => h status rfl

instance (w : World) : (event : Event) → Decidable (w.Taken event)
  | .targetCompletes n => inferInstanceAs (Decidable (∀ connection ∈ w.connections[n]?,
    ∀ status, connection.request ≠ .refused status))
  | .hostDeferred _ | .hostTimerAborted | .hostReceivesInitialisation | .targetSentInitialisation
  | .targetTimerElapses _ | .targetTimerHandler _ | .handlerCalls | .handlerLeaves _
  | .requestArrives _ | .hostCompletes _ | .hostLoses _ => .isTrue trivial

/-- One step, from a state in which the server was running or not: the host finishes as completed,
and so does the target if the transfer was taken. -/
structure StepSpec (lib : Library) (c : Configuration) (running : Bool) (taken : Prop) (w' : World)
    (out : List Observation) : Prop where
  inv : Inv lib c w'
  host : ∀ code description, .host (.call (.finished code description)) ∈ out →
    code = .operationCompleted
  stays : running = false → w'.host.serverRunning = false
  stops : w'.host.serverRunning = false → running = false ∨
    ∃ description, .host (.call (.finished .operationCompleted description)) ∈ out
  target : (∀ status description, .target (.call (.finished status description)) ∈ out →
    status = .completed) ↔ taken
  late : ¬taken → w'.host.serverRunning = false

section Steps

variable {lib : Library} {c : Configuration} {w w' : World} {out : List Observation}

/-- A connection goes on, and the rest stays as it was. -/
theorem Inv.setConnection (hinv : Inv lib c w) {n : Nat} {connection connection' : Connection}
    (hn : w.connections[n]? = some connection)
    (hsame : connection'.transfer = connection.transfer ∧
      connection'.filename = connection.filename ∧ connection'.data = connection.data)
    (hrequest : connection.request ≠ .waiting → connection'.request ≠ .waiting)
    (hanswered : connection'.Answered w.host.serverRunning) :
    Inv lib c (w.setConnection n connection') := by
  have hlisted : Listed w.connections → Listed (w.connections.set n connection') :=
    listed_set hn hsame.1 hrequest
  refine ⟨hinv.host, hinv.tracked, hinv.target.mono hlisted,
    fun rest hrest => (hinv.rests rest hrest).mono hlisted, fun other hmem => ?_,
    fun hstopped => hlisted (hinv.stopped hstopped), ?_, hinv.calls, hinv.initialisation⟩
  · rcases List.mem_or_eq_of_mem_set hmem with hmem | rfl
    · exact (hinv.connections other hmem).mono hlisted id
    · refine ⟨?_, hanswered⟩
      obtain ⟨htransfer, hfilename, hdata⟩ := hsame
      rw [htransfer, hfilename, hdata]
      exact (hinv.connections connection (List.mem_of_getElem? hn)).sends.mono hlisted
  · have hlists := hinv.lists
    unfold World.lists at hlists ⊢
    show (w.connections.set n connection').countP isList + _ + _ ≤ 1
    rw [countP_set hn hsame.1]
    exact hlists

/-- The transfer of a status file is given up. -/
theorem Inv.statusReset (hinv : Inv lib c w) :
    Inv lib c { w with connections := resetStatusOperation w.connections } := by
  refine ⟨hinv.host, hinv.tracked, hinv.target.mono listed_resetStatusOperation,
    fun rest hrest => (hinv.rests rest hrest).mono listed_resetStatusOperation,
    fun connection hmem => ?_, fun hstopped => listed_resetStatusOperation (hinv.stopped hstopped),
    ?_, hinv.calls, hinv.initialisation⟩
  · obtain ⟨other, hother, rfl⟩ := List.mem_map.mp hmem
    exact (hinv.connections other hother).drop.mono listed_resetStatusOperation id
  · have hlists := hinv.lists
    unfold World.lists at hlists ⊢
    rw [countP_resetStatusOperation]
    exact hlists

/-- A step of the host. -/
theorem Inv.host_step (hinv : Inv lib c w) {event : Host.Event} {v host' : Host.World}
    {callback : Host.Operation → Host.Reaction} {observations : List Host.Observation}
    (hstep : w.host.step lib event = some (host', observations))
    (hreact : v.react callback = (host', observations)) (hop : v.operation = w.host.operation)
    (hrunning : v.serverRunning = w.host.serverRunning)
    (horderly : Orderly (Listed w.connections) w.host.operation (callback w.host.operation)) :
    StepSpec lib c w.host.serverRunning True { w with host := host' } (observations.map .host) := by
  -- the notes of the host do not depend on whether it has finished
  have htracked : Host.World.Tracked host'.operation host'.loop.pending :=
    Host.World.tracked_step hinv.tracked hstep
  cases hreact
  rw [← hop] at horderly
  -- no callback but the start starts the server
  have hserver : (v.react callback).1.serverRunning =
      (w.host.serverRunning && decide (.serverStop ∉ (callback v.operation).2)) := by
    rw [← hrunning]
    exact Host.World.foldl_server horderly.noStart _
  have hstays : w.host.serverRunning = false → (v.react callback).1.serverRunning = false := by
    intro hstopped
    rw [hserver, hstopped, Bool.false_and]
  -- a server that is stopped now was stopped before, or by this callback
  have hstopped : (v.react callback).1.serverRunning = false →
      w.host.serverRunning = false ∨ .serverStop ∈ (callback v.operation).2 := by
    intro hnow
    rw [hserver] at hnow
    simpa [or_iff_not_imp_left] using hnow
  have hmem : ∀ output, .call output ∈ (v.react callback).2 ↔ output ∈ (callback v.operation).2 := by
    intro output
    show Host.Observation.call output ∈ (callback v.operation).2.map Host.Observation.call ↔ _
    simp
  refine ⟨⟨horderly.same.trans (hop ▸ hinv.host), htracked, hinv.target, hinv.rests,
    fun connection hconnection => (hinv.connections connection hconnection).mono id hstays,
    fun hnow => ?_, hinv.lists,
    hinv.calls, hinv.initialisation⟩, fun code description hfinished => ?_, hstays, fun hnow => ?_,
    iff_of_true ?_ trivial, fun h => absurd trivial h⟩
  · rcases hstopped hnow with h | h
    · exact hinv.stopped h
    · exact (horderly.stops h).1
  · obtain ⟨o, ho, heq⟩ := List.mem_map.mp hfinished
    cases heq
    exact horderly.finished code description ((hmem _).mp ho)
  · refine (hstopped hnow).imp_right fun h => ?_
    obtain ⟨-, description, hfinished⟩ := horderly.stops h
    exact ⟨description, List.mem_map.mpr ⟨_, (hmem _).mpr hfinished, rfl⟩⟩
  · intro status description hfinished
    obtain ⟨o, -, heq⟩ := List.mem_map.mp hfinished
    cases heq

theorem StepSpec.silent (hinv : Inv lib c w') :
    StepSpec lib c w'.host.serverRunning True w' [] where
  inv := hinv
  host := by simp
  stays := id
  stops := .inl
  target := by simp
  late h := absurd trivial h

/-! ## Steps of the host -/

theorem hostStep_eq {event : Host.Event} (h : w.hostStep lib event = some (w', out)) :
    ∃ host' observations, w.host.step lib event = some (host', observations) ∧
      w' = { w with host := host' } ∧ out = observations.map .host := by
  obtain ⟨⟨host', observations⟩, hstep, heq⟩ := Option.map_eq_some_iff.mp h
  cases heq
  exact ⟨host', observations, hstep, rfl, rfl⟩

/-- The host completes a transfer. -/
theorem Inv.host_completes (hinv : Inv lib c w) {transfer : Host.Transfer} {data : Bytes}
    (h : w.hostStep lib (.completed transfer .successful data) = some (w', out))
    (horderly : ∀ loop, w.host.loop.complete transfer = some loop →
      Orderly (Listed w.connections) w.host.operation
        (Host.World.complete lib transfer .successful data w.host.operation)) :
    StepSpec lib c w.host.serverRunning True w' out := by
  obtain ⟨host', observations, hstep, rfl, rfl⟩ := hostStep_eq h
  obtain ⟨loop, hloop, hreact⟩ := Option.map_eq_some_iff.mp hstep
  exact hinv.host_step hstep hreact rfl rfl (horderly loop hloop)

theorem step_hostDeferred (hinv : Inv lib c w) {waitTime : Nat}
    (h : w.hostStep lib (.deferred waitTime) = some (w', out)) :
    StepSpec lib c w.host.serverRunning True w' out := by
  obtain ⟨host', observations, hstep, rfl, rfl⟩ := hostStep_eq h
  rcases Host.World.step_cases hstep with ⟨result, hstart⟩ | ⟨v, r, hruns, hreact⟩
  · cases hstart
  · cases hruns
    exact hinv.host_step hstep hreact rfl rfl (.idle rfl rfl)

theorem step_hostTimerAborted (hinv : Inv lib c w)
    (h : w.hostStep lib (.timerHandler .operationAborted) = some (w', out)) :
    StepSpec lib c w.host.serverRunning True w' out := by
  obtain ⟨host', observations, hstep, rfl, rfl⟩ := hostStep_eq h
  obtain ⟨loop, -, hreact⟩ := Option.map_eq_some_iff.mp hstep
  exact hinv.host_step hstep hreact rfl rfl (.idle rfl rfl)

theorem step_hostReceivesInitialisation (hinv : Inv lib c w) {file : Bytes}
    (hfile : w.initialisation = some file)
    (husable : Host.Operation.InitialisationUsable lib .successful file)
    (h : w.hostStep lib (.completed .initialisation .successful file) = some (w', out)) :
    StepSpec lib c w.host.serverRunning True w' out :=
  hinv.host_completes h fun _ _ =>
    orderly_initialisationFileCompleted husable (hinv.initialisation file hfile)

/-- The status that the host reads is the one that the target has sent. -/
theorem status_of_decode {status : InformationStatus} {data : Bytes}
    (hencode : InformationOperationStatusFile.encode lib.raw
      { protocolVersion := c.protocolVersion, status } = .ok data)
    {file : InformationOperationStatusFile} {rest : Bytes}
    (hdecode : InformationOperationStatusFile.decode lib.raw {} data = .done () file rest) :
    file.status.code = status.code := by
  obtain ⟨-, rfl, -⟩ :=
    (InformationOperationStatusFile.decode_encode_done_iff lib.raw hencode).mp hdecode
  rfl

theorem step_hostCompletes (hinv : Inv lib c w) {n : Nat}
    (hundisturbed : w.Undisturbed lib (.hostCompletes n))
    (h : w.step lib c (.hostCompletes n) = some (w', out)) :
    StepSpec lib c w.host.serverRunning True w' out := by
  simp only [World.step] at h
  split at h
  case h_1 => cases h
  case h_2 connection hn =>
    split at h
    case h_2 => cases h
    case h_1 transfer htaken hcompleted =>
      have hvalid := hinv.connections connection (List.mem_of_getElem? hn)
      have hanswered : connection.Answered w.host.serverRunning := hvalid.answered
      have hset : Inv lib c (w.setConnection n { connection with hostCompleted := true }) :=
        hinv.setConnection hn ⟨rfl, rfl, rfl⟩ id hanswered
      have hkind : w.host.operation.kind = .information := congrArg Prod.fst hinv.host
      have hlisted : connection.transfer = .list →
          Listed (w.connections.set n { connection with hostCompleted := true }) :=
        fun htransfer => listed_set_self hn htransfer (by simp [htaken])
      have hset_listed : Listed w.connections →
          Listed (w.connections.set n { connection with hostCompleted := true }) :=
        listed_set hn rfl id
      -- what the host takes a file for decides how it is read
      refine hset.host_completes h fun loop hloop => ?_
      unfold Connection.Answered at hanswered
      rw [htaken] at hanswered
      cases transfer with
      | initialisation | request => cases hanswered
      | status id =>
        rcases hvalid.sends.cases with ⟨status, -, -, hcode, hencode⟩ | ⟨htransfer, -⟩
        · refine orderly_statusFileCompleted hkind
            (Host.World.Tracked.remove hinv.tracked hloop).1 fun file rest hdecode => ?_
          rw [status_of_decode hencode hdecode]
          exact hcode.mono hset_listed
        · exact absurd htransfer hanswered
      | list checkValue =>
        have hreadable := hundisturbed connection hn hanswered
        cases hdecode : LoadConfigurationListFile.decode lib.raw {} connection.data with
        | thrown =>
          rw [hdecode] at hreadable
          cases hreadable
        | done _ file rest => exact orderly_listFileCompleted hkind hdecode (hlisted hanswered)

/-- A request is answered; a list is not refused, since nothing stops the server before it. -/
theorem step_requestArrives (hinv : Inv lib c w) {n : Nat}
    (h : w.step lib c (.requestArrives n) = some (w', out)) :
    StepSpec lib c w.host.serverRunning True w' out := by
  simp only [World.step] at h
  split at h
  case h_1 => cases h
  case h_2 connection hn =>
    split at h
    case isFalse => cases h
    case isTrue hwaiting =>
      have hvalid := hinv.connections connection (List.mem_of_getElem? hn)
      unfold World.requestArrives at h
      split at h
      case isFalse hstopped =>
        cases h
        have hrunning : w.host.serverRunning = false := by simpa using hstopped
        have hone : w.connections.countP isList ≤ 1 := by
          have hlists := hinv.lists
          unfold World.lists at hlists
          omega
        -- the server stops behind the list, and there is no second one
        have hnotList : connection.transfer ≠ .list := fun htransfer =>
          not_listed hn htransfer hwaiting hone (hinv.stopped hrunning)
        have hset : Inv lib c (w.setConnection n
            { connection with request := .refused .communicationError }) :=
          hinv.setConnection hn ⟨rfl, rfl, rfl⟩ (absurd hwaiting) ⟨rfl, hnotList, hrunning⟩
        exact .silent hset
      case isTrue hrunning =>
        obtain ⟨⟨host', observations⟩, hstep, heq⟩ := Option.map_eq_some_iff.mp h
        cases heq
        have hreact : (w.host.react fun op => op.tftpRequest c.targetAddress .write
            connection.filename { checksum := connection.checkValue }) = (host', observations) := by
          have hreact := hstep
          simp only [Host.World.step, hrunning, if_true, Option.some.injEq] at hreact
          exact hreact
        have hcalls : hostCalls observations =
            (w.host.operation.tftpRequest c.targetAddress .write connection.filename
              { checksum := connection.checkValue }).2 := by
          have hobservations : (w.host.operation.tftpRequest c.targetAddress .write
              connection.filename { checksum := connection.checkValue }).2.map .call =
                observations := congrArg Prod.snd hreact
          rw [← hobservations, hostCalls_map]
        have htakes := fun condition => tftpRequest_sends condition hvalid.sends hinv.host
          c.targetAddress { checksum := connection.checkValue }
        have hset : ∀ transfer : Host.Transfer,
            ({ connection with request := .taken transfer } : Connection).Answered
              w.host.serverRunning →
            Inv lib c (w.setConnection n { connection with request := .taken transfer }) :=
          fun transfer hanswered => hinv.setConnection hn ⟨rfl, rfl, rfl⟩ (absurd hwaiting) hanswered
        rw [hcalls]
        -- the answer says how the connection goes on, a status file or the list
        rcases (htakes True).2 with ⟨hne, id, hanswer⟩ | ⟨hlist, checkValue, hanswer⟩
        · rw [hanswer]
          exact (hset (.status id) hne).host_step hstep hreact rfl rfl (htakes _).1
        · rw [hanswer]
          exact (hset (.list checkValue) hlist).host_step hstep hreact rfl rfl (htakes _).1

/-! ## Steps of the target -/

theorem countP_handlerCalls (c : Configuration) (p : Prop) [Decidable p] :
    (if p then c.handlerCalls else []).countP (· ≠ .accepted) = if p then 1 else 0 := by
  split
  · simp [Configuration.handlerCalls]
  · rfl

/-- A list comes about for each call that opens one. -/
theorem countP_opensList (out : List Target.Output) :
    (out.filterMap Connection.ofOutput).countP isList + (if .initialised ∈ out then 1 else 0) ≤
      out.countP opensList := by
  induction out with
  | nil => simp
  | cons o out ih =>
    cases o with
    | initialised =>
      have hone : (if .initialised ∈ out then 1 else 0) ≤ 1 := by split <;> omega
      simp only [List.filterMap_cons, Connection.ofOutput, List.mem_cons_self, if_true,
        List.countP_cons, opensList]
      omega
    | protocolFile remote fileType filename data checkValue transfer =>
      cases transfer with
      | list =>
        simp only [List.filterMap_cons, Connection.ofOutput, List.countP_cons, opensList, isList,
          decide_true, if_true, List.mem_cons, reduceCtorEq, false_or]
        omega
      | initialisation | status | request =>
        simpa [List.filterMap_cons, Connection.ofOutput, isList, opensList] using ih
    | _ => simpa [List.filterMap_cons, Connection.ofOutput, opensList] using ih

/-- No callback starts the initialisation again. -/
theorem count_initialisation {finalStatus : FinalStatus} {listed : Prop} {out : List Target.Output}
    (h : ∀ o ∈ out, Allowed lib c listed finalStatus o) :
    (out.map Target.Output.command).count (.launch .initialisation) = 0 := by
  refine List.count_eq_zero_of_not_mem fun hmem => ?_
  obtain ⟨o, ho, heq⟩ := List.mem_map.mp hmem
  have hallowed := h o ho
  cases o with
  | sendInitFile => exact hallowed
  | protocolFile =>
    cases heq
    rcases Sends.cases hallowed with ⟨_, htransfer, -⟩ | ⟨htransfer, -⟩ <;> cases htransfer
  | _ => cases heq

theorem listed_afterTarget {target : Suspended Target.World Target.Rest}
    {observations : List Target.Observation} (h : Listed w.connections) :
    Listed (w.afterTarget c target observations).connections := by
  have hkept : Listed (if ((targetCalls observations).filterMap Connection.ofOutput).any
      Connection.isStatus then resetStatusOperation w.connections else w.connections) := by
    split
    · exact listed_resetStatusOperation h
    · exact h
  obtain ⟨connection, hmem, h⟩ := hkept
  exact ⟨connection, List.mem_append_left _ hmem, h⟩

/-- A part opens no more lists than it may. -/
theorem lists_afterTarget_le {v : Target.World} {part : Target.Part} {lists : Nat}
    {finalStatus : FinalStatus}
    (hproper : ProperPart lib c (Listed w.connections) lists finalStatus part)
    (rests : List Target.Rest) :
    (w.afterTarget c ((v.reactPart part).suspend rests).1 (v.reactPart part).out).lists ≤
      w.connections.countP isList + w.calls.countP (· ≠ .accepted) +
        v.loop.pending.count .initialisation + lists := by
  have hcalls : targetCalls (v.reactPart part).out = part.out := targetCalls_map part.out
  have hopens := countP_opensList part.out
  have hbound : part.out.countP opensList ≤ lists := hproper.proper.lists
  have hallowed : ∀ o ∈ part.out, Allowed lib c (Listed w.connections) finalStatus o :=
    hproper.proper.allowed
  have hpending : ((v.reactPart part).suspend rests).1.state.loop.pending.count .initialisation =
      v.loop.pending.count .initialisation := by
    have hcount := EventLoop.count_pending_performAll v.loop
      (part.out.map Target.Output.command) .initialisation
    rw [count_initialisation hallowed, Nat.add_zero] at hcount
    exact hcount
  have hkept : (if (part.out.filterMap Connection.ofOutput).any Connection.isStatus then
      resetStatusOperation w.connections else w.connections).countP isList =
        w.connections.countP isList := by
    split
    · exact countP_resetStatusOperation w.connections
    · rfl
  unfold World.lists World.afterTarget
  simp only [List.countP_append, hcalls, hkept, countP_handlerCalls, hpending]
  omega

/-- A part of a callback of the target, run with the lists that may still come. -/
theorem Inv.target_part (hinv : Inv lib c w) {v : Target.World} {part : Target.Part}
    {rests : List Target.Rest} {lists : Nat} {finalStatus : FinalStatus}
    (hproper : ProperPart lib c (Listed w.connections) lists finalStatus part)
    (hrests : ∀ rest ∈ rests, rest ∈ w.target.rests)
    (hlists : w.connections.countP isList + w.calls.countP (· ≠ .accepted) +
      v.loop.pending.count .initialisation + lists ≤ 1) :
    Inv lib c (w.afterTarget c ((v.reactPart part).suspend rests).1 (v.reactPart part).out) ∧
      ∀ status description, .target (.call (.finished status description)) ∈
          (v.reactPart part).out.map Observation.target → status = finalStatus := by
  have hcalls : targetCalls (v.reactPart part).out = part.out := targetCalls_map part.out
  have hlisted : Listed w.connections → Listed (w.afterTarget c
      ((v.reactPart part).suspend rests).1 (v.reactPart part).out).connections :=
    listed_afterTarget
  refine ⟨⟨hinv.host, hinv.tracked, hproper.proper.regular.mono hlisted, fun rest hrest => ?_,
    fun connection hmem => ?_, fun hstopped => hlisted (hinv.stopped hstopped), ?_,
    fun call hcall => ?_, hinv.initialisation⟩, fun status description hfinished => ?_⟩
  · rcases List.mem_append.mp hrest with hrest | hrest
    · exact (hproper.rest rest (Option.mem_toList.mp hrest)).mono hlisted
    · exact (hinv.rests rest (hrests rest hrest)).mono hlisted
  · rcases List.mem_append.mp hmem with hmem | hmem
    · refine Connection.Valid.mono ?_ hlisted id
      split at hmem
      · obtain ⟨other, hother, rfl⟩ := List.mem_map.mp hmem
        exact (hinv.connections other hother).drop
      · exact hinv.connections connection hmem
    · -- a new connection carries what the callback may send, and waits
      rw [hcalls] at hmem
      obtain ⟨o, ho, hconnection⟩ := List.mem_filterMap.mp hmem
      have hallowed := hproper.proper.allowed o ho
      cases o with
      | protocolFile =>
        cases hconnection
        exact ⟨Sends.mono hallowed hlisted, trivial⟩
      | _ => cases hconnection
  · exact (lists_afterTarget_le hproper rests).trans hlists
  · rcases List.mem_append.mp hcall with hcall | hcall
    · exact hinv.calls call hcall
    · split at hcall
      · exact hcall
      · cases hcall
  · obtain ⟨o, ho, heq⟩ := List.mem_map.mp hfinished
    cases heq
    obtain ⟨output, houtput, heq⟩ := List.mem_map.mp ho
    cases heq
    exact hproper.proper.allowed _ houtput

/-- What a part of the target comes to between the two operations. -/
theorem StepSpec.of_part {target : Suspended Target.World Target.Rest}
    {observations : List Target.Observation}
    (h : Inv lib c (w.afterTarget c target observations) ∧
      ∀ status description,
        .target (.call (.finished status description)) ∈ observations.map Observation.target →
          status = .completed) :
    StepSpec lib c w.host.serverRunning True (w.afterTarget c target observations)
      (observations.map .target) where
  inv := h.1
  host code description hmem := by
    obtain ⟨o, -, heq⟩ := List.mem_map.mp hmem
    cases heq
  stays := id
  stops := .inl
  target := iff_of_true h.2 trivial
  late hnot := absurd trivial hnot

/-- An event of the target runs the first part of a callback. -/
theorem targetStep_event {event : Target.Event} (hopening : event.opening = [])
    (h : w.targetStep lib c (.event event) = some (w', out)) :
    ∃ loop part, w.target.state.arrive event = some loop ∧
      event.part lib w.target.state.operation = some part ∧
      let v : Target.World := { w.target.state with loop := loop }
      w' = w.afterTarget c ((v.reactPart part).suspend w.target.rests).1 (v.reactPart part).out ∧
        out = (v.reactPart part).out.map .target := by
  obtain ⟨⟨target, observations⟩, hstep, heq⟩ := Option.map_eq_some_iff.mp h
  have hcalled : (Target.World.calls lib).step w.target (.event event) =
      some (target, observations) := hstep
  obtain ⟨p, rests, hruns, hsuspend⟩ := Calls.step_cases hcalled
  cases hruns with
  | event _ _ henter hfree =>
    obtain ⟨loop, part, harrive, hpart, rfl⟩ := Target.World.enter_eq_some henter
    rw [hopening] at hsuspend
    cases hsuspend
    cases heq
    exact ⟨loop, part, harrive, hpart, rfl, rfl⟩

/-- There is as much room for lists as the initialisation under way leaves. -/
theorem Inv.room (hinv : Inv lib c w) {loop : EventLoop Target.Transfer}
    (hloop : loop.pending.count .initialisation =
      w.target.state.loop.pending.count .initialisation) :
    w.connections.countP isList + w.calls.countP (· ≠ .accepted) +
      loop.pending.count .initialisation + 0 ≤ 1 := by
  rw [hloop]
  exact hinv.lists

/-- Completing another transfer leaves the initialisation under way. -/
theorem count_complete {loop loop' : EventLoop Target.Transfer} {transfer : Target.Transfer}
    (h : loop.complete transfer = some loop') (hne : transfer ≠ .initialisation) :
    loop'.pending.count .initialisation = loop.pending.count .initialisation := by
  rw [(EventLoop.complete_eq_some h).2, List.count_erase_of_ne hne.symm]

theorem step_targetSentInitialisation (hinv : Inv lib c w)
    (h : w.targetStep lib c (.event (.completed .initialisation .successful [])) =
      some (w', out)) :
    StepSpec lib c w.host.serverRunning True w' out := by
  obtain ⟨loop, part, harrive, hpart, rfl, rfl⟩ := targetStep_event rfl h
  cases hpart
  refine .of_part (hinv.target_part (properPart_sendInitFileComplete hinv.target) (fun _ => id) ?_)
  -- the transfer that is gone makes room for the list of the handler
  obtain ⟨hmem, hpending⟩ := EventLoop.complete_eq_some harrive
  have hpos := List.count_pos_iff.mpr hmem
  have hlists := hinv.lists
  unfold World.lists at hlists
  show _ + _ + loop.pending.count .initialisation + 1 ≤ 1
  rw [hpending, List.count_erase_self]
  omega

theorem step_targetTimerElapses (hinv : Inv lib c w) {result : WaitResult}
    (h : w.targetStep lib c (.event (.timerElapses result)) = some (w', out)) :
    StepSpec lib c w.host.serverRunning True w' out := by
  obtain ⟨loop, part, harrive, hpart, rfl, rfl⟩ := targetStep_event rfl h
  cases hpart
  exact .of_part (hinv.target_part (.still hinv.target) (fun _ => id)
    (hinv.room (by rw [EventLoop.elapse_eq_some harrive])))

theorem step_targetTimerHandler (hinv : Inv lib c w) {result : WaitResult}
    (h : w.targetStep lib c (.event (.timerHandler result)) = some (w', out)) :
    StepSpec lib c w.host.serverRunning True w' out := by
  obtain ⟨loop, part, harrive, hpart, rfl, rfl⟩ := targetStep_event rfl h
  cases hpart
  exact .of_part (hinv.target_part (.part (proper_timerHandler hinv.target result)) (fun _ => id)
    (hinv.room (by rw [EventLoop.take_eq_some harrive])))

/-- A call of the handler of the target is left. -/
theorem step_handlerLeaves (hinv : Inv lib c w) {exit : Exit}
    (h : w.targetStep lib c (.leave exit) = some (w', out)) :
    StepSpec lib c w.host.serverRunning True w' out := by
  obtain ⟨⟨target, observations⟩, hstep, heq⟩ := Option.map_eq_some_iff.mp h
  have hcalled : (Target.World.calls lib).step w.target (.leave exit) =
      some (target, observations) := hstep
  obtain ⟨p, rests, hruns, hsuspend⟩ := Calls.step_cases hcalled
  cases hruns with
  | leave _ rest _ hrests =>
    cases hsuspend
    cases heq
    have hrest : Resumes (Listed w.connections) rest :=
      hinv.rests rest (hrests ▸ List.mem_cons_self ..)
    exact .of_part (hinv.target_part (properPart_leave hinv.target hrest exit)
      (fun _ hmem => hrests ▸ List.mem_cons_of_mem _ hmem) hinv.lists)

theorem step_handlerCalls (hinv : Inv lib c w)
    (h : w.step lib c .handlerCalls = some (w', out)) :
    StepSpec lib c w.host.serverRunning True w' out := by
  simp only [World.step] at h
  split at h
  case h_1 => cases h
  case h_2 call calls hcalls =>
    have hmem : call ∈ c.handlerCalls := hinv.calls call (hcalls ▸ List.mem_cons_self ..)
    have hlists := hinv.lists
    unfold World.lists at hlists
    rw [hcalls, List.countP_cons] at hlists
    -- the call is taken first; the list that it sends takes its room
    have hfewer : ({ w with calls := calls } : World).lists ≤ 1 := by
      show w.connections.countP isList + calls.countP (· ≠ .accepted) +
        w.target.state.loop.pending.count .initialisation ≤ 1
      omega
    have hpopped : Inv lib c { w with calls := calls } :=
      ⟨hinv.host, hinv.tracked, hinv.target, hinv.rests, hinv.connections, hinv.stopped, hfewer,
        fun other hother => hinv.calls other (hcalls ▸ List.mem_cons_of_mem _ hother),
        hinv.initialisation⟩
    obtain ⟨loop, part, harrive, hpart, rfl, rfl⟩ := targetStep_event rfl h
    cases harrive
    obtain ⟨r, hr, hproper⟩ : ∃ r, w.target.state.operation.call lib call = some r ∧
        Proper lib c (Listed w.connections) (if call = .accepted then 0 else 1) .completed r :=
      proper_call hinv.target hmem
    obtain ⟨reaction, hcall, rfl⟩ := Option.map_eq_some_iff.mp hpart
    cases hcall.symm.trans hr
    refine .of_part (hpopped.target_part (.part hproper) (fun _ => id) ?_)
    by_cases haccepted : call = .accepted
    · simp only [haccepted, ne_eq, not_true_eq_false, decide_false] at hlists
      simpa [haccepted] using hlists
    · simp only [haccepted, ne_eq, not_false_eq_true, decide_true, if_true] at hlists
      simp only [haccepted, if_false]
      show _ + calls.countP (· ≠ .accepted) +
        w.target.state.loop.pending.count .initialisation + 1 ≤ 1
      simp only [ne_eq]
      omega

/-! ## Transfers that the target completes -/

section Completion

variable {n : Nat} {connection : Connection}

theorem completeAtTarget_host (w : World) (n : Nat) (connection : Connection) :
    (w.completeAtTarget n connection).host = w.host := by
  unfold World.completeAtTarget
  dsimp only
  split <;> rfl

theorem Inv.completeAtTarget (hinv : Inv lib c w) (hn : w.connections[n]? = some connection) :
    Inv lib c (w.completeAtTarget n connection) := by
  have hvalid := hinv.connections connection (List.mem_of_getElem? hn)
  have hset : Inv lib c (w.setConnection n { connection with targetCompleted := true }) :=
    hinv.setConnection hn ⟨rfl, rfl, rfl⟩ id hvalid.answered
  unfold World.completeAtTarget
  dsimp only
  split
  · exact hset.statusReset
  · exact hset

/-- What is known of the connections before a transfer is completed is known afterwards. -/
theorem listed_completeAtTarget
    (h : Listed (w.connections.set n { connection with targetCompleted := true })) :
    Listed (w.completeAtTarget n connection).connections := by
  unfold World.completeAtTarget
  dsimp only
  split
  · exact listed_resetStatusOperation h
  · exact h

/-- The target completes a transfer that was taken. -/
theorem step_taken (hinv : Inv lib c w) (hn : w.connections[n]? = some connection)
    {transfer : Host.Transfer} (htaken : connection.request = .taken transfer)
    (h : (w.completeAtTarget n connection).targetStep lib c
      (.event (.completed connection.transfer .successful [])) = some (w', out)) :
    StepSpec lib c w.host.serverRunning True w' out := by
  have hvalid := hinv.connections connection (List.mem_of_getElem? hn)
  have hdone := hinv.completeAtTarget hn
  obtain ⟨loop, part, harrive, hpart, rfl, rfl⟩ := targetStep_event rfl h
  rw [← completeAtTarget_host w n connection]
  have hproper : connection.transfer ≠ .initialisation ∧
      ProperPart lib c (Listed (w.completeAtTarget n connection).connections) 0 .completed
        part := by
    rcases hvalid.sends.cases with ⟨status, htransfer, -, hcode, -⟩ | ⟨htransfer, -⟩
    · rw [htransfer] at hpart ⊢
      cases hpart
      have hsendable : Sendable (Listed (w.completeAtTarget n connection).connections)
          status.code :=
        hcode.mono fun hlisted => listed_completeAtTarget (listed_set hn rfl id hlisted)
      exact ⟨by simp, properPart_statusFileCompleted hdone.target hsendable⟩
    · have hlisted : Listed (w.completeAtTarget n connection).connections :=
        listed_completeAtTarget (listed_set_self hn htransfer (by simp [htaken]))
      rw [htransfer] at hpart ⊢
      cases hpart
      exact ⟨by simp, properPart_listCompleted hdone.target hlisted⟩
  exact .of_part (hdone.target_part hproper.2 (fun _ => id)
    (hdone.room (count_complete harrive hproper.1)))

/-- The target completes the transfer of a status file that the stopped server did not take. -/
theorem step_refused (hinv : Inv lib c w) (hn : w.connections[n]? = some connection)
    {status : TransferStatus} (hrefused : connection.request = .refused status)
    (h : (w.completeAtTarget n connection).targetStep lib c
      (.event (.completed connection.transfer status [])) = some (w', out)) :
    StepSpec lib c w.host.serverRunning False w' out := by
  have hvalid := hinv.connections connection (List.mem_of_getElem? hn)
  have hdone := hinv.completeAtTarget hn
  have hanswered := hvalid.answered
  unfold Connection.Answered at hanswered
  rw [hrefused] at hanswered
  -- a transfer is refused only by a stopped server, and is no list then
  obtain ⟨rfl, hnotList, hstopped⟩ := hanswered
  obtain ⟨loop, part, harrive, hpart, rfl, rfl⟩ := targetStep_event rfl h
  rw [← completeAtTarget_host w n connection] at hstopped ⊢
  obtain ⟨sent, htransfer⟩ : ∃ sent, connection.transfer = .status (.information sent) := by
    rcases hvalid.sends.cases with ⟨sent, htransfer, -⟩ | ⟨htransfer, -⟩
    · exact ⟨sent, htransfer⟩
    · exact absurd htransfer hnotList
  have hroom := hdone.room (count_complete harrive (by simp [htransfer]))
  rw [htransfer] at hpart
  cases hpart
  let v : Target.World := { (w.completeAtTarget n connection).target.state with loop := loop }
  have hafter := hdone.target_part (v := v)
    (properPart_statusFileFailed hdone.target (.information sent)) (fun _ => id) hroom
  refine ⟨hafter.1, fun code description hmem => ?_, id, .inl, iff_of_false (fun hall => ?_) id,
    fun _ => hstopped⟩
  · obtain ⟨o, -, heq⟩ := List.mem_map.mp hmem
    cases heq
  · have hfinished := hall .abortedByTargetHardware (text "Status transmission failed")
      (List.mem_cons_self ..)
    exact absurd hfinished (by decide)

theorem step_targetCompletes (hinv : Inv lib c w)
    (hundisturbed : w.Undisturbed lib (.targetCompletes n))
    (h : w.step lib c (.targetCompletes n) = some (w', out)) :
    StepSpec lib c w.host.serverRunning (w.Taken (.targetCompletes n)) w' out := by
  simp only [World.step] at h
  split at h
  case h_1 => cases h
  case h_2 connection hn =>
    have htaken : w.Taken (.targetCompletes n) ↔
        ∀ status, connection.request ≠ .refused status := by
      simp [World.Taken, hn]
    rw [htaken]
    have hkept : connection.dropped = false := hundisturbed connection hn
    split at h
    case h_2 => cases h
    case h_1 status hresult hcompleted =>
      rw [Connection.result, hkept] at hresult
      cases hrequest : connection.request with
      | waiting =>
        rw [hrequest] at hresult
        cases hresult
      | taken transfer =>
        rw [hrequest] at hresult
        cases hresult
        simpa using step_taken hinv hn hrequest h
      -- only here the target ends in another way
      | refused status =>
        rw [hrequest] at hresult
        cases hresult
        simpa using step_refused hinv hn hrequest h

end Completion

/-! ## All steps -/

theorem step_spec (hinv : Inv lib c w) {event : Event} (hundisturbed : w.Undisturbed lib event)
    (h : w.step lib c event = some (w', out)) :
    StepSpec lib c w.host.serverRunning (w.Taken event) w' out := by
  cases event with
  | hostDeferred waitTime => exact step_hostDeferred hinv h
  | hostTimerAborted => exact step_hostTimerAborted hinv h
  | hostReceivesInitialisation =>
    simp only [World.step] at h
    split at h
    case h_1 => cases h
    case h_2 file hfile =>
      exact step_hostReceivesInitialisation hinv hfile (hundisturbed file hfile) h
  | targetSentInitialisation => exact step_targetSentInitialisation hinv h
  | targetTimerElapses result => exact step_targetTimerElapses hinv h
  | targetTimerHandler result => exact step_targetTimerHandler hinv h
  | handlerCalls => exact step_handlerCalls hinv h
  | handlerLeaves exit => exact step_handlerLeaves hinv h
  | requestArrives n => exact step_requestArrives hinv h
  | hostCompletes n => exact step_hostCompletes hinv hundisturbed h
  | hostLoses n => exact hundisturbed.elim
  | targetCompletes n => exact step_targetCompletes hinv hundisturbed h

end Steps

/-! ## Runs -/

/-- The initialisation file is sent as soon as the operation of the target is started. -/
theorem targetStarted_eq {lib : Library} {c : Configuration} {file : Bytes}
    (hencode : InitializationFile.encode lib.raw
      { protocolVersion := c.protocolVersion, response := { code := .operationAccepted } } =
        .ok file) :
    ∃ op : Target.Operation, Regular c False op ∧
      c.targetStarted lib = ({ operation := op : Target.World }.react fun op =>
        op.emit (.sendInitFile c.hostAddress file c.port)) := by
  let op : Target.Operation :=
    { targetId := c.targetId, protocolVersion := c.protocolVersion,
      statusTransmissionRate := c.statusTransmissionRate, hostAddress := c.hostAddress.address,
      hostPort := c.port.getD c.tftpServerPort, statusV := .information {} }
  refine ⟨op, ⟨rfl, rfl, {}, rfl, rfl, .inl rfl⟩, ?_⟩
  unfold Configuration.targetStarted Target.World.react Target.Operation.start
    Target.Operation.sendInitFile
  cases hport : c.port <;> simp only [hencode, op, hport, Option.getD]

theorem inv_initial (lib : Library) (c : Configuration) : Inv lib c (c.initial lib) := by
  let response : InitializationFile :=
    { protocolVersion := c.protocolVersion, response := { code := .operationAccepted } }
  obtain ⟨file, hencode⟩ :=
    (InitializationFile.encode_ok_iff lib.raw response).mpr (by simp [response])
  obtain ⟨op, hregular, hstarted⟩ := targetStarted_eq hencode
  have htracked : Host.World.Tracked c.hostStarted.operation c.hostStarted.loop.pending :=
    ⟨fun _ => rfl, fun _ => Nat.zero_le 1, fun _ h => absurd h (Nat.lt_irrefl 0)⟩
  refine ⟨rfl, htracked, ?_, by simp [Configuration.initial], by simp [Configuration.initial],
    fun h => (nomatch h), ?_, by simp [Configuration.initial],
    fun data hdata initFile rest hdecode => ?_⟩
  · show Regular c _ (c.targetStarted lib).1.operation
    rw [hstarted]
    exact hregular.mono False.elim
  · show _ + _ + (c.targetStarted lib).1.loop.pending.count .initialisation ≤ 1
    rw [hstarted]
    exact Nat.le_refl 1
  · have hfile : (c.initial lib).initialisation = some file := by
      unfold Configuration.initial
      rw [hstarted]
      rfl
    rw [hfile] at hdata
    cases hdata
    obtain ⟨-, rfl, -⟩ :=
      (InitializationFile.decode_encode_done_iff lib.raw hencode).mp hdecode
    rfl

/-- What the operations have told their handlers fits together. -/
def Agreement (out : List Observation) : Prop :=
  ∀ code description status description',
    .host (.call (.finished code description)) ∈ out →
      .target (.call (.finished status description')) ∈ out →
        (code = .operationCompleted ↔ status = .completed)

/-- The target finishes as completed only. -/
def TargetCompletes (out : List Observation) : Prop :=
  ∀ status description, .target (.call (.finished status description)) ∈ out →
    status = .completed

/-- Not the end of the target in any other way. -/
def Observation.Completes : Observation → Prop
  | .target (.call (.finished status _)) => status = .completed
  | _ => True

theorem targetCompletes_iff (out : List Observation) :
    TargetCompletes out ↔ ∀ o ∈ out, o.Completes := by
  constructor
  · intro h o ho
    unfold Observation.Completes
    split
    · exact h _ _ ho
    · trivial
  · intro h status description hmem
    exact h _ hmem

/-- What is known of a run besides the invariant: the host finishes as completed only, it stops its
server with that, and a target that finishes otherwise came too late. -/
structure History (lib : Library) (c : Configuration) (w : World) (out : List Observation) :
    Prop where
  inv : Inv lib c w
  host : ∀ code description, .host (.call (.finished code description)) ∈ out →
    code = .operationCompleted
  stopped : w.host.serverRunning = false →
    ∃ description, .host (.call (.finished .operationCompleted description)) ∈ out
  target : ¬TargetCompletes out → w.host.serverRunning = false

theorem History.step {lib : Library} {c : Configuration} {w w' : World} {event : Event}
    {past out : List Observation} (h : History lib c w past)
    (hundisturbed : w.Undisturbed lib event) (hstep : w.step lib c event = some (w', out)) :
    History lib c w' (past ++ out) := by
  have hspec := step_spec h.inv hundisturbed hstep
  refine ⟨hspec.inv, fun code description hmem => ?_, fun hstopped => ?_, fun hnot => ?_⟩
  · rcases List.mem_append.mp hmem with hmem | hmem
    · exact h.host code description hmem
    · exact hspec.host code description hmem
  · rcases hspec.stops hstopped with hstopped | ⟨description, hmem⟩
    · obtain ⟨description, hmem⟩ := h.stopped hstopped
      exact ⟨description, List.mem_append_left _ hmem⟩
    · exact ⟨description, List.mem_append_right _ hmem⟩
  -- the target ended badly in the past, or in this step
  · by_cases hpast : TargetCompletes past
    · refine hspec.late fun htaken => hnot fun status description hmem => ?_
      rcases List.mem_append.mp hmem with hmem | hmem
      · exact hpast status description hmem
      · exact hspec.target.mpr htaken status description hmem
    · exact hspec.stays (h.target hpast)

section Agreement

variable {lib : Library} {c : Configuration} {events : List Event} {w' : World}
  {out : List Observation}

/-- In an undisturbed run the target completes the operation exactly if its transfers were taken. -/
theorem targetCompletes_run_iff
    (hundisturbed : (system lib c).Throughout (World.Undisturbed lib) (c.initial lib) events)
    (hrun : (system lib c).run (c.initial lib) events = some (w', out)) :
    TargetCompletes out ↔ (system lib c).Throughout World.Taken (c.initial lib) events := by
  rw [targetCompletes_iff]
  have hgood : ∀ w event w' out, Inv lib c w → w.Undisturbed lib event →
      (system lib c).step w event = some (w', out) →
      ((∀ o ∈ out, o.Completes) ↔ w.Taken event) := by
    intro w event w' out hinv hundisturbed hstep
    rw [← targetCompletes_iff]
    exact (step_spec hinv hundisturbed hstep).target
  have hkeeps : ∀ w event w' out, Inv lib c w → w.Undisturbed lib event → w.Taken event →
      (system lib c).step w event = some (w', out) → Inv lib c w' :=
    fun _ _ _ _ hinv hundisturbed _ hstep => (step_spec hinv hundisturbed hstep).inv
  exact (system lib c).forall_run_iff_throughout hgood hkeeps (inv_initial lib c) hundisturbed hrun

/-- The host has completed the operation when the target ends it in another way. -/
theorem agreement_run_iff
    (hundisturbed : (system lib c).Throughout (World.Undisturbed lib) (c.initial lib) events)
    (hrun : (system lib c).run (c.initial lib) events = some (w', out)) :
    Agreement out ↔ (system lib c).Throughout World.Taken (c.initial lib) events := by
  have hempty : History lib c (c.initial lib) [] :=
    ⟨inv_initial lib c, by simp, fun h => (nomatch h), fun h =>
      absurd (show TargetCompletes [] from fun _ _ hmem => nomatch hmem) h⟩
  have hhistory : History lib c w' out :=
    (system lib c).run_history_throughout (fun _ _ _ _ _ h hundisturbed hstep =>
      History.step h hundisturbed hstep) hempty hundisturbed hrun
  rw [← targetCompletes_run_iff hundisturbed hrun]
  constructor
  · intro hagreement
    by_contra hnot
    -- the host has stopped its server, and with that it has completed the operation
    obtain ⟨description, hhost⟩ := hhistory.stopped (hhistory.target hnot)
    exact hnot fun status description' htarget =>
      (hagreement _ description status description' hhost htarget).mp rfl
  · intro hall code description status description' hhost htarget
    exact iff_of_true (hhistory.host code description hhost) (hall status description' htarget)

end Agreement

/-- The two ends agree in every undisturbed run in which every transfer that comes back to the
target was taken by the host.  In undisturbed runs it takes just that. -/
theorem information_agreement (lib : Library) (c : Configuration) {events : List Event}
    {w' : World} {out : List Observation}
    (hrun : (system lib c).run (c.initial lib) events = some (w', out)) :
    ((system lib c).Throughout (fun w event => w.Undisturbed lib event ∧ w.Taken event)
        (c.initial lib) events → Agreement out) ∧
      ((system lib c).Throughout (World.Undisturbed lib) (c.initial lib) events →
        (Agreement out ↔ (system lib c).Throughout World.Taken (c.initial lib) events)) := by
  refine ⟨fun hthroughout => ?_, fun hundisturbed => agreement_run_iff hundisturbed hrun⟩
  have hundisturbed : (system lib c).Throughout (World.Undisturbed lib) (c.initial lib) events :=
    fun pre e post s₁ out₁ hes hpre => (hthroughout pre e post s₁ out₁ hes hpre).1
  exact (agreement_run_iff hundisturbed hrun).mpr
    fun pre e post s₁ out₁ hes hpre => (hthroughout pre e post s₁ out₁ hes hpre).2

/-- A target with one hardware record, and a library that works out no check values. -/
def sample : Configuration where
  targetId := .ofText (text "ABCD_1")
  compliant := by decide
  protocolVersion := .arinc615a34
  dlpTimeout := 13
  portOption := false
  port := none
  tftpServerPort := 59
  statusTransmissionRate := 1
  hostAddress := ⟨1, 2⟩
  targetAddress := ⟨3, 4⟩
  targetsHardware := [{ literalName := text "FMC1", serialNumber := text "1", partNumbers := [] }]
  checkValueType := .notUsed

def sampleLibrary : Library where
  raw := .bigEndian
  generateCheckValue := fun _ _ => {}

/-- An end of the operation is told to a handler. -/
def Observation.ends : Observation → Bool
  | .host (.call (.finished ..)) | .target (.call (.finished ..)) => true
  | _ => false

/-- Each status file is received before the next one is sent, and both ends complete the
operation. -/
theorem information_agreement_sample :
    let events : List Event :=
      [.hostReceivesInitialisation, .targetSentInitialisation, .handlerCalls, .handlerCalls,
        .requestArrives 0, .requestArrives 1, .hostCompletes 0, .targetCompletes 0,
        .handlerLeaves .returned, .requestArrives 2, .hostCompletes 2, .targetCompletes 2,
        .handlerLeaves .returned, .hostCompletes 1, .targetCompletes 1, .requestArrives 3,
        .hostCompletes 3, .targetCompletes 3, .handlerLeaves .returned, .handlerLeaves .returned]
    ∃ w' out,
      (system sampleLibrary sample).run (sample.initial sampleLibrary) events = some (w', out) ∧
        (system sampleLibrary sample).Throughout
          (fun w event => w.Undisturbed sampleLibrary event ∧ w.Taken event)
          (sample.initial sampleLibrary) events ∧
        out.filter Observation.ends = [.host (.call (.finished .operationCompleted [])),
          .target (.call (.finished .completed []))] ∧
        Agreement out := by
  intro events
  have hends : ((system sampleLibrary sample).run (sample.initial sampleLibrary) events).map
      (fun r => r.2.filter Observation.ends) =
        some [.host (.call (.finished .operationCompleted [])),
          .target (.call (.finished .completed []))] := by
    decide +kernel
  have hthroughout : (system sampleLibrary sample).Throughout
      (fun w event => w.Undisturbed sampleLibrary event ∧ w.Taken event)
      (sample.initial sampleLibrary) events := by
    decide +kernel
  obtain ⟨⟨w', out⟩, hrun, hout⟩ := Option.map_eq_some_iff.mp hends
  exact ⟨w', out, hrun, hthroughout, hout,
    (information_agreement sampleLibrary sample hrun).1 hthroughout⟩

/-- The list is received while the first status file is still under way.  The host takes it for
the end of the operation and stops its server, and the target cannot deliver its next status. -/
theorem information_ends_differ :
    ∃ w' out, (system sampleLibrary sample).run (sample.initial sampleLibrary)
        [.hostReceivesInitialisation, .targetSentInitialisation, .handlerCalls, .handlerCalls,
          .requestArrives 0, .requestArrives 1, .hostCompletes 1, .hostCompletes 0,
          .targetCompletes 0, .handlerLeaves .returned, .requestArrives 2, .targetCompletes 2] =
        some (w', out) ∧ ¬Agreement out := by
  have hends : ((system sampleLibrary sample).run (sample.initial sampleLibrary)
      [.hostReceivesInitialisation, .targetSentInitialisation, .handlerCalls, .handlerCalls,
        .requestArrives 0, .requestArrives 1, .hostCompletes 1, .hostCompletes 0,
        .targetCompletes 0, .handlerLeaves .returned, .requestArrives 2, .targetCompletes 2]).map
        (fun r => r.2.filter Observation.ends) =
      some [.host (.call (.finished .operationCompleted [])),
        .target (.call (.finished .abortedByTargetHardware
          (text "Status transmission failed")))] := by
    decide +kernel
  obtain ⟨⟨w', out⟩, hrun, hout⟩ := Option.map_eq_some_iff.mp hends
  refine ⟨w', out, hrun, fun hagreement => ?_⟩
  have hmem : ∀ o ∈ out.filter Observation.ends, o ∈ out := fun _ h => List.mem_of_mem_filter h
  rw [show out.filter Observation.ends = _ from hout] at hmem
  have hend := hagreement _ _ _ _ (hmem _ (List.mem_cons_self ..))
    (hmem _ (List.mem_cons_of_mem _ (List.mem_cons_self ..)))
  exact absurd (hend.mp rfl) (by decide)

end Arinc615a.Exchange
