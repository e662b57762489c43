import Arinc615a.Files.Accepted
import Arinc615a.Files.Header
import Arinc615a.Host.Frame

/-!
# The protocol version of the request files

The version of the initialisation file is stored when the file has been accepted, behind the call of
`initialisationResponse`.  A request file carries the version that is stored when the user calls for
it: that of an earlier run, or none at all, if the call comes too early.
-/

open Reasoning

namespace Arinc615a.Host

open Files Information Tftp

/-- The version of an initialisation file that accepts the operation. -/
def acceptedVersion (lib : Library) (rawInitialisationFile : Bytes) : Option Arinc615aVersion :=
  match InitializationFile.decode lib.raw {} rawInitialisationFile with
  | .done _ initFile _ =>
    if initFile.response.code = .operationAccepted then some initFile.protocolVersion else none
  | .thrown .. => none

namespace Operation

/-- The calls that a handler makes one after the other.  It catches their exceptions. -/
def sendAll (lib : Library) (op : Operation) : List Request → Option Reaction
  | [] => some (op, [])
  | request :: requests =>
    match op.send lib request with
    | none => none
    | some (.error _) => sendAll lib op requests
    | some (.ok reaction) =>
      (sendAll lib reaction.1 requests).map fun rest => (rest.1, reaction.2 ++ rest.2)

/-- `initialisationFileCompleted` when the handler makes calls before `initialisationResponse`
returns.  The exception of a last call may leave the handler. -/
def initialisationFileCompletedCalling (lib : Library) (op : Operation)
    (rawInitialisationFile : Bytes) (requests : List Request) (last : Option Request) :
    Option Reaction :=
  let op := { op with initialisationOperation := false }
  match InitializationFile.decode lib.raw {} rawInitialisationFile with
  | .done _ initFile _ =>
    (op.sendAll lib requests).bind fun called =>
      let responded : Reaction :=
        (called.1, .initialisationResponse initFile.response :: called.2)
      match last with
      | none => some (responded.andThen fun op => op.initialisationAnswered initFile)
      | some request =>
        match called.1.send lib request with
        | some (.error _) =>
          some (responded.andThen fun op =>
            op.finished .operationAbortedByDlp (text "Initialisation File could not be received"))
        | _ => none
  | .thrown .. => none

/-- Without calls it is what the code does. -/
theorem initialisationFileCompletedCalling_nil (lib : Library) (op : Operation) {data rest : Bytes}
    {initFile : InitializationFile}
    (h : InitializationFile.decode lib.raw {} data = .done () initFile rest) :
    op.initialisationFileCompletedCalling lib data [] none =
      some (op.initialisationFileCompleted lib .successful data) := by
  simp only [initialisationFileCompletedCalling, initialisationFileCompleted, h]
  rfl

end Operation

/-- A host operation, and the version of the initialisation file that has been accepted since the
last start. -/
structure Announced where
  world : World
  version : Option Arinc615aVersion := none
  deriving DecidableEq

/-- The initialisation file arrives in an event of its own if the handler makes calls before
`initialisationResponse` returns. -/
inductive Calling where
  | event (e : Event)
  | initialised (data : Bytes) (requests : List Operation.Request)
      (last : Option Operation.Request)
  deriving DecidableEq

namespace Announced

/-- The version that a file of the run has to carry from an event on. -/
def versionAfter (lib : Library) (s : Announced) : Event → Option Arinc615aVersion
  | .start _ => none
  | .completed .initialisation .successful data => (acceptedVersion lib data).or s.version
  | _ => s.version

/-- What is seen comes with the version of the initialisation file that has been accepted. -/
def step (lib : Library) (s : Announced) :
    Calling → Option (Announced × List (Observation × Option Arinc615aVersion))
  | .event e =>
    (s.world.step lib e).map fun (w, out) =>
      ({ world := w, version := s.versionAfter lib e }, out.map (·, s.version))
  | .initialised data requests last =>
    (s.world.loop.complete .initialisation).bind fun loop =>
      (s.world.operation.initialisationFileCompletedCalling lib data requests last).map
        fun reaction =>
          let (w, out) := { s.world with loop := loop }.react fun _ => reaction
          let announced := (acceptedVersion lib data).or s.version
          -- a file whose handler has thrown has not been accepted
          ({ world := w, version := if last.isNone then announced else s.version },
            out.map (·, announced))

end Announced

def announcedSystem (lib : Library) :
    Reactive Announced Calling (Observation × Option Arinc615aVersion) :=
  ⟨Announced.step lib⟩

/-- A request file that is transmitted carries the version of the initialisation file, and
`decodeHeader` accepts it. -/
def Announces (lib : Library) (o : Observation × Option Arinc615aVersion) : Prop :=
  match o.1 with
  | .call (.transmitFile _ _ data) =>
    ∃ version rest, o.2 = some version ∧ decodeHeader lib.raw data = .ok (version, rest)
  | _ => True

/-- A call that transmits a file comes when an initialisation file has been accepted since the last
start.  Out of `initialisationResponse` it finds the version of that file stored already. -/
def CallsInTime (lib : Library) (s : Announced) : Calling → Prop
  | .event e => SendsRequest lib s.world e → s.version.isSome
  | .initialised data requests _ =>
    (∃ request ∈ requests, SendsRequest lib s.world (.send request)) →
      (acceptedVersion lib data).or s.version = some s.world.operation.protocolVersion

/-- The version of the run is the one that is stored. -/
def Announced.Stored (s : Announced) : Prop :=
  ∀ version, s.version = some version →
    s.world.operation.protocolVersion = version ∧ version.Supported

/-! ## What a call transmits -/

namespace Operation

variable {lib : Library} {op : Operation} {request : Request} {r : Reaction}

theorem send_hasHeader (h : op.send lib request = some (.ok r)) {fileType : ProtocolFileType}
    {filename : Text} {file : Bytes} (hfile : .transmitFile fileType filename file ∈ r.2) :
    HasHeader lib.raw op.protocolVersion file := by
  have htransmit : ∀ {fileType' : ProtocolFileType} {filename' : Text}
      {encoded : Except Arinc615aException Bytes},
      (∀ file, encoded = .ok file → HasHeader lib.raw op.protocolVersion file) →
      (if op.sent then Except.ok (op, []) else do
        let file ← encoded
        Except.ok (op, [Output.transmitFile fileType' filename' file,
          Output.transferStart .request])) = .ok r →
      HasHeader lib.raw op.protocolVersion file := by
    intro fileType' filename' encoded hencoded heq
    split at heq
    · cases heq
      cases hfile
    · obtain ⟨file', hfile', heq⟩ := bind_eq_ok heq
      cases heq
      simp only [List.mem_cons, Output.transmitFile.injEq, reduceCtorEq, List.not_mem_nil,
        or_false] at hfile
      obtain ⟨-, -, rfl⟩ := hfile
      exact hencoded file hfile'
  unfold send at h
  split at h
  · exact htransmit (fun _ => UploadOperationRequestFile.encode_hasHeader) (Option.some.inj h)
  · exact htransmit (fun _ => DownloadOperationRequestFile.encode_hasHeader) (Option.some.inj h)
  · exact htransmit (fun _ => DownloadOperationAnswerFile.encode_hasHeader) (Option.some.inj h)
  · cases h

theorem acceptedVersion_supported {data : Bytes} {version : Arinc615aVersion}
    (h : acceptedVersion lib data = some version) : version.Supported := by
  unfold acceptedVersion at h
  split at h
  case h_1 initFile rest hdecode =>
    split at h
    · cases h
      exact (InitializationFile.decode_done lib.raw hdecode).1
    · cases h
  case h_2 => cases h

theorem protocolVersion_initialisationAnswered (op : Operation) (initFile : InitializationFile) :
    (op.initialisationAnswered initFile).1.protocolVersion =
      if initFile.response.code = .operationAccepted then initFile.protocolVersion
      else op.protocolVersion := by
  unfold initialisationAnswered
  cases initFile.response.code with
  | operationAccepted | operationDenied | operationNotSupported | operationDeferred => rfl

/-- The version is stored when an initialisation file has been accepted. -/
theorem protocolVersion_initialisationFileCompleted (lib : Library) (op : Operation)
    (data : Bytes) :
    (op.initialisationFileCompleted lib .successful data).1.protocolVersion =
      (acceptedVersion lib data).getD op.protocolVersion := by
  unfold initialisationFileCompleted acceptedVersion
  rw [if_neg (by decide)]
  split
  case h_1 initFile rest hdecode =>
    have hanswered := protocolVersion_initialisationAnswered
      { op with initialisationOperation := false } initFile
    refine hanswered.trans ?_
    simp only [hdecode]
    split
    · rfl
    · rfl
  case h_2 hdecode =>
    rw [hdecode]
    rfl
  case h_3 hdecode =>
    rw [hdecode]
    rfl

end Operation

namespace World

variable {lib : Library} {w w' : World} {event : Event} {out : List Observation}

/-- The version that is stored behind an event. -/
def versionStored (lib : Library) (w : World) : Event → Arinc615aVersion
  | .completed .initialisation .successful data =>
    (acceptedVersion lib data).getD w.operation.protocolVersion
  | _ => w.operation.protocolVersion

/-- Only the initialisation file changes the version. -/
theorem protocolVersion_step (hstep : w.step lib event = some (w', out)) :
    w'.operation.protocolVersion = w.versionStored lib event := by
  by_cases hcentral : event.Central
  · cases event with
    | start result =>
      cases hstep
      exact w.operation.start_protocolVersion result
    | send request =>
      rw [(step_send hstep).1]
      rfl
    | completed transfer status data =>
      obtain ⟨hoperation, -⟩ := completed_eq hstep
      rw [hoperation]
      cases transfer with
      | initialisation =>
        by_cases hstatus : status = .successful
        · subst hstatus
          exact w.operation.protocolVersion_initialisationFileCompleted lib data
        · have hfailed :
              (w.operation.initialisationFileCompleted lib status data).1.protocolVersion =
                w.operation.protocolVersion := by
            unfold Operation.initialisationFileCompleted
            rw [if_pos hstatus]
            rfl
          cases status with
          | successful => exact absurd rfl hstatus
          | _ => exact hfailed
      | request => exact (w.operation.apart_requestCompleted status).1.kept.protocolVersion
      | status | list => exact absurd hcentral id
    | _ => exact absurd hcentral id
  · obtain ⟨r, hapart, hoperation, -⟩ := step_apart hcentral hstep
    rw [hoperation, hapart.kept.protocolVersion]
    cases event with
    | completed transfer status data =>
      cases transfer with
      | initialisation => exact absurd trivial hcentral
      | _ => rfl
    | _ => rfl

end World

namespace Announced

variable {lib : Library} {s s' : Announced} {out : List (Observation × Option Arinc615aVersion)}

theorem stored_event {e : Event} (hstored : s.Stored)
    (hstep : s.step lib (.event e) = some (s', out)) : s'.Stored := by
  obtain ⟨⟨w, o⟩, hw, heq⟩ := Option.map_eq_some_iff.mp hstep
  cases heq
  have hversion := World.protocolVersion_step hw
  intro version hafter
  show w.operation.protocolVersion = version ∧ _
  rw [hversion]
  cases e with
  | start result => cases hafter
  | completed transfer status data =>
    by_cases hinitialised : transfer = .initialisation ∧ status = .successful
    · obtain ⟨rfl, rfl⟩ := hinitialised
      rcases Option.or_eq_some_iff.mp hafter with haccepted | ⟨hnone, hbefore⟩
      · refine ⟨?_, Operation.acceptedVersion_supported haccepted⟩
        rw [World.versionStored, haccepted]
        rfl
      · obtain ⟨hsame, hsupported⟩ := hstored version hbefore
        refine ⟨?_, hsupported⟩
        rw [World.versionStored, hnone]
        exact hsame
    · -- any other completion leaves both versions as they are
      cases transfer with
      | initialisation =>
        cases status with
        | successful => exact absurd ⟨rfl, rfl⟩ hinitialised
        | _ => exact hstored version hafter
      | _ => exact hstored version hafter
  | _ => exact hstored version hafter

/-- A step of the world: what it transmits is announced exactly when it comes in time. -/
theorem announces_event {e : Event} (hstored : s.Stored)
    (hstep : s.step lib (.event e) = some (s', out)) :
    (∀ o ∈ out, Announces lib o) ↔ CallsInTime lib s (.event e) := by
  obtain ⟨⟨w, o⟩, hw, heq⟩ := Option.map_eq_some_iff.mp hstep
  cases heq
  obtain ⟨hone, hnone⟩ := World.step_request hw
  show (∀ x ∈ o.map (·, s.version), Announces lib x) ↔
    (SendsRequest lib s.world e → s.version.isSome)
  rw [List.forall_mem_map]
  by_cases hsends : SendsRequest lib s.world e
  · obtain ⟨-, request, fileType, filename, file, hsend, rfl⟩ := hone hsends
    have hheader := Operation.send_hasHeader hsend (List.mem_cons_self ..)
    simp only [hsends, forall_true_left, List.forall_mem_cons, Announces]
    constructor
    · rintro ⟨⟨version, rest, hversion, -⟩, -⟩
      rw [hversion]
      rfl
    · intro hsome
      obtain ⟨version, hversion⟩ := Option.isSome_iff_exists.mp hsome
      obtain ⟨hsame, hsupported⟩ := hstored version hversion
      obtain ⟨rest, hdecode⟩ := hheader.decodeHeader_iff.mpr ⟨rfl, by rwa [hsame]⟩
      rw [hsame] at hdecode
      exact ⟨⟨version, rest, hversion, hdecode⟩, trivial, List.forall_mem_nil _⟩
  · refine iff_of_true ?_ fun h => absurd h hsends
    obtain ⟨calls, hplain, hout⟩ := hnone hsends
    have hquiet : ∀ x ∈ calls, Announces lib (.call x, s.version) := by
      intro x hx
      have hx := hplain x hx
      cases x with
      | transmitFile => cases hx
      | _ => trivial
    rcases hout with rfl | rfl
    · exact List.forall_mem_map.mpr hquiet
    · exact List.forall_mem_cons.mpr ⟨trivial, List.forall_mem_map.mpr hquiet⟩

end Announced

namespace Operation

variable {lib : Library} {op : Operation} {requests : List Request} {r : Reaction}

/-- The calls of a handler leave the operation as it is, and transmit files with the version that
is stored, if they transmit any. -/
theorem sendAll_spec (h : op.sendAll lib requests = some r) :
    r.1 = op ∧
      (∀ fileType filename file, .transmitFile fileType filename file ∈ r.2 →
        HasHeader lib.raw op.protocolVersion file) ∧
      ((∃ fileType filename file, .transmitFile fileType filename file ∈ r.2) ↔
        ∃ request ∈ requests, op.sent = false ∧ ∃ r, op.send lib request = some (.ok r)) := by
  induction requests generalizing r with
  | nil =>
    cases h
    exact ⟨rfl, fun _ _ _ h => (nomatch h), by simp⟩
  | cons request requests ih =>
    simp only [sendAll] at h
    split at h
    · cases h
    case h_2 exception hsend =>
      obtain ⟨hop, hheader, htransmits⟩ := ih h
      refine ⟨hop, hheader, htransmits.trans ?_⟩
      rw [List.exists_mem_cons_iff]
      -- a call that throws transmits nothing
      refine (or_iff_right ?_).symm
      rintro ⟨-, r', hr'⟩
      rw [hsend] at hr'
      cases hr'
    case h_3 reaction hsend =>
      rcases op.send_cases lib hsend with ⟨hsent, rfl⟩ | ⟨hsent, fileType, filename, file, rfl⟩
      · obtain ⟨rest, hrest, rfl⟩ := Option.map_eq_some_iff.mp h
        obtain ⟨hop, hheader, htransmits⟩ := ih hrest
        refine ⟨hop, fun fileType filename file hfile => hheader fileType filename file ?_, ?_⟩
        · simpa using hfile
        · rw [List.exists_mem_cons_iff]
          simp only [List.nil_append]
          rw [htransmits]
          simp [hsent]
      · obtain ⟨rest, hrest, rfl⟩ := Option.map_eq_some_iff.mp h
        obtain ⟨hop, hheader, -⟩ := ih hrest
        refine ⟨hop, fun fileType' filename' file' hfile => ?_, ?_⟩
        · rcases List.mem_append.mp hfile with hfile | hfile
          · exact send_hasHeader hsend hfile
          · exact hheader fileType' filename' file' hfile
        · refine iff_of_true ⟨fileType, filename, file, List.mem_cons_self ..⟩ ?_
          exact ⟨request, List.mem_cons_self .., hsent, _, hsend⟩

/-- Whether a call succeeds does not depend on the note of the initialisation. -/
theorem send_reset {op : Operation} {request : Request} :
    (∃ r, send lib { op with initialisationOperation := false } request = some (.ok r)) ↔
      ∃ r, op.send lib request = some (.ok r) := by
  have htransmit : ∀ {op' op'' : Operation} {fileType : ProtocolFileType} {filename : Text}
      {encoded : Except Arinc615aException Bytes},
      (∃ r, some (if op.sent then Except.ok (op', []) else do
        let file ← encoded
        Except.ok (op', [Output.transmitFile fileType filename file,
          Output.transferStart .request])) = some (.ok r)) ↔
      ∃ r, some (if op.sent then Except.ok (op'', []) else do
        let file ← encoded
        Except.ok (op'', [Output.transmitFile fileType filename file,
          Output.transferStart .request])) = some (.ok r) := by
    intro op' op'' fileType filename encoded
    cases op.sent with
    | true => exact iff_of_true ⟨_, rfl⟩ ⟨_, rfl⟩
    | false =>
      cases encoded with
      | error exception => exact iff_of_false (fun ⟨_, h⟩ => nomatch h) fun ⟨_, h⟩ => nomatch h
      | ok file => exact iff_of_true ⟨_, rfl⟩ ⟨_, rfl⟩
  unfold send
  dsimp only
  split
  · exact htransmit
  · exact htransmit
  · exact htransmit
  · exact Iff.rfl

/-- What the completion of the initialisation file does when the handler makes calls. -/
theorem initialisationFileCompletedCalling_spec {op : Operation} {data : Bytes}
    {last : Option Request}
    (h : op.initialisationFileCompletedCalling lib data requests last = some r) :
    (r.1.protocolVersion =
        if last.isNone then (acceptedVersion lib data).getD op.protocolVersion
        else op.protocolVersion) ∧
      (∀ fileType filename file, .transmitFile fileType filename file ∈ r.2 →
        HasHeader lib.raw op.protocolVersion file) ∧
      ((∃ fileType filename file, .transmitFile fileType filename file ∈ r.2) ↔
        ∃ request ∈ requests, op.sent = false ∧ ∃ r, op.send lib request = some (.ok r)) := by
  unfold initialisationFileCompletedCalling at h
  dsimp only at h
  split at h
  case h_2 => cases h
  case h_1 initFile rest hdecode =>
    obtain ⟨called, hcalled, h⟩ := Option.bind_eq_some_iff.mp h
    obtain ⟨hop, hheader, htransmits⟩ := sendAll_spec hcalled
    simp only [send_reset] at htransmits
    -- only the calls of the handler transmit files
    have honly : ∀ {behind : List Output}, NoRequest behind →
        (∀ fileType filename file, Output.transmitFile fileType filename file ∈
            Output.initialisationResponse initFile.response :: called.2 ++ behind ↔
          .transmitFile fileType filename file ∈ called.2) := by
      intro behind hbehind fileType filename file
      rw [List.cons_append, List.mem_cons, List.mem_append]
      refine ⟨fun hmem => ?_, fun hmem => .inr (.inl hmem)⟩
      rcases hmem with hmem | hmem | hmem
      · cases hmem
      · exact hmem
      · exact absurd (hbehind _ hmem) (by simp [Output.ofRequest])
    cases last with
    | none =>
      cases h
      have hanswered := called.1.apart_initialisationAnswered initFile
      simp only [Reaction.andThen_mk, honly hanswered.noRequest]
      refine ⟨?_, hheader, htransmits⟩
      rw [protocolVersion_initialisationAnswered, hop, acceptedVersion, hdecode]
      dsimp only
      split
      · rfl
      · rfl
    | some request =>
      dsimp only at h
      split at h
      · cases h
        have hfinished := apart_finished called.1 .operationAbortedByDlp
          (text "Initialisation File could not be received")
        simp only [Reaction.andThen_mk, honly hfinished.noRequest]
        exact ⟨by rw [hfinished.kept.protocolVersion, hop]; rfl, hheader, htransmits⟩
      · cases h

end Operation

namespace Announced

variable {lib : Library} {s s' : Announced} {out : List (Observation × Option Arinc615aVersion)}
  {data : Bytes} {requests : List Operation.Request} {last : Option Operation.Request}

theorem step_initialised
    (hstep : s.step lib (.initialised data requests last) = some (s', out)) :
    ∃ reaction, s.world.operation.initialisationFileCompletedCalling lib data requests last =
        some reaction ∧
      s'.world.operation = reaction.1 ∧
      s'.version =
        (if last.isNone then (acceptedVersion lib data).or s.version else s.version) ∧
      out = reaction.2.map fun o => (.call o, (acceptedVersion lib data).or s.version) := by
  obtain ⟨loop, -, hstep⟩ := Option.bind_eq_some_iff.mp hstep
  obtain ⟨reaction, hreaction, heq⟩ := Option.map_eq_some_iff.mp hstep
  cases heq
  exact ⟨reaction, hreaction, rfl, rfl, List.map_map ..⟩

/-- What the run has to carry is supported, be it the new version or the one before. -/
theorem supported_of_announced (hstored : s.Stored) {version : Arinc615aVersion}
    (h : (acceptedVersion lib data).or s.version = some version) : version.Supported := by
  rcases Option.or_eq_some_iff.mp h with haccepted | ⟨-, hbefore⟩
  · exact Operation.acceptedVersion_supported haccepted
  · exact (hstored version hbefore).2

theorem announces_initialised (hstored : s.Stored)
    (hstep : s.step lib (.initialised data requests last) = some (s', out)) :
    (∀ o ∈ out, Announces lib o) ↔ CallsInTime lib s (.initialised data requests last) := by
  obtain ⟨reaction, hreaction, -, -, rfl⟩ := step_initialised hstep
  obtain ⟨-, hheader, htransmits⟩ :=
    Operation.initialisationFileCompletedCalling_spec hreaction
  rw [List.forall_mem_map]
  constructor
  · rintro h hsends
    obtain ⟨fileType, filename, file, hfile⟩ := htransmits.mpr hsends
    obtain ⟨version, rest, hannounced, hdecode⟩ := h _ hfile
    -- the file cannot be read with another version than the one that is stored
    obtain ⟨rfl, -⟩ := (hheader fileType filename file hfile).decodeHeader_iff.mp ⟨rest, hdecode⟩
    exact hannounced
  · intro hintime o ho
    cases o with
    | transmitFile fileType filename file =>
      have hannounced := hintime (htransmits.mp ⟨fileType, filename, file, ho⟩)
      have hsupported := supported_of_announced hstored hannounced
      obtain ⟨rest, hdecode⟩ :=
        (hheader fileType filename file ho).decodeHeader_iff.mpr ⟨rfl, hsupported⟩
      exact ⟨_, rest, hannounced, hdecode⟩
    | _ => trivial

theorem stored_initialised (hstored : s.Stored)
    (hstep : s.step lib (.initialised data requests last) = some (s', out)) : s'.Stored := by
  obtain ⟨reaction, hreaction, hoperation, hversion, -⟩ := step_initialised hstep
  obtain ⟨hpv, -, -⟩ := Operation.initialisationFileCompletedCalling_spec hreaction
  intro version hafter
  rw [hversion] at hafter
  rw [hoperation, hpv]
  cases last with
  | some request => exact hstored version hafter
  | none =>
    refine ⟨?_, supported_of_announced hstored hafter⟩
    rcases Option.or_eq_some_iff.mp hafter with haccepted | ⟨hnone, hbefore⟩
    · rw [haccepted]
      rfl
    · rw [hnone]
      exact (hstored version hbefore).1

end Announced

/-- From an operation that has just been created: every request file that is transmitted carries
the version of the initialisation file that was accepted since the last start, and `decodeHeader`
accepts it, exactly when no call that transmits a file comes before that, or out of
`initialisationResponse` while another version is stored. -/
theorem hostOperation_version_iff (lib : Library) {kind : OperationType} {targetId : TargetId}
    {dlpTimeout : Nat} {portOption : Bool} {events : List Calling} {s' : Announced}
    {out : List (Observation × Option Arinc615aVersion)}
    (hrun : (announcedSystem lib).run
      { world := World.ofOperation kind targetId dlpTimeout portOption } events =
        some (s', out)) :
    (∀ o ∈ out, Announces lib o) ↔
      (announcedSystem lib).Throughout (CallsInTime lib)
        { world := World.ofOperation kind targetId dlpTimeout portOption } events := by
  have hnone : Announced.Stored
      { world := World.ofOperation kind targetId dlpTimeout portOption } :=
    fun version h => nomatch h
  have hannounces : ∀ s e s' out, s.Stored → (announcedSystem lib).step s e = some (s', out) →
      ((∀ o ∈ out, Announces lib o) ↔ CallsInTime lib s e) := by
    intro s e s' out hstored hstep
    cases e with
    | event e => exact Announced.announces_event hstored hstep
    | initialised data requests last => exact Announced.announces_initialised hstored hstep
  have hstored : ∀ s e s' out, s.Stored → CallsInTime lib s e →
      (announcedSystem lib).step s e = some (s', out) → s'.Stored := by
    intro s e s' out hstored _ hstep
    cases e with
    | event e => exact Announced.stored_event hstored hstep
    | initialised data requests last => exact Announced.stored_initialised hstored hstep
  exact (announcedSystem lib).forall_run_iff hannounces hstored hnone hrun

/-- The load list is transmitted when the operation has been accepted. -/
theorem hostOperation_version_upload :
    ∃ s' out,
      (announcedSystem { raw := .bigEndian, generateCheckValue := fun _ _ => {} }).run
          { world := World.ofOperation .upload (.ofText (text "ABCD_1")) 10 false }
          [.event (.start .started),
            .initialised [0, 0, 0, 9, 0x41, 0x34, 0, 1, 0] [] none,
            .event (.send (.loadList []))] = some (s', out) ∧
        ((∀ o ∈ out, Announces { raw := .bigEndian, generateCheckValue := fun _ _ => {} } o) ↔
          (announcedSystem { raw := .bigEndian, generateCheckValue := fun _ _ => {} }).Throughout
            (CallsInTime { raw := .bigEndian, generateCheckValue := fun _ _ => {} })
            { world := World.ofOperation .upload (.ofText (text "ABCD_1")) 10 false }
            [.event (.start .started),
              .initialised [0, 0, 0, 9, 0x41, 0x34, 0, 1, 0] [] none,
              .event (.send (.loadList []))]) :=
  ⟨_, _, rfl, hostOperation_version_iff _ rfl⟩

/-- The handler hands over the load list as soon as it is told that the operation is accepted.  The
version is not stored yet, and the target rejects the file. -/
theorem hostUpload_stale_version :
    ∃ s' out file e,
      (announcedSystem { raw := .bigEndian, generateCheckValue := fun _ _ => {} }).run
          { world := World.ofOperation .upload (.ofText (text "ABCD_1")) 10 false }
          [.event (.start .started),
            .initialised [0, 0, 0, 9, 0x41, 0x34, 0, 1, 0] [.loadList []] none] = some (s', out) ∧
        (.call (.transmitFile .uploadRequest (text "ABCD_1.LUR") file), some .arinc615a34) ∈ out ∧
        decodeHeader .bigEndian file = .error (.exception e) ∧
        ¬∀ o ∈ out, Announces { raw := .bigEndian, generateCheckValue := fun _ _ => {} } o := by
  have hdecode : decodeHeader .bigEndian [0, 0, 0, 8, 0, 0, 0, 0] =
      .error (.exception ⟨"Invalid or unsupported protocol version"⟩) := rfl
  refine ⟨_, _, [0, 0, 0, 8, 0, 0, 0, 0], _, rfl, by decide, hdecode, fun h => ?_⟩
  obtain ⟨version, rest, -, haccepted⟩ := h (.call (.transmitFile .uploadRequest
    (text "ABCD_1.LUR") [0, 0, 0, 8, 0, 0, 0, 0]), some .arinc615a34) (by decide)
  rw [hdecode] at haccepted
  cases haccepted

end Arinc615a.Host
