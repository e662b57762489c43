import Arinc615a.Target.Frame

/-!
# The dispatcher of the target

`ProtocolImpl.cpp`.  The dispatcher keeps a weak reference to the operation that was created last.
Requests for initialisation files go to the user, who creates an operation; all other requests with
the name of a protocol file go to the registered operation, which looks at the address of the host
and at the extension of the name.
-/

open Reasoning

namespace Arinc615a.Target

open Files Tftp

/-! ## The dispatcher -/

/-- A request file that an operation receives. -/
structure Reception where
  operation : Nat
  filename : Text
  deriving DecidableEq, Repr

/-- The dispatcher, and the operations that were created through it. -/
structure Protocol where
  protocolVersion : Arinc615aVersion
  tftpServerPort : UInt16
  operations : List World := []
  /-- `operationV`; nothing is locked when its operation is gone. -/
  registered : Option Nat := none
  receptions : List Reception := []
  deriving DecidableEq

inductive ProtocolEvent where
  | create (kind : OperationType) (targetId : TargetId) (statusTransmissionRate : Nat)
  | expire
  | operation (index : Nat) (event : Event)
  | receivedTftpRequest (remote : Endpoint) (requestType : RequestType) (filename : Text)
      (clientArinc615aOptions : Arinc615aOptions)
  | received (reception : Reception) (status : TransferStatus) (data : Bytes)
  deriving DecidableEq

/-- What is seen of a run.  `receiving` and `handedOver` tell the name of the file and the
identifier of the operation that receives it, or hands it over to its handler. -/
inductive ProtocolObservation where
  | errorOperation (remote : Endpoint) (errorCode : ErrorCode) (errorMessage : String)
  | newOperationRequest (operationType : OperationType) (remote : Endpoint)
      (port : Option UInt16) (targetId : TargetId)
  | operation (index : Nat) (observation : Observation)
  | receiving (filename : Text) (targetId : TargetId)
  | handedOver (filename : Text) (targetId : TargetId)
  deriving DecidableEq

/-- The reception of a request file is started. -/
def receives (out : List Observation) : Bool :=
  out.any fun
    | .call (.receiveFile _) => true
    | _ => false

/-- A request file is handed over to the handler. -/
def handsOver (out : List Observation) : Bool :=
  out.any fun
    | .call (.loadList _) | .call (.downloadingRequest ..) | .call (.downloadingAnswer _) => true
    | _ => false

/-- The operation type that an initialisation file stands for. -/
def initialisationType : ProtocolFileType → Option OperationType
  | .loadConfigurationInitialization => some .information
  | .uploadInitialization => some .upload
  | .mediaDefinedDownloadInitialization => some .mediaDefinedDownload
  | .operatorDefinedDownloadInitialization => some .operatorDefinedDownload
  | _ => none

namespace Protocol

/-- The port option is only known to version 3 of the protocol. -/
def handleInitialisationFile (p : Protocol) (operationType : OperationType) (remote : Endpoint)
    (filename : ProtocolFilename) (clientArinc615aOptions : Arinc615aOptions) :
    ProtocolObservation :=
  .newOperationRequest operationType remote
    (if p.protocolVersion = .arinc615a34 then clientArinc615aOptions.port else none)
    filename.targetIdV

/-- Hands a request over to an operation. -/
def redirect (lib : Library) (p : Protocol) (index : Nat) (w : World) (remote : Endpoint)
    (requestType : RequestType) (filename : Text) :
    Option (Protocol × List ProtocolObservation) :=
  (w.step lib (.tftpRequest remote requestType filename)).map fun (w', out) =>
    let p := { p with operations := p.operations.set index w' }
    if receives out then
      ({ p with receptions := ⟨index, filename⟩ :: p.receptions },
        out.map (.operation index) ++ [.receiving filename w.operation.targetId])
    else (p, out.map (.operation index))

def receivedTftpRequest (lib : Library) (p : Protocol) (remote : Endpoint)
    (requestType : RequestType) (filename : Text) (clientArinc615aOptions : Arinc615aOptions) :
    Option (Protocol × List ProtocolObservation) :=
  if !ProtocolFilename.isProtocolFilename filename then
    some (p, [.errorOperation remote .fileNotFound "File not found"])
  else
    let protocolFilename := ProtocolFilename.ofText filename
    let initialisation := match requestType with
      | .read => initialisationType protocolFilename.fileTypeV
      | .write => none
    match initialisation with
    | some operationType =>
      some (p, [p.handleInitialisationFile operationType remote protocolFilename
        clientArinc615aOptions])
    | none =>
      match p.registered with
      | none => some (p, [.errorOperation remote .fileNotFound "No registered operation"])
      | some index =>
        match p.operations[index]? with
        | none => some (p, [.errorOperation remote .fileNotFound "No registered operation"])
        | some w => p.redirect lib index w remote requestType filename

/-- Whether an event of an operation has an event of its own in the dispatcher. -/
def dispatched : Event → Bool
  | .tftpRequest .. | .completed .request _ _ => true
  | _ => false

def step (lib : Library) (p : Protocol) :
    ProtocolEvent → Option (Protocol × List ProtocolObservation)
  | .create kind targetId statusTransmissionRate =>
    let operation : Operation :=
      { targetId, protocolVersion := p.protocolVersion, statusTransmissionRate,
        hostPort := p.tftpServerPort, statusV := .ofKind kind }
    some ({ p with
      operations := p.operations ++ [{ operation }]
      registered := some p.operations.length }, [])
  | .expire => some ({ p with registered := none }, [])
  | .operation index event =>
    if dispatched event then none
    else match p.operations[index]? with
      | none => none
      | some w => (w.step lib event).map fun (w', out) =>
        ({ p with operations := p.operations.set index w' }, out.map (.operation index))
  | .receivedTftpRequest remote requestType filename clientArinc615aOptions =>
    p.receivedTftpRequest lib remote requestType filename clientArinc615aOptions
  | .received reception status data =>
    if reception ∈ p.receptions then
      match p.operations[reception.operation]? with
      | none => none
      | some w => (w.step lib (.completed .request status data)).map fun (w', out) =>
        ({ p with
            operations := p.operations.set reception.operation w'
            receptions := p.receptions.erase reception },
          out.map (.operation reception.operation) ++
            if handsOver out then [.handedOver reception.filename w.operation.targetId] else [])
    else none

end Protocol

/-- The dispatcher with its operations. -/
def protocolSystem (lib : Library) : Reactive Protocol ProtocolEvent ProtocolObservation :=
  ⟨Protocol.step lib⟩

/-! ## Requests for other targets -/

/-- The request file of an operation. -/
def requestFileType : OperationType → Option ProtocolFileType
  | .information => none
  | .upload => some .uploadRequest
  | .mediaDefinedDownload => some .mediaDefinedDownloadRequest
  | .operatorDefinedDownload => some .operatorDefinedDownloadAnswer

/-- A file is received and handed over by the operation with the identifier in its name. -/
def ProtocolObservation.TargetMatches : ProtocolObservation → Prop
  | .receiving filename targetId | .handedOver filename targetId =>
    (ProtocolFilename.ofText filename).targetIdV = targetId
  | _ => True

namespace Protocol

/-- A write request from the host of the registered operation, for its kind of request file, names
its target. -/
def Addressed (p : Protocol) : ProtocolEvent → Prop
  | .receivedTftpRequest remote requestType filename _ =>
    ∀ index w, p.registered = some index → p.operations[index]? = some w →
      ProtocolFilename.isProtocolFilename filename = true → requestType = .write →
      w.operation.hostAddress = remote.address →
      requestFileType w.operation.statusV.kind =
        some (ProtocolFilename.ofText filename).fileTypeV →
      (ProtocolFilename.ofText filename).targetIdV = w.operation.targetId
  | _ => True

/-- The files that are being received are addressed to the operations that receive them. -/
def Inv (p : Protocol) : Prop :=
  ∀ reception ∈ p.receptions, ∃ w, p.operations[reception.operation]? = some w ∧
    (ProtocolFilename.ofText reception.filename).targetIdV = w.operation.targetId

end Protocol

theorem receives_fileRequest (fileType : ProtocolFileType) (wrongAddress : String)
    (op : Operation) (remote : Endpoint) (requestType : RequestType) (filename : Text) :
    receives ((Operation.fileRequest fileType wrongAddress op remote requestType filename).2.map
        .call) = true ↔
      requestType = .write ∧ op.hostAddress = remote.address ∧
        some fileType = some (ProtocolFilename.ofText filename).fileTypeV := by
  unfold Operation.fileRequest
  split
  case isTrue haddress => simp [receives, Operation.emit, haddress]
  case isFalse haddress =>
    split
    case isTrue hwrite => simp [receives, Operation.emit, hwrite]
    case isFalse hwrite =>
      split
      case isTrue htype => simp [receives, Operation.emit, Ne.symm htype]
      case isFalse htype =>
        simp only [ne_eq, not_not] at haddress hwrite htype
        simp [receives, Operation.emit, haddress, hwrite, htype]

/-- What a request has to be for its file to be received. -/
theorem receives_tftpRequest (op : Operation) (remote : Endpoint) (requestType : RequestType)
    (filename : Text) :
    receives ((op.tftpRequest remote requestType filename).2.map .call) = true ↔
      requestType = .write ∧ op.hostAddress = remote.address ∧
        requestFileType op.statusV.kind =
          some (ProtocolFilename.ofText filename).fileTypeV := by
  unfold Operation.tftpRequest
  cases op.statusV.kind with
  | information =>
    simp [InformationOperation.tftpRequest, receives, Operation.emit, requestFileType]
  | upload | mediaDefinedDownload | operatorDefinedDownload => exact receives_fileRequest ..

/-- The outputs of an operation are passed on, and say nothing about the reception of files. -/
theorem targetMatches_operation (index : Nat) (out : List Observation) :
    ∀ o ∈ out.map (ProtocolObservation.operation index), o.TargetMatches := by
  intro o ho
  obtain ⟨observation, -, rfl⟩ := List.mem_map.mp ho
  trivial

namespace Protocol

variable {lib : Library} {p p' : Protocol} {out : List ProtocolObservation}

/-- A step of an operation keeps the identifiers of all operations. -/
theorem Inv.set (h : p.Inv) {index : Nat} {w w' : World}
    (hw : p.operations[index]? = some w) (hid : w'.operation.targetId = w.operation.targetId) :
    ({ p with operations := p.operations.set index w' } : Protocol).Inv := by
  intro reception hmem
  obtain ⟨v, hv, hmatches⟩ := h reception hmem
  -- the operation that has moved may be the one that receives
  by_cases hindex : index = reception.operation
  · subst hindex
    rw [hw] at hv
    cases hv
    have hlt := (List.getElem?_eq_some_iff.mp hw).1
    exact ⟨w', List.getElem?_set_self hlt, hmatches.trans hid.symm⟩
  · exact ⟨v, (List.getElem?_set_ne hindex).trans hv, hmatches⟩

/-- New operations come behind the old ones. -/
theorem Inv.append (h : p.Inv) (ws : List World) (registered : Option Nat) :
    ({ p with operations := p.operations ++ ws, registered } : Protocol).Inv := by
  intro reception hmem
  obtain ⟨v, hv, hmatches⟩ := h reception hmem
  exact ⟨v, (List.getElem?_append_left (List.getElem?_eq_some_iff.mp hv).1).trans hv, hmatches⟩

/-- The request of the registered operation is received by it, or answered. -/
theorem redirect_spec {index : Nat} {w : World} {remote : Endpoint} {requestType : RequestType}
    {filename : Text} (h : p.redirect lib index w remote requestType filename = some (p', out)) :
    ∃ w' observations,
      w.step lib (.tftpRequest remote requestType filename) = some (w', observations) ∧
      ((receives observations = true ∧
          out = observations.map (.operation index) ++ [.receiving filename w.operation.targetId] ∧
          p' = { p with operations := p.operations.set index w'
                        receptions := ⟨index, filename⟩ :: p.receptions }) ∨
        (receives observations = false ∧ out = observations.map (.operation index) ∧
          p' = { p with operations := p.operations.set index w' })) := by
  obtain ⟨⟨w', observations⟩, hstep, heq⟩ := Option.map_eq_some_iff.mp h
  refine ⟨w', observations, hstep, ?_⟩
  dsimp only at heq
  split at heq
  case isTrue hreceives =>
    cases heq
    exact .inl ⟨hreceives, rfl, rfl⟩
  case isFalse hreceives =>
    cases heq
    exact .inr ⟨by simpa using hreceives, rfl, rfl⟩

theorem receives_step {w w' : World} {remote : Endpoint} {requestType : RequestType}
    {filename : Text} {observations : List Observation}
    (h : w.step lib (.tftpRequest remote requestType filename) = some (w', observations)) :
    receives observations = true ↔ requestType = .write ∧
      w.operation.hostAddress = remote.address ∧
      requestFileType w.operation.statusV.kind =
        some (ProtocolFilename.ofText filename).fileTypeV := by
  cases h
  exact receives_tftpRequest w.operation remote requestType filename

/-- What the dispatcher does with a request: it answers on its own, without a reception, or it
hands the request over to the registered operation. -/
theorem receivedTftpRequest_cases {remote : Endpoint} {requestType : RequestType}
    {filename : Text} {clientArinc615aOptions : Arinc615aOptions}
    (h : p.receivedTftpRequest lib remote requestType filename clientArinc615aOptions =
      some (p', out)) :
    (p' = p ∧ (∀ o ∈ out, o.TargetMatches) ∧
        (requestType = .write → ProtocolFilename.isProtocolFilename filename = true →
          ∀ index w, p.registered = some index → p.operations[index]? ≠ some w)) ∨
      ∃ index w, ProtocolFilename.isProtocolFilename filename = true ∧
        p.registered = some index ∧ p.operations[index]? = some w ∧
        p.redirect lib index w remote requestType filename = some (p', out) := by
  unfold receivedTftpRequest at h
  split at h
  case isTrue hname =>
    cases h
    refine .inl ⟨rfl, by simp [ProtocolObservation.TargetMatches], fun _ hprotocol => ?_⟩
    simp [hprotocol] at hname
  case isFalse hname =>
    simp only [Bool.not_eq_true', Bool.not_eq_false] at hname
    dsimp only at h
    split at h
    case h_1 operationType hinitialisation =>
      cases h
      refine .inl ⟨rfl, ?_, fun hwrite => ?_⟩
      · simp [handleInitialisationFile, ProtocolObservation.TargetMatches]
      · rw [hwrite] at hinitialisation
        cases hinitialisation
    case h_2 =>
      split at h
      case h_1 hregistered =>
        cases h
        refine .inl ⟨rfl, by simp [ProtocolObservation.TargetMatches], fun _ _ index w hr => ?_⟩
        rw [hregistered] at hr
        cases hr
      case h_2 index hregistered =>
        split at h
        case h_1 hoperation =>
          cases h
          refine .inl ⟨rfl, by simp [ProtocolObservation.TargetMatches], fun _ _ i w hr => ?_⟩
          rw [hregistered] at hr
          cases hr
          simp [hoperation]
        case h_2 w hoperation => exact .inr ⟨index, w, hname, hregistered, hoperation, h⟩

/-- A step of an operation outside of the reception of request files. -/
theorem operation_step {index : Nat} {event : Event}
    (h : p.step lib (.operation index event) = some (p', out)) :
    ∃ w w' observations, p.operations[index]? = some w ∧
      w.step lib event = some (w', observations) ∧ out = observations.map (.operation index) ∧
      p' = { p with operations := p.operations.set index w' } := by
  unfold Protocol.step at h
  dsimp only at h
  split at h
  · cases h
  · split at h
    · cases h
    · rename_i w hw
      obtain ⟨⟨w', observations⟩, hstep, heq⟩ := Option.map_eq_some_iff.mp h
      cases heq
      exact ⟨w, w', observations, hw, hstep, rfl, rfl⟩

/-- The reception of a request file ends with a step of the operation that receives it. -/
theorem received_step {reception : Reception} {status : TransferStatus} {data : Bytes}
    (h : p.step lib (.received reception status data) = some (p', out)) :
    ∃ w w' observations, reception ∈ p.receptions ∧
      p.operations[reception.operation]? = some w ∧
      w.step lib (.completed .request status data) = some (w', observations) ∧
      out = observations.map (.operation reception.operation) ++
        (if handsOver observations then [.handedOver reception.filename w.operation.targetId]
          else []) ∧
      p' = { p with operations := p.operations.set reception.operation w'
                    receptions := p.receptions.erase reception } := by
  unfold Protocol.step at h
  dsimp only at h
  split at h
  case isFalse => cases h
  case isTrue hmem =>
    split at h
    · cases h
    · rename_i w hw
      obtain ⟨⟨w', observations⟩, hstep, heq⟩ := Option.map_eq_some_iff.mp h
      cases heq
      exact ⟨w, w', observations, hmem, hw, hstep, rfl, rfl⟩

/-- A step receives and hands over files for other targets exactly if it is a request that is not
addressed to the registered operation. -/
theorem targetMatches_step {event : ProtocolEvent} (hinv : p.Inv)
    (h : p.step lib event = some (p', out)) :
    (∀ o ∈ out, o.TargetMatches) ↔ p.Addressed event := by
  cases event with
  | create kind targetId statusTransmissionRate =>
    cases h
    simp [Addressed]
  | expire =>
    cases h
    simp [Addressed]
  | operation index event =>
    obtain ⟨w, w', observations, -, -, rfl, -⟩ := operation_step h
    exact iff_of_true (targetMatches_operation index observations) trivial
  | received reception status data =>
    obtain ⟨w, w', observations, hmem, hw, -, rfl, -⟩ := received_step h
    refine iff_of_true ?_ trivial
    rw [List.forall_mem_append]
    refine ⟨targetMatches_operation _ observations, fun o ho => ?_⟩
    split at ho
    · -- the file was addressed to the operation when its reception began
      obtain ⟨v, hv, hmatches⟩ := hinv reception hmem
      rw [hw] at hv
      cases hv
      rw [List.mem_singleton.mp ho]
      exact hmatches
    · cases ho
  | receivedTftpRequest remote requestType filename clientArinc615aOptions =>
    rcases receivedTftpRequest_cases h with ⟨-, hgood, hnone⟩ | ⟨index, w, hname, hr, hw, hredirect⟩
    · refine iff_of_true hgood fun index w hr hw hname hwrite => ?_
      exact absurd hw (hnone hwrite hname index w hr)
    · obtain ⟨w', observations, hstep, hout⟩ := redirect_spec hredirect
      have hreceives := receives_step hstep
      rcases hout with ⟨htrue, rfl, -⟩ | ⟨hfalse, rfl, -⟩
      · obtain ⟨hwrite, haddress, htype⟩ := hreceives.mp htrue
        -- what the operation calls says nothing; the reception that is noted does
        rw [List.forall_mem_append]
        constructor
        · rintro ⟨-, hlast⟩ i v hi hv - - - -
          rw [hr] at hi
          cases hi
          rw [hw] at hv
          cases hv
          exact hlast _ (List.mem_singleton_self _)
        · intro haddressed
          refine ⟨targetMatches_operation index observations, fun o ho => ?_⟩
          rw [List.mem_singleton.mp ho]
          exact haddressed index w hr hw hname hwrite haddress htype
      -- the request was answered with an error, so it met none of the checks at once
      · refine iff_of_true (targetMatches_operation index observations) ?_
        intro i v hi hv _ hwrite haddress htype
        rw [hr] at hi
        cases hi
        rw [hw] at hv
        cases hv
        rw [hreceives.mpr ⟨hwrite, haddress, htype⟩] at hfalse
        cases hfalse

/-- As long as requests are addressed to the registered operation, no file for another target is
being received. -/
theorem Inv.step {event : ProtocolEvent} (hinv : p.Inv) (haddressed : p.Addressed event)
    (h : p.step lib event = some (p', out)) : p'.Inv := by
  cases event with
  | create kind targetId statusTransmissionRate =>
    cases h
    exact hinv.append _ _
  | expire =>
    cases h
    exact hinv
  | operation index event =>
    obtain ⟨w, w', observations, hw, hstep, -, rfl⟩ := operation_step h
    exact hinv.set hw (World.fixed_step hstep).targetId
  | received reception status data =>
    obtain ⟨w, w', observations, -, hw, hstep, -, rfl⟩ := received_step h
    intro other hmem
    exact hinv.set hw (World.fixed_step hstep).targetId other (List.mem_of_mem_erase hmem)
  | receivedTftpRequest remote requestType filename clientArinc615aOptions =>
    rcases receivedTftpRequest_cases h with ⟨rfl, -, -⟩ | ⟨index, w, hname, hr, hw, hredirect⟩
    · exact hinv
    · obtain ⟨w', observations, hstep, hout⟩ := redirect_spec hredirect
      have hset := hinv.set hw (World.fixed_step hstep).targetId
      rcases hout with ⟨htrue, -, rfl⟩ | ⟨-, -, rfl⟩
      · obtain ⟨hwrite, haddress, htype⟩ := (receives_step hstep).mp htrue
        intro other hmem
        -- the new reception is addressed by the condition, the others by the invariant
        rcases List.mem_cons.mp hmem with rfl | hmem
        · have hlt := (List.getElem?_eq_some_iff.mp hw).1
          refine ⟨w', List.getElem?_set_self hlt, ?_⟩
          rw [(World.fixed_step hstep).targetId]
          exact haddressed index w hr hw hname hwrite haddress htype
        · exact hset other hmem
      · exact hset

end Protocol

/-- From an empty dispatcher on, files are received and handed over by the operations with the
identifiers in their names, exactly if every write request from the host of the registered
operation for its kind of request file carries the identifier of this operation. -/
theorem targetProtocol_targetMatches_iff (lib : Library) (protocolVersion : Arinc615aVersion)
    (tftpServerPort : UInt16) {events : List ProtocolEvent} {p' : Protocol}
    {out : List ProtocolObservation}
    (hrun : (protocolSystem lib).run { protocolVersion, tftpServerPort } events =
      some (p', out)) :
    (∀ o ∈ out, o.TargetMatches) ↔
      (protocolSystem lib).Throughout Protocol.Addressed { protocolVersion, tftpServerPort }
        events := by
  have hempty : Protocol.Inv { protocolVersion, tftpServerPort } := by simp [Protocol.Inv]
  have hgood : ∀ (p : Protocol) (event : ProtocolEvent) (p' : Protocol)
      (out : List ProtocolObservation), p.Inv →
      (protocolSystem lib).step p event = some (p', out) →
      ((∀ o ∈ out, o.TargetMatches) ↔ p.Addressed event) :=
    fun _ _ _ _ hinv hstep => by exact Protocol.targetMatches_step hinv hstep
  have hkeeps : ∀ (p : Protocol) (event : ProtocolEvent) (p' : Protocol)
      (out : List ProtocolObservation), p.Inv → p.Addressed event →
      (protocolSystem lib).step p event = some (p', out) → p'.Inv :=
    fun _ _ _ _ hinv haddressed hstep => by exact hinv.step haddressed hstep
  exact (protocolSystem lib).forall_run_iff hgood hkeeps hempty hrun

/-- The only request for an upload operation carries its identifier. -/
theorem targetProtocol_targetMatches_upload :
    ∃ p' out,
      (protocolSystem { raw := .bigEndian, generateCheckValue := fun _ _ => {} }).run
          { protocolVersion := .arinc615a34, tftpServerPort := 59 }
          [.create .upload (.ofText (text "ABCD_1")) 1,
            .operation 0 (.start ⟨1, 2⟩ none .started),
            .receivedTftpRequest ⟨1, 3⟩ .write (text "ABCD_1.LUR") {}] = some (p', out) ∧
        ((∀ o ∈ out, o.TargetMatches) ↔
          (protocolSystem { raw := .bigEndian, generateCheckValue := fun _ _ => {} }).Throughout
            Protocol.Addressed { protocolVersion := .arinc615a34, tftpServerPort := 59 }
            [.create .upload (.ofText (text "ABCD_1")) 1,
              .operation 0 (.start ⟨1, 2⟩ none .started),
              .receivedTftpRequest ⟨1, 3⟩ .write (text "ABCD_1.LUR") {}]) :=
  ⟨_, _, rfl, targetProtocol_targetMatches_iff _ _ _ rfl⟩

/-- The request file of another target is received by the registered upload operation, and its
loads are handed over to the handler. -/
theorem targetProtocol_receives_other :
    ∃ p' out,
      (protocolSystem { raw := .bigEndian, generateCheckValue := fun _ _ => {} }).run
          { protocolVersion := .arinc615a34, tftpServerPort := 59 }
          [.create .upload (.ofText (text "ABCD_1")) 1,
            .operation 0 (.start ⟨1, 2⟩ none .started),
            .receivedTftpRequest ⟨1, 3⟩ .write (text "ABCD_2.LUR") {},
            .received ⟨0, text "ABCD_2.LUR"⟩ .successful [0, 0, 0, 8, 0x41, 0x34, 0, 0]] =
          some (p', out) ∧
        .operation 0 (.call (.receiveFile ⟨1, 3⟩)) ∈ out ∧
        .operation 0 (.call (.loadList [])) ∈ out ∧
        ∃ o ∈ out, ¬o.TargetMatches := by
  refine ⟨_, _, rfl, by decide +kernel, by decide +kernel,
    .handedOver (text "ABCD_2.LUR") (.ofText (text "ABCD_1")), by decide +kernel, ?_⟩
  show ¬(ProtocolFilename.ofText (text "ABCD_2.LUR")).targetIdV = .ofText (text "ABCD_1")
  decide +kernel

end Arinc615a.Target
