import Arinc615a.Exchange.World
import Arinc615a.Files.ReadBack
import Arinc615a.Host.Finish

/-!
# What the two operations do to each other

The callbacks of either operation, run with what the other one sends.
-/

open Reasoning

namespace Arinc615a.Exchange

open Files Information Tftp

/-! ## The operation of the host -/

/-- The members that no callback changes as long as nothing is aborted. -/
def identity (op : Host.Operation) : OperationType × TargetId × Host.AbortReason :=
  (op.kind, op.targetId, op.abortReason)

/-- Neither finishes the operation nor starts or stops the server. -/
def idle : Host.Output → Bool
  | .finished .. | .serverStart | .serverStop => false
  | _ => true

/-- A callback finishes the operation as completed, if at all, and does so only under a
condition. -/
structure Orderly (condition : Prop) (op : Host.Operation) (r : Host.Reaction) : Prop where
  same : identity r.1 = identity op
  finished : ∀ code description, .finished code description ∈ r.2 → code = .operationCompleted
  stops : .serverStop ∈ r.2 →
    condition ∧ ∃ description, .finished .operationCompleted description ∈ r.2
  noStart : .serverStart ∉ r.2

namespace Orderly

variable {condition : Prop} {op op' : Host.Operation} {r : Host.Reaction}

theorem idle {out : List Host.Output} (hsame : identity op' = identity op)
    (hidle : out.all Exchange.idle = true) : Orderly condition op (op', out) := by
  -- none of the calls is one that the conditions speak of
  have hnot : ∀ o ∈ out, Exchange.idle o = true := List.all_eq_true.mp hidle
  exact ⟨hsame, fun code description hmem => absurd (hnot _ hmem) (by simp [Exchange.idle]),
    fun hmem => absurd (hnot _ hmem) (by decide), fun hmem => absurd (hnot _ hmem) (by decide)⟩

theorem completed (hcondition : condition) (op : Host.Operation) (description : Text) :
    Orderly condition op (op.finished .operationCompleted description) where
  same := rfl
  finished code d hmem := by
    simp only [Host.Operation.finished, List.mem_cons, Host.Output.finished.injEq] at hmem
    simpa using And.left (by simpa using hmem)
  stops _ := ⟨hcondition, description, List.mem_cons_self ..⟩
  noStart := by simp [Host.Operation.finished]

theorem andThen {f : Host.Operation → Host.Reaction} (h : Orderly condition op r)
    (h' : Orderly condition r.1 (f r.1)) : Orderly condition op (r.andThen f) where
  same := h'.same.trans h.same
  finished code description hmem := by
    rcases List.mem_append.mp hmem with hmem | hmem
    · exact h.finished code description hmem
    · exact h'.finished code description hmem
  stops hmem := by
    rcases List.mem_append.mp hmem with hmem | hmem
    · obtain ⟨hcondition, description, hfinished⟩ := h.stops hmem
      exact ⟨hcondition, description, List.mem_append_left _ hfinished⟩
    · obtain ⟨hcondition, description, hfinished⟩ := h'.stops hmem
      exact ⟨hcondition, description, List.mem_append_right _ hfinished⟩
  noStart hmem := by
    rcases List.mem_append.mp hmem with hmem | hmem
    · exact h.noStart hmem
    · exact h'.noStart hmem

end Orderly

section Host

variable {lib : Library} {op : Host.Operation}

/-- The response of the target accepts the operation. -/
theorem orderly_initialisationFileCompleted {condition : Prop} {file : Bytes}
    (husable : Host.Operation.InitialisationUsable lib .successful file)
    (haccepted : ∀ initFile rest,
      InitializationFile.decode lib.raw {} file = .done () initFile rest →
        initFile.response.code = .operationAccepted) :
    Orderly condition op (op.initialisationFileCompleted lib .successful file) := by
  have hdecoded := husable.2
  unfold Host.Operation.initialisationFileCompleted
  simp only [ne_eq, not_true_eq_false, if_false]
  cases hdecode : InitializationFile.decode lib.raw {} file with
  | thrown => rw [hdecode] at hdecoded; cases hdecoded
  | done _ initFile rest =>
    refine .andThen (.idle rfl rfl) ?_
    simp only [Host.Operation.initialisationAnswered, Host.Operation.emit,
      haccepted initFile rest hdecode]
    exact .idle rfl rfl

/-- A request for a file of the target of the operation passes the check. -/
theorem checkRequest_toText {fileType : ProtocolFileType} (h : op.targetId.toBool = true)
    (remote : Endpoint) :
    op.checkRequest (ProtocolFilename.toText { targetIdV := op.targetId, fileTypeV := fileType })
      remote = none := by
  unfold Host.Operation.checkRequest
  rw [ProtocolFilename.ofText_toText h]
  simp

variable (remote : Endpoint) (options : Arinc615aOptions)

/-- A protocol file of the target of an information operation. -/
theorem tftpRequest_toText (hkind : op.kind = .information) (hid : op.targetId.toBool = true)
    (fileType : ProtocolFileType) :
    op.tftpRequest remote .write
        (ProtocolFilename.toText { targetIdV := op.targetId, fileTypeV := fileType }) options =
      match fileType with
      | .loadConfigurationList => Host.InformationOperation.listFileRequest op options
      | .loadConfigurationStatus => op.statusFileRequest remote
      | _ => op.emit (.errorOperation remote .fileNotFound "Wrong filename") := by
  have hinformation : ∀ filename, op.tftpRequest remote .write filename options =
      Host.InformationOperation.tftpRequest op remote .write filename options := by
    intro filename
    unfold Host.Operation.tftpRequest
    rw [hkind]
  -- the identifier is the own one, and the name is taken apart as it was put together
  rw [hinformation, Host.InformationOperation.tftpRequest, checkRequest_toText hid,
    ProtocolFilename.ofText_toText hid]
  cases fileType <;> rfl

/-- The status file of the target is received. -/
theorem tftpRequest_status (hkind : op.kind = .information) (hid : op.targetId.toBool = true)
    (hreason : op.abortReason = .noAbort) :
    op.tftpRequest remote .write
        (ProtocolFilename.toText
          { targetIdV := op.targetId, fileTypeV := .loadConfigurationStatus }) options =
      ({ op with
          statusFileOperations := op.nextStatusFileOperation :: op.statusFileOperations
          nextStatusFileOperation := op.nextStatusFileOperation + 1 },
        [.transferStart (.status op.nextStatusFileOperation)]) := by
  have haborted : op.isAborted remote = none := if_pos hreason
  rw [tftpRequest_toText remote options hkind hid]
  simp only [Host.Operation.statusFileRequest, haborted]

/-- What the host does with a status that the target of an information operation sends before it
aborts anything.  One that the host cannot read is left alone. -/
theorem orderly_statusFileCompleted {id : Nat} {data : Bytes} (hkind : op.kind = .information)
    (hid : op.statusFileOperations.count id = 1) {condition : Prop}
    (hcode : ∀ file rest,
      InformationOperationStatusFile.decode lib.raw {} data = .done () file rest →
        file.status.code = .operationAccepted ∨ file.status.code = .operationInProgress ∨
          file.status.code = .operationCompleted ∧ condition) :
    Orderly condition op (op.statusFileCompleted lib id .successful data) := by
  unfold Host.Operation.statusFileCompleted
  rw [hkind]
  simp only [Host.InformationOperation.statusFileCompleted,
    Host.Operation.removeStatusFileOperation, hid, ne_eq, not_true_eq_false, if_false,
    Host.Operation.statusFileReceived, Host.receiveInformationStatus]
  cases hdecode : InformationOperationStatusFile.decode lib.raw {} data with
  | thrown => exact .idle rfl rfl
  | done _ file rest =>
    refine .andThen (.idle rfl rfl) ?_
    simp only [Host.Operation.emit, Host.Operation.statusReceived]
    -- only a completed status ends the operation; the others arm the timer
    rcases hcode file rest hdecode with hcode | hcode | ⟨hcode, hcondition⟩
    · simp only [hcode]
      exact .idle rfl rfl
    · simp only [hcode]
      exact .idle rfl rfl
    · simp only [hcode]
      exact .completed hcondition _ _

/-- What the host does with a list that it can read. -/
theorem orderly_listFileCompleted {checkValue : CheckValue} {file : LoadConfigurationListFile}
    {data rest : Bytes} (hkind : op.kind = .information)
    (hdecode : LoadConfigurationListFile.decode lib.raw {} data = .done () file rest)
    {condition : Prop} (hcondition : condition) :
    Orderly condition op (op.listFileCompleted lib checkValue .successful data) := by
  unfold Host.Operation.listFileCompleted
  rw [hkind]
  simp only [Host.InformationOperation.listFileCompleted, hdecode, ne_eq, not_true_eq_false,
    if_false]
  refine .andThen (.idle rfl rfl) ?_
  split
  · exact .idle rfl rfl
  · exact .completed hcondition _ _

end Host

/-! ## The operation of the target -/

/-- The codes that the target sends; it completes the operation when its list has been taken. -/
def Sendable (listed : Prop) (code : StatusCode) : Prop :=
  code = .operationAccepted ∨ code = .operationInProgress ∨ code = .operationCompleted ∧ listed

theorem Sendable.mono {listed listed' : Prop} {code : StatusCode} (h : Sendable listed code)
    (himp : listed → listed') : Sendable listed' code :=
  h.imp_right (Or.imp_right (And.imp_right himp))

def Configuration.filename (c : Configuration) (fileType : ProtocolFileType) : Text :=
  ProtocolFilename.toText { targetIdV := c.targetId, fileTypeV := fileType }

/-- The files that the target sends. -/
inductive Sends (lib : Library) (c : Configuration) (listed : Prop) :
    Target.Transfer → Text → Bytes → Prop
  | status (status : InformationStatus) (data : Bytes) (code : Sendable listed status.code)
      (encode : InformationOperationStatusFile.encode lib.raw
        { protocolVersion := c.protocolVersion, status } = .ok data) :
      Sends lib c listed (.status (.information status)) (c.filename .loadConfigurationStatus) data
  | list (data : Bytes)
      (encode : LoadConfigurationListFile.encode lib.raw
        { protocolVersion := c.protocolVersion, targetsHardware := c.targetsHardware } =
          .ok data) :
      Sends lib c listed .list (c.filename .loadConfigurationList) data

theorem Sends.mono {lib : Library} {c : Configuration} {listed listed' : Prop}
    {transfer : Target.Transfer} {filename : Text} {data : Bytes}
    (h : Sends lib c listed transfer filename data) (himp : listed → listed') :
    Sends lib c listed' transfer filename data := by
  cases h with
  | status status _ code encode => exact .status status data (code.mono himp) encode
  | list _ encode => exact .list data encode

theorem Sends.cases {lib : Library} {c : Configuration} {listed : Prop}
    {transfer : Target.Transfer} {filename : Text} {data : Bytes}
    (h : Sends lib c listed transfer filename data) :
    (∃ status, transfer = .status (.information status) ∧
        filename = c.filename .loadConfigurationStatus ∧ Sendable listed status.code ∧
        InformationOperationStatusFile.encode lib.raw
          { protocolVersion := c.protocolVersion, status } = .ok data) ∨
      (transfer = .list ∧ filename = c.filename .loadConfigurationList ∧
        LoadConfigurationListFile.encode lib.raw
          { protocolVersion := c.protocolVersion, targetsHardware := c.targetsHardware } =
            .ok data) := by
  cases h with
  | status status _ code encode => exact .inl ⟨status, rfl, rfl, code, encode⟩
  | list _ encode => exact .inr ⟨rfl, rfl, encode⟩

/-- The running host takes the files of the target for what they are. -/
theorem tftpRequest_sends {lib : Library} {c : Configuration} {listed : Prop} (condition : Prop)
    {transfer : Target.Transfer} {filename : Text} {data : Bytes} {op : Host.Operation}
    (h : Sends lib c listed transfer filename data)
    (hop : identity op = (.information, c.targetId, .noAbort)) (remote : Endpoint)
    (options : Arinc615aOptions) :
    Orderly condition op (op.tftpRequest remote .write filename options) ∧
      ((transfer ≠ .list ∧ ∃ id,
          answer (op.tftpRequest remote .write filename options).2 = .taken (.status id)) ∨
        (transfer = .list ∧ ∃ checkValue,
          answer (op.tftpRequest remote .write filename options).2 =
            .taken (.list checkValue))) := by
  obtain ⟨hkind, htarget, hreason⟩ : op.kind = .information ∧ op.targetId = c.targetId ∧
      op.abortReason = .noAbort := by
    simpa [identity] using hop
  have hid : op.targetId.toBool = true := htarget ▸ c.compliant
  have hname : ∀ fileType, c.filename fileType =
      ProtocolFilename.toText { targetIdV := op.targetId, fileTypeV := fileType } := by
    intro fileType
    rw [htarget]
    rfl
  cases h with
  | status status _ code encode =>
    rw [hname, tftpRequest_status remote options hkind hid hreason]
    exact ⟨.idle rfl rfl, .inl ⟨by simp, _, rfl⟩⟩
  | list _ encode =>
    rw [hname, tftpRequest_toText remote options hkind hid]
    dsimp only [Host.InformationOperation.listFileRequest]
    -- a list that is still being received would be aborted first
    split
    · exact ⟨.idle rfl rfl, .inr ⟨rfl, _, rfl⟩⟩
    · exact ⟨.idle rfl rfl, .inr ⟨rfl, _, rfl⟩⟩

/-- The status of the target, apart from the time: nothing yet, or what it may send. -/
structure Regular (c : Configuration) (listed : Prop) (op : Target.Operation) : Prop where
  targetId : op.targetId = c.targetId
  version : op.protocolVersion = c.protocolVersion
  status : ∃ status : InformationStatus, op.statusV = .information status ∧
    status.description = [] ∧ (status.code = .invalid ∨ Sendable listed status.code)

theorem Regular.mono {c : Configuration} {listed listed' : Prop} {op : Target.Operation}
    (h : Regular c listed op) (himp : listed → listed') : Regular c listed' op := by
  obtain ⟨status, hstatus, hdescription, hcode⟩ := h.status
  exact ⟨h.targetId, h.version, status, hstatus, hdescription,
    hcode.imp_right fun hsendable => hsendable.mono himp⟩

theorem Regular.kind {c : Configuration} {listed : Prop} {op : Target.Operation}
    (h : Regular c listed op) : op.statusV.kind = .information := by
  obtain ⟨status, hstatus, -⟩ := h.status
  rw [hstatus]
  rfl

/-- What a callback of the target may call: files that it sends, and, if it finishes the operation,
the final status. -/
def Allowed (lib : Library) (c : Configuration) (listed : Prop) (finalStatus : FinalStatus) :
    Target.Output → Prop
  | .protocolFile _ _ filename data _ transfer => Sends lib c listed transfer filename data
  | .finished status _ => status = finalStatus
  | .sendInitFile .. => False
  | _ => True

/-- A list is sent, or the handler goes to work and will send one. -/
def opensList : Target.Output → Bool
  | .protocolFile _ _ _ _ _ .list | .initialised => true
  | _ => false

/-- A callback of the target, with the number of lists that it brings about. -/
structure Proper (lib : Library) (c : Configuration) (listed : Prop) (lists : Nat)
    (finalStatus : FinalStatus) (r : Target.Reaction) : Prop where
  regular : Regular c listed r.1
  allowed : ∀ o ∈ r.2, Allowed lib c listed finalStatus o
  lists : r.2.countP opensList ≤ lists

section Target

variable {lib : Library} {c : Configuration} {listed : Prop} {finalStatus : FinalStatus}
  {op : Target.Operation}

theorem Proper.none (h : Regular c listed op) : Proper lib c listed 0 finalStatus (op, []) :=
  ⟨h, by simp, by simp⟩

theorem Proper.emit (h : Regular c listed op) {o : Target.Output}
    (ho : Allowed lib c listed finalStatus o) (hlist : opensList o = false) :
    Proper lib c listed 0 finalStatus (op.emit o) :=
  ⟨h, by simpa [Target.Operation.emit] using ho, by simp [Target.Operation.emit, hlist]⟩

theorem Regular.protocolFilename (h : Regular c listed op) (fileType : ProtocolFileType) :
    op.protocolFilename fileType = c.filename fileType := by
  rw [Target.Operation.protocolFilename, h.targetId]
  rfl

/-- The status is set by the handler, or by a callback. -/
theorem Regular.setStatus (h : Regular c listed op) {code : StatusCode}
    (hcode : Sendable listed code) (estimatedTime : Int16) :
    Regular c listed (op.status code [] estimatedTime) := by
  obtain ⟨status, hstatus, -⟩ := h.status
  refine ⟨h.targetId, h.version, { status.set code [] with estimatedTime }, ?_, rfl, .inr hcode⟩
  rw [Target.Operation.status, hstatus]
  rfl

theorem proper_statusFile (h : Regular c listed op) :
    Proper lib c listed 0 finalStatus (op.statusFile lib) := by
  obtain ⟨status, hstatus, hdescription, hcode⟩ := h.status
  -- the status as it is sent
  obtain ⟨sent, hsent, hsendable, hempty⟩ : ∃ sent : InformationStatus,
      op.forceAccepted = { op with statusV := .information sent } ∧ Sendable listed sent.code ∧
        sent.description = [] := by
    have hsame : op.statusV.status = status := by rw [hstatus]; rfl
    unfold Target.Operation.forceAccepted
    rw [hsame]
    -- a status that has not been set yet is sent as accepted
    by_cases hinvalid : status.code = .invalid
    · refine ⟨status.setCode .operationAccepted, ?_, .inl rfl, rfl⟩
      rw [if_pos hinvalid, hstatus]
      rfl
    · refine ⟨status, ?_, hcode.resolve_left hinvalid, hdescription⟩
      rw [if_neg hinvalid, ← hstatus]
  obtain ⟨data, hencode⟩ := (InformationOperationStatusFile.encode_ok_iff lib.raw
    { protocolVersion := c.protocolVersion, status := sent }).mpr (by simp [hempty])
  have hfile : (Target.AnyStatus.information sent).encode lib.raw op.protocolVersion = .ok data := by
    rw [h.version]
    exact hencode
  have hsends : Sends lib c listed (.status (.information sent))
      (op.protocolFilename .loadConfigurationStatus) data := by
    rw [h.protocolFilename]
    exact .status sent data hsendable hencode
  unfold Target.Operation.statusFile
  simp only [hsent, hfile]
  refine ⟨⟨h.targetId, h.version, sent.incrementCounter, rfl, hempty, .inr hsendable⟩, ?_, ?_⟩
  · intro o ho
    simp only [Target.Operation.protocolFileOperation, Target.Operation.emit,
      Target.Reaction.andThen_mk, Target.Operation.triggerStatusTransmissionTimer,
      List.cons_append, List.nil_append, List.mem_cons, List.not_mem_nil, or_false] at ho
    rcases ho with rfl | rfl
    · exact hsends
    · trivial
  · simp [Target.Operation.protocolFileOperation, Target.Operation.emit, opensList,
      Target.Operation.triggerStatusTransmissionTimer]

theorem proper_forceStatusTransmission (h : Regular c listed op) :
    Proper lib c listed 0 finalStatus (op.forceStatusTransmission lib) := by
  unfold Target.Operation.forceStatusTransmission
  rw [if_pos h.kind]
  exact proper_statusFile h

theorem proper_timerHandler (h : Regular c listed op) (result : WaitResult) :
    Proper lib c listed 0 finalStatus (op.statusTransmissionTimerHandler lib result) := by
  cases result with
  | operationAborted => exact .none h
  | expired | error => exact proper_statusFile h

/-- The calls of the handler; the list goes out with the second one. -/
theorem proper_call (h : Regular c listed op) {call : Target.Call}
    (hcall : call ∈ c.handlerCalls) :
    ∃ r, op.call lib call = some r ∧
      Proper lib c listed (if call = .accepted then 0 else 1) finalStatus r := by
  simp only [Configuration.handlerCalls, List.mem_cons, List.not_mem_nil, or_false] at hcall
  rcases hcall with rfl | rfl
  · exact ⟨_, rfl, proper_forceStatusTransmission (h.setStatus (.inl rfl) 0)⟩
  · refine ⟨Target.InformationOperation.targetInformation lib op c.targetsHardware
      c.checkValueType, ?_, ?_⟩
    · unfold Target.Operation.call
      rw [h.kind]
    · unfold Target.InformationOperation.targetInformation
      rw [h.version, if_neg (by simp)]
      split
      -- a list that cannot be encoded is not sent, and the exception goes to the handler
      case h_1 exception => exact ⟨h, by simp [Target.Operation.emit, Allowed], Nat.zero_le 1⟩
      case h_2 rawFile hencode =>
        have hsends : Sends lib c listed .list (op.protocolFilename .loadConfigurationList)
            rawFile := by
          rw [h.protocolFilename]
          exact .list rawFile hencode
        exact ⟨h, by simpa [Target.Operation.protocolFileOperation, Target.Operation.emit, Allowed]
          using hsends, Nat.le_refl 1⟩

/-! ## The parts of its callbacks -/

/-- What is left of a callback goes on behind a status that the target may send. -/
def Resumes (listed : Prop) : Target.Rest → Prop
  | .status sent => ∃ status, sent = .information status ∧ Sendable listed status.code
  | .finished => True
  | .requestFile => False

theorem Resumes.mono {listed listed' : Prop} {rest : Target.Rest} (h : Resumes listed rest)
    (himp : listed → listed') : Resumes listed' rest := by
  cases rest with
  | status sent =>
    obtain ⟨status, heq, hcode⟩ := h
    exact ⟨status, heq, hcode.mono himp⟩
  | finished | requestFile => exact h

/-- A part of a callback of the target. -/
structure ProperPart (lib : Library) (c : Configuration) (listed : Prop) (lists : Nat)
    (finalStatus : FinalStatus) (part : Target.Part) : Prop where
  proper : Proper lib c listed lists finalStatus part.reaction
  rest : ∀ rest ∈ part.rest, Resumes listed rest

theorem ProperPart.part {lists : Nat} {r : Target.Reaction}
    (h : Proper lib c listed lists finalStatus r) :
    ProperPart lib c listed lists finalStatus r.part :=
  ⟨h, fun _ hrest => nomatch hrest⟩

theorem ProperPart.still (h : Regular c listed op) :
    ProperPart lib c listed 0 finalStatus { state := op, out := [] } := .part (.none h)

theorem ProperPart.finalise (h : Regular c listed op) (description : Text) :
    ProperPart lib c listed 0 finalStatus (op.finalisePart finalStatus description) :=
  ⟨.emit h rfl rfl, fun _ hrest => Option.some.inj hrest ▸ trivial⟩

theorem properPart_sendInitFileComplete (h : Regular c listed op) :
    ProperPart lib c listed 1 finalStatus (op.sendInitFileCompletePart .successful) :=
  .part ⟨h, by simp [Target.Operation.emit, Allowed,
    Target.Operation.triggerStatusTransmissionTimer], Nat.le_refl 1⟩

/-- A status has been received by the host. -/
theorem properPart_statusFileCompleted (h : Regular c listed op) {sent : InformationStatus}
    (hcode : Sendable listed sent.code) :
    ProperPart lib c listed 0 .completed
      (op.statusFileCompletedPart (.information sent) .successful) :=
  ⟨.emit h trivial rfl, fun _ hrest => Option.some.inj hrest ▸ ⟨sent, rfl, hcode⟩⟩

/-- The host has taken no status. -/
theorem properPart_statusFileFailed (h : Regular c listed op) (sent : Target.AnyStatus) :
    ProperPart lib c listed 0 .abortedByTargetHardware
      (op.statusFileCompletedPart sent .communicationError) :=
  .finalise h _

/-- An accepted status is followed by a first status in progress, and a final one ends the
operation. -/
theorem properPart_statusSent (h : Regular c listed op) {sent : InformationStatus}
    (hcode : Sendable listed sent.code) :
    ProperPart lib c listed 0 .completed (op.statusSentPart lib sent) := by
  unfold Target.Operation.statusSentPart
  rcases hcode with hcode | hcode | ⟨hcode, hlisted⟩
  · rw [hcode]
    dsimp only
    rw [if_pos h.kind]
    exact .part (proper_forceStatusTransmission (h.setStatus (.inr (.inl rfl)) (-1)))
  · have htimer : Proper lib c listed 0 .completed op.triggerStatusTransmissionTimer :=
      .emit h trivial rfl
    rw [hcode]
    exact .part htimer
  · rw [hcode]
    exact .finalise h sent.description

/-- The list has been taken by the host. -/
theorem properPart_listCompleted (h : Regular c listed op) (hlisted : listed) :
    ProperPart lib c listed 0 .completed (op.listCompletedPart lib .successful) := by
  unfold Target.Operation.listCompletedPart
  rw [h.kind]
  -- without a status the list is the end, otherwise a final status follows
  show ProperPart lib c listed 0 .completed (if op.statusV.status.code = .invalid then _ else _)
  split
  · exact .finalise h []
  · exact .part (proper_statusFile (h.setStatus (.inr (.inr ⟨rfl, hlisted⟩)) 0))

/-- A call of the handler is left. -/
theorem properPart_leave (h : Regular c listed op) {rest : Target.Rest}
    (hrest : Resumes listed rest) (exit : Exit) :
    ProperPart lib c listed 0 .completed (op.leave lib rest exit) := by
  cases rest with
  | status sent =>
    obtain ⟨status, rfl, hcode⟩ := hrest
    cases exit with
    | returned => exact properPart_statusSent h hcode
    | arinc615aException | otherException => exact .still h
  | finished =>
    cases exit with
    | returned =>
      have hcancel : Proper lib c listed 0 .completed (op.emit .timerCancel) := .emit h trivial rfl
      exact .part hcancel
    | arinc615aException | otherException => exact .still h
  | requestFile => exact hrest.elim

end Target

end Arinc615a.Exchange
