import Arinc615a.Host.Conduct

/-!
# What the host callbacks leave as it is

The configuration never changes, the protocol version and the note of the initialisation belong to
the initialisation file, and the flag of the request file to `start` and to its completion.  All
other callbacks leave these members alone, and only the call of the user transmits a request file.
-/

open Reasoning

namespace Arinc615a.Host

open Files Information Tftp

structure Kept (op op' : Operation) : Prop where
  kind : op'.kind = op.kind
  targetId : op'.targetId = op.targetId
  dlpTimeout : op'.dlpTimeout = op.dlpTimeout
  portOption : op'.portOption = op.portOption
  protocolVersion : op'.protocolVersion = op.protocolVersion
  initialisationOperation : op'.initialisationOperation = op.initialisationOperation
  sent : op'.sent = op.sent

theorem Kept.refl (op : Operation) : Kept op op := ⟨rfl, rfl, rfl, rfl, rfl, rfl, rfl⟩

theorem Kept.trans {op op' op'' : Operation} (h : Kept op op') (h' : Kept op' op'') :
    Kept op op'' where
  kind := h'.kind.trans h.kind
  targetId := h'.targetId.trans h.targetId
  dlpTimeout := h'.dlpTimeout.trans h.dlpTimeout
  portOption := h'.portOption.trans h.portOption
  protocolVersion := h'.protocolVersion.trans h.protocolVersion
  initialisationOperation := h'.initialisationOperation.trans h.initialisationOperation
  sent := h'.sent.trans h.sent

/-- What is set when an operation is created. -/
structure Configured (op op' : Operation) : Prop where
  kind : op'.kind = op.kind
  targetId : op'.targetId = op.targetId
  dlpTimeout : op'.dlpTimeout = op.dlpTimeout
  portOption : op'.portOption = op.portOption

theorem Configured.refl (op : Operation) : Configured op op := ⟨rfl, rfl, rfl, rfl⟩

theorem Configured.trans {op op' op'' : Operation} (h : Configured op op')
    (h' : Configured op' op'') : Configured op op'' :=
  ⟨h'.kind.trans h.kind, h'.targetId.trans h.targetId, h'.dlpTimeout.trans h.dlpTimeout,
    h'.portOption.trans h.portOption⟩

theorem Kept.configured {op op' : Operation} (h : Kept op op') : Configured op op' :=
  ⟨h.kind, h.targetId, h.dlpTimeout, h.portOption⟩

/-- The calls that transmit a request file. -/
def Output.ofRequest : Output → Bool
  | .transmitFile .. | .transferStart .request => true
  | _ => false

/-- A callback that does not transmit a request file. -/
def NoRequest (out : List Output) : Prop := ∀ o ∈ out, o.ofRequest = false

namespace NoRequest

variable {out out' : List Output}

theorem nil : NoRequest [] := List.forall_mem_nil _

theorem single {o : Output} (ho : o.ofRequest = false) : NoRequest [o] :=
  List.forall_mem_singleton.mpr ho

theorem append (h : NoRequest out) (h' : NoRequest out') : NoRequest (out ++ out') :=
  List.forall_mem_append.mpr ⟨h, h'⟩

end NoRequest

/-- The timer is cancelled only behind a call of `finished`. -/
abbrev CancelsFinished (out : List Output) : Prop := Mark.WithFinish Output.mark .timerCancel out

/-- A callback that has nothing to do with the initialisation and the request file. -/
structure Apart (op : Operation) (r : Reaction) : Prop where
  kept : Kept op r.1
  noRequest : NoRequest r.2
  cancels : CancelsFinished r.2

namespace Apart

variable {op op' : Operation} {r : Reaction}

theorem still : Apart op (op, []) := ⟨.refl op, .nil, .nil⟩

theorem emit {o : Output} (ho : o.ofRequest = false) (hcancel : o ≠ .timerCancel) :
    Apart op (op.emit o) :=
  ⟨.refl op, .single ho, .single hcancel⟩

theorem set (hkept : Kept op op') (h : Apart op' r) : Apart op r :=
  ⟨hkept.trans h.kept, h.noRequest, h.cancels⟩

theorem andThen {f : Operation → Reaction} (h : Apart op r) (h' : Apart r.1 (f r.1)) :
    Apart op (r.andThen f) :=
  ⟨h.kept.trans h'.kept, h.noRequest.append h'.noRequest, h.cancels.append h'.cancels⟩

end Apart

namespace Operation

variable (lib : Library) (op : Operation)

theorem apart_finished (status : StatusCode) (description : Text) :
    Apart op (op.finished status description) :=
  ⟨.refl op, by simp [NoRequest, Operation.finished, Output.ofRequest],
    fun _ => ⟨.finished status description, List.mem_cons_self .., rfl⟩⟩

theorem apart_abortInitialisation : Apart op op.abortInitialisation := by
  unfold abortInitialisation
  split
  · exact .emit rfl (by simp)
  · exact .still

theorem apart_doAbort (reason : AbortReason) : Apart op (op.doAbort reason) := by
  unfold doAbort
  split
  · exact .still
  · have hreason : Kept op { op with abortReason := reason } := ⟨rfl, rfl, rfl, rfl, rfl, rfl, rfl⟩
    exact .set hreason (apart_abortInitialisation _)

theorem apart_doTerminate (reason : AbortReason) : Apart op (op.doTerminate reason) :=
  op.apart_abortInitialisation.andThen (apart_finished _ _ _)

theorem apart_timerHandler (errorCode : WaitResult) : Apart op (op.timerHandler errorCode) := by
  cases errorCode with
  | operationAborted => exact .still
  | expired | error => exact op.apart_finished _ _

theorem apart_initialisationAnswered (initFile : InitializationFile) :
    Apart { op with protocolVersion := (op.initialisationAnswered initFile).1.protocolVersion }
      (op.initialisationAnswered initFile) := by
  unfold initialisationAnswered
  cases initFile.response.code with
  | operationAccepted => exact .emit rfl (by simp)
  | operationDenied | operationNotSupported | operationDeferred => exact apart_finished _ _ _

/-- The initialisation file changes the version and the note, and nothing else. -/
theorem apart_initialisationFileCompleted (status : TransferStatus) (data : Bytes) :
    Apart { op with
        initialisationOperation := false
        protocolVersion := (op.initialisationFileCompleted lib status data).1.protocolVersion }
      (op.initialisationFileCompleted lib status data) := by
  refine initialisationFileCompleted_elim
    (P := fun r => Apart { op with
      initialisationOperation := false, protocolVersion := r.1.protocolVersion } r)
    (apart_finished _ _ _) fun initFile => ?_
  have hanswered := apart_initialisationAnswered { op with initialisationOperation := false }
    initFile
  exact ⟨hanswered.kept, NoRequest.append (.single rfl) hanswered.noRequest,
    Mark.WithFinish.append (.single (by simp)) hanswered.cancels⟩

/-! ## Status files -/

theorem apart_statusFileRequest (remote : Endpoint) : Apart op (op.statusFileRequest remote) := by
  have hreason : Kept op { op with abortReason := .noAbort } :=
    ⟨rfl, rfl, rfl, rfl, rfl, rfl, rfl⟩
  refine statusFileRequest_elim (fun _ => ?_) fun _ => ?_
  · exact Apart.andThen (.emit rfl (by simp)) (.set hreason (.emit rfl (by simp)))
  · exact ⟨⟨rfl, rfl, rfl, rfl, rfl, rfl, rfl⟩, .single rfl, .single (by simp)⟩

theorem apart_statusReceived {progress : Operation → Operation}
    (hprogress : ∀ op, Kept op (progress op)) (status : Status) :
    Apart op (statusReceived progress op status) := by
  unfold statusReceived
  cases status.code with
  | operationAccepted | operationInProgress | operationInProgressAdditionalInfo =>
    exact .set (hprogress op) (.emit rfl (by simp))
  | _ => exact op.apart_finished _ _

theorem apart_statusFileReceived {receive : Bytes → Option ReceivedStatus}
    (hcall : ∀ data received, receive data = some received →
      received.call.plain = true ∧ received.call.mark = .activity)
    {progress : Operation → Operation} (hprogress : ∀ op, Kept op (progress op))
    (status : TransferStatus) (data : Bytes) :
    Apart op (statusFileReceived receive progress op status data) := by
  unfold statusFileReceived
  split
  · exact op.apart_finished _ _
  · split
    case h_1 received hreceive =>
      have hplain : received.call.ofRequest = false ∧ received.call ≠ .timerCancel := by
        have hactivity := (hcall data received hreceive).2
        cases hcalled : received.call with
        | transmitFile | transferStart | timerCancel => simp [hcalled, Output.mark] at hactivity
        | _ => simp [Output.ofRequest]
      exact Apart.andThen (.emit hplain.1 hplain.2) (apart_statusReceived _ hprogress _)
    case h_2 => exact .still

theorem apart_statusFileCompleted (operation : Nat) (status : TransferStatus) (data : Bytes) :
    Apart op (op.statusFileCompleted lib operation status data) := by
  have hcall : ∀ kind data received, receiveStatus lib kind data = some received →
      received.call.plain = true ∧ received.call.mark = .activity :=
    fun kind data received => receiveStatus_call lib
  have hremoved : Kept op (op.removeStatusFileOperation operation).1 :=
    ⟨rfl, rfl, rfl, rfl, rfl, rfl, rfl⟩
  have honward : ∀ {receive : Bytes → Option ReceivedStatus},
      (∀ data received, receive data = some received →
        received.call.plain = true ∧ received.call.mark = .activity) →
      Apart op (statusFileCompletedOnward receive op operation status data) := by
    intro receive hreceive
    unfold statusFileCompletedOnward
    dsimp only
    -- a finish on the way leaves the members as they are
    split
    · exact .set hremoved
        ((apart_finished _ _ _).andThen (apart_statusFileReceived _ hreceive .refl status data))
    · exact .set hremoved
        (Apart.still.andThen (apart_statusFileReceived _ hreceive .refl status data))
  unfold Operation.statusFileCompleted
  cases op.kind with
  | information =>
    dsimp only [InformationOperation.statusFileCompleted]
    split
    · exact .set hremoved (apart_finished _ _ _)
    · refine .set hremoved (apart_statusFileReceived _ (hcall .information) (fun op => ?_) status data)
      exact ⟨rfl, rfl, rfl, rfl, rfl, rfl, rfl⟩
  | upload => exact honward (hcall .upload)
  | mediaDefinedDownload | operatorDefinedDownload => exact honward (hcall .mediaDefinedDownload)

/-! ## Lists and requests -/

theorem apart_listFileFailed : Apart op (InformationOperation.listFileFailed op) := by
  unfold InformationOperation.listFileFailed
  split
  · exact op.apart_doAbort _
  · exact op.apart_finished _ _

theorem apart_listFileCompleted (checkValue : CheckValue) (status : TransferStatus)
    (data : Bytes) : Apart op (op.listFileCompleted lib checkValue status data) := by
  have hreset : Kept op { op with listFileOperation := false } :=
    ⟨rfl, rfl, rfl, rfl, rfl, rfl, rfl⟩
  unfold Operation.listFileCompleted
  cases op.kind with
  | information =>
    dsimp only [InformationOperation.listFileCompleted]
    split
    · exact .set hreset (apart_listFileFailed _)
    · split
      · refine .set hreset (Apart.andThen (.emit rfl (by simp)) ?_)
        dsimp only [emit]
        split
        · exact .emit rfl (by simp)
        · exact apart_finished _ _ _
      · exact .set hreset (apart_listFileFailed _)
      · exact .set hreset .still
  | operatorDefinedDownload =>
    dsimp only [OperatorDefinedDownloadOperation.listFileCompleted]
    split
    · exact .set hreset (apart_doAbort _ _)
    · split
      · exact .set hreset (.emit rfl (by simp))
      · exact .set hreset (apart_doAbort _ _)
      · exact .set hreset .still
  | upload | mediaDefinedDownload => exact .still

variable {op}

theorem apart_listTransfer (checkValue : CheckValue) :
    Apart op ({ op with listFileOperation := true },
      (if op.listFileOperation then
        [.gracefulAbort (.list checkValue) "New list file received"] else []) ++
        [.transferStart (.list checkValue)]) := by
  have hstart : Apart op
      (emit { op with listFileOperation := true } (.transferStart (.list checkValue))) :=
    ⟨⟨rfl, rfl, rfl, rfl, rfl, rfl, rfl⟩, .single rfl, .single (by simp)⟩
  split
  · exact ⟨hstart.kept, NoRequest.append (.single rfl) hstart.noRequest,
      Mark.WithFinish.append (.single (by simp)) hstart.cancels⟩
  · exact hstart

theorem apart_tftpRequest (op : Operation) (remote : Endpoint) (requestType : RequestType)
    (filename : Text) (options : Arinc615aOptions) :
    Apart op (op.tftpRequest remote requestType filename options) := by
  refine tftpRequest_elim (fun _ _ => .emit rfl (by simp)) (fun _ _ => .emit rfl (by simp))
    (op.apart_statusFileRequest remote) apart_listTransfer fun handled hhandled => ?_
  -- the answer to a read request comes first
  exact Apart.andThen (.emit rfl (by simp)) hhandled

/-- A request file is transmitted as one file by one transfer, unless it has been before. -/
theorem send_cases {request : Request} {r : Reaction} (h : op.send lib request = some (.ok r)) :
    (op.sent = true ∧ r = (op, [])) ∨
      (op.sent = false ∧ ∃ fileType filename file,
        r = (op, [.transmitFile fileType filename file, .transferStart .request])) := by
  have htransmit : ∀ {fileType : ProtocolFileType} {filename : Text}
      {encoded : Except Arinc615aException Bytes},
      (if op.sent then Except.ok (op, []) else do
        let file ← encoded
        Except.ok (op, [Output.transmitFile fileType filename file,
          Output.transferStart .request])) = .ok r →
      (op.sent = true ∧ r = (op, [])) ∨
        (op.sent = false ∧ ∃ fileType filename file,
          r = (op, [.transmitFile fileType filename file, .transferStart .request])) := by
    intro fileType filename encoded heq
    split at heq
    case isTrue hsent =>
      cases heq
      exact .inl ⟨hsent, rfl⟩
    case isFalse hsent =>
      obtain ⟨file, -, hfile⟩ := bind_eq_ok heq
      cases hfile
      exact .inr ⟨eq_false_of_ne_true hsent, fileType, filename, file, rfl⟩
  unfold send at h
  split at h
  · exact htransmit (Option.some.inj h)
  · exact htransmit (Option.some.inj h)
  · exact htransmit (Option.some.inj h)
  · cases h

/-- The completion of the request file sets its flag, or aborts. -/
theorem requestCompleted_of_kind (op : Operation) (hkind : op.kind ≠ .information)
    (status : TransferStatus) :
    op.requestCompleted status =
      if status ≠ .successful then op.doAbort .protocol else ({ op with sent := true }, []) := by
  obtain ⟨kind⟩ := op
  cases kind with
  | information => exact absurd rfl hkind
  | upload | mediaDefinedDownload | operatorDefinedDownload => rfl

/-- Of what the initialisation and the request file have to do with, it sets the flag only. -/
theorem apart_requestCompleted (op : Operation) (status : TransferStatus) :
    Apart { op with sent := (op.requestCompleted status).1.sent } (op.requestCompleted status) ∧
      (op.kind ≠ .information → ((op.requestCompleted status).1.sent = true ↔
        status = .successful ∨ op.sent = true)) := by
  by_cases hkind : op.kind = .information
  · have hnothing : op.requestCompleted status = (op, []) := by
      unfold Operation.requestCompleted
      rw [hkind]
    rw [hnothing]
    exact ⟨.still, fun h => absurd hkind h⟩
  · rw [op.requestCompleted_of_kind hkind]
    split
    case isTrue hfailed =>
      have hapart := op.apart_doAbort .protocol
      rw [hapart.kept.sent]
      exact ⟨hapart, fun _ => by simp [hfailed]⟩
    case isFalse hsent => exact ⟨.still, fun _ => by simp [not_not.mp hsent]⟩

/-! ## Start -/

/-- What `start` resets. -/
def restarted (op : Operation) : Operation :=
  match op.kind with
  | .information => { op with waitForFinalStatus := false }
  | .upload | .mediaDefinedDownload | .operatorDefinedDownload => { op with sent := false }

def initialisationFileType : OperationType → ProtocolFileType
  | .information => .loadConfigurationInitialization
  | .upload => .uploadInitialization
  | .mediaDefinedDownload => .mediaDefinedDownloadInitialization
  | .operatorDefinedDownload => .operatorDefinedDownloadInitialization

theorem start_eq (op : Operation) (result : StartResult) :
    op.start result = op.restarted.initialise (initialisationFileType op.kind) result := by
  obtain ⟨kind⟩ := op
  cases kind with
  | information | upload | mediaDefinedDownload | operatorDefinedDownload => rfl

theorem restarted_eq (op : Operation) :
    op.restarted =
      { op with
        waitForFinalStatus := op.waitForFinalStatus && op.kind ≠ .information
        sent := op.sent && op.kind = .information } := by
  obtain ⟨kind⟩ := op
  cases kind with
  | information | upload | mediaDefinedDownload | operatorDefinedDownload => simp [restarted]

section

variable (op : Operation) (result : StartResult)

theorem start_fst :
    (op.start result).1 =
      { op with
        initialisationOperation := op.initialisationOperation || result ≠ .serverStartThrows
        waitForFinalStatus := op.waitForFinalStatus && op.kind ≠ .information
        sent := op.sent && op.kind = .information } := by
  rw [start_eq, restarted_eq]
  cases result with
  | started | serverStartThrows | requestThrows => simp [initialise]

@[simp] theorem start_kind : (op.start result).1.kind = op.kind := by rw [start_fst]

@[simp] theorem start_abortReason : (op.start result).1.abortReason = op.abortReason := by
  rw [start_fst]

@[simp] theorem start_protocolVersion :
    (op.start result).1.protocolVersion = op.protocolVersion := by
  rw [start_fst]

@[simp] theorem start_listFileOperation :
    (op.start result).1.listFileOperation = op.listFileOperation := by
  rw [start_fst]

@[simp] theorem start_initialisationOperation :
    (op.start result).1.initialisationOperation =
      (op.initialisationOperation || decide (result ≠ .serverStartThrows)) := by
  rw [start_fst]

@[simp] theorem start_sent :
    (op.start result).1.sent = (op.sent && decide (op.kind = .information)) := by
  rw [start_fst]

theorem noRequest_start : NoRequest (op.start result).2 := by
  rw [start_eq]
  cases result with
  | started | serverStartThrows | requestThrows =>
    simp [NoRequest, initialise, Output.ofRequest]

theorem configured_start : Configured op (op.start result).1 := by
  rw [start_fst]
  exact ⟨rfl, rfl, rfl, rfl⟩

end

end Operation

/-! ## Steps -/

/-- The events that start the operation, or have to do with its initialisation or request file. -/
def Event.Central : Event → Prop
  | .start _ | .send _ | .completed .initialisation _ _ | .completed .request _ _ => True
  | _ => False

/-- A call that transmits a request file. -/
def SendsRequest (lib : Library) (w : World) : Event → Prop
  | .send request => w.operation.sent = false ∧ ∃ r, w.operation.send lib request = some (.ok r)
  | _ => False

theorem World.completed_eq {lib : Library} {w w' : World} {transfer : Transfer}
    {status : TransferStatus} {data : Bytes} {out : List Observation}
    (hstep : w.step lib (.completed transfer status data) = some (w', out)) :
    w'.operation = (complete lib transfer status data w.operation).1 ∧
      out = (complete lib transfer status data w.operation).2.map .call := by
  obtain ⟨loop, -, heq⟩ := Option.map_eq_some_iff.mp hstep
  exact react_eq (w := { w with loop := loop }) heq

/-- All other events run a callback that stays apart. -/
theorem World.step_apart {lib : Library} {w w' : World} {event : Event} {out : List Observation}
    (hcentral : ¬event.Central) (hstep : w.step lib event = some (w', out)) :
    ∃ r : Reaction, Apart w.operation r ∧ w'.operation = r.1 ∧ out = r.2.map .call := by
  rcases step_cases hstep with ⟨result, rfl⟩ | ⟨v, r, hruns, hreact⟩
  · exact absurd trivial hcentral
  refine ⟨r, ?_, react_eq hreact⟩
  cases hruns with
  | abort reason => exact w.operation.apart_doAbort reason
  | terminate reason => exact w.operation.apart_doTerminate reason
  | send | throws => exact absurd trivial hcentral
  | tftpRequest remote requestType filename options =>
    exact w.operation.apart_tftpRequest remote requestType filename options
  | deferred waitTime => exact .emit rfl (by simp)
  | completed transfer status data =>
    cases transfer with
    | initialisation | request => exact absurd trivial hcentral
    | status operation => exact w.operation.apart_statusFileCompleted lib operation status data
    | list checkValue => exact w.operation.apart_listFileCompleted lib checkValue status data
  | timerElapses result => exact .still
  | timerHandler result => exact w.operation.apart_timerHandler result

/-- A call for a request file leaves the operation as it is.  It transmits the file, or has no
effect. -/
theorem World.step_send {lib : Library} {w w' : World} {request : Operation.Request}
    {out : List Observation} (hstep : w.step lib (.send request) = some (w', out)) :
    w'.operation = w.operation ∧
      ((¬SendsRequest lib w (.send request) ∧ out = []) ∨
        (w.operation.sent = false ∧ ∃ fileType filename file,
          w.operation.send lib request =
            some (.ok (w.operation,
              [.transmitFile fileType filename file, .transferStart .request])) ∧
          out = [.call (.transmitFile fileType filename file),
            .call (.transferStart .request)])) := by
  rcases step_cases hstep with ⟨result, hstart⟩ | ⟨v, r, hruns, hreact⟩
  · cases hstart
  cases hreact
  cases hruns with
  | throws _ exception hsend =>
    -- the exception goes to the caller, and nothing is transmitted
    refine ⟨rfl, .inl ⟨?_, rfl⟩⟩
    rintro ⟨_, r, hr⟩
    rw [hsend] at hr
    cases hr
  | send _ reaction hsend =>
    rcases w.operation.send_cases lib hsend with
      ⟨hsent, rfl⟩ | ⟨hsent, fileType, filename, file, rfl⟩
    · refine ⟨rfl, .inl ⟨fun h => ?_, rfl⟩⟩
      exact absurd (h.1.symm.trans hsent) (by decide)
    · exact ⟨rfl, .inr ⟨hsent, fileType, filename, file, hsend, rfl⟩⟩

/-- Only a call of the user transmits a request file, and leaves the operation as it is. -/
theorem World.step_request {lib : Library} {w w' : World} {event : Event}
    {out : List Observation} (hstep : w.step lib event = some (w', out)) :
    (SendsRequest lib w event → w'.operation = w.operation ∧ ∃ request fileType filename file,
        w.operation.send lib request =
          some (.ok (w.operation, [.transmitFile fileType filename file, .transferStart .request])) ∧
        out = [.call (.transmitFile fileType filename file),
          .call (.transferStart .request)]) ∧
      (¬SendsRequest lib w event → ∃ calls, NoRequest calls ∧
        (out = calls.map .call ∨ out = .started :: calls.map .call)) := by
  by_cases hcentral : event.Central
  · cases event with
    | start result =>
      cases hstep
      refine ⟨False.elim, fun _ => ⟨_, ?_, .inr rfl⟩⟩
      exact w.operation.noRequest_start result
    | send request =>
      obtain ⟨hoperation, ⟨hnone, rfl⟩ | ⟨hsent, fileType, filename, file, hsend, hout⟩⟩ :=
        step_send hstep
      · exact ⟨fun h => absurd h hnone, fun _ => ⟨[], .nil, .inl rfl⟩⟩
      · refine ⟨fun _ => ⟨hoperation, request, fileType, filename, file, hsend, hout⟩, fun h => ?_⟩
        exact absurd ⟨hsent, _, hsend⟩ h
    | completed transfer status data =>
      obtain ⟨-, rfl⟩ := completed_eq hstep
      cases transfer with
      | initialisation =>
        have hapart := w.operation.apart_initialisationFileCompleted lib status data
        exact ⟨False.elim, fun _ => ⟨_, hapart.noRequest, .inl rfl⟩⟩
      | request =>
        have hapart := (w.operation.apart_requestCompleted status).1
        exact ⟨False.elim, fun _ => ⟨_, hapart.noRequest, .inl rfl⟩⟩
      | status | list => exact absurd hcentral id
    | _ => exact absurd hcentral id
  · obtain ⟨r, hapart, -, hout⟩ := step_apart hcentral hstep
    refine ⟨fun hsends => ?_, fun _ => ⟨r.2, hapart.noRequest, .inl hout⟩⟩
    cases event with
    | send request => exact absurd trivial hcentral
    | _ => exact hsends.elim

/-- The configuration never changes. -/
theorem World.configured_step {lib : Library} {w w' : World} {event : Event}
    {out : List Observation} (hstep : w.step lib event = some (w', out)) :
    Configured w.operation w'.operation := by
  by_cases hcentral : event.Central
  · cases event with
    | start result =>
      cases hstep
      exact w.operation.configured_start result
    | send request =>
      rw [(step_send hstep).1]
      exact .refl _
    | completed transfer status data =>
      obtain ⟨hoperation, -⟩ := completed_eq hstep
      rw [hoperation]
      cases transfer with
      | initialisation =>
        have hapart := w.operation.apart_initialisationFileCompleted lib status data
        obtain ⟨hsame, htarget, hdlp, hport⟩ := hapart.kept.configured
        exact ⟨hsame, htarget, hdlp, hport⟩
      | request =>
        obtain ⟨hapart, -⟩ := w.operation.apart_requestCompleted status
        obtain ⟨hsame, htarget, hdlp, hport⟩ := hapart.kept.configured
        exact ⟨hsame, htarget, hdlp, hport⟩
      | status | list => exact absurd hcentral id
    | _ => exact absurd hcentral id
  · obtain ⟨r, hapart, hoperation, -⟩ := step_apart hcentral hstep
    rw [hoperation]
    exact hapart.kept.configured

end Arinc615a.Host
