import Arinc615a.Commands.BatchOperations

/-!
# Events of an upload that has finished

Transfers under way, queued timer handlers and requests reach an operation also when its user has
gone on.  Here are the events that make it call its handler, and those that make it finish.
-/

open Reasoning

namespace Arinc615a.Commands

open Files Information Tftp Host

/-- An event that makes an upload call its handler. -/
def CallsHandler (lib : Library) (w : World) : Host.Event → Prop
  | .tftpRequest remote requestType filename _ =>
    requestType = .read ∧ w.operation.checkRequest filename remote = none
  | .deferred _ => True
  | .completed .initialisation _ _ => True
  | .completed (.status _) status data =>
    ¬(status = .successful ∧ receiveUploadStatus lib data = none)
  | .timerHandler result => result ≠ .operationAborted
  | _ => False

/-- The initialisation file accepts the operation. -/
def AcceptsOperation (lib : Library) (status : TransferStatus) (data : Bytes) : Prop :=
  status = .successful ∧ ∃ initFile, (InitializationFile.decode lib.raw {} data).object? =
    some initFile ∧ initFile.response.code = .operationAccepted

/-- The status codes of an operation in progress. -/
def InProgress (code : StatusCode) : Prop :=
  code = .operationAccepted ∨ code = .operationInProgress ∨
    code = .operationInProgressAdditionalInfo

/-- The status file leaves the operation in progress, or cannot be read. -/
def StaysInProgress (lib : Library) (status : TransferStatus) (data : Bytes) : Prop :=
  status = .successful ∧ ∀ received, receiveUploadStatus lib data = some received →
    InProgress received.status.code

/-- An event that makes an upload call `finished`. -/
def Finishes (lib : Library) : Host.Event → Prop
  | .completed .initialisation status data => ¬AcceptsOperation lib status data
  | .completed (.status _) status data => ¬StaysInProgress lib status data
  | .timerHandler result => result ≠ .operationAborted
  | _ => False

/-- Whether the handler is called, and whether the operation finishes. -/
structure Leads (out : List Output) (calls finishes : Prop) : Prop where
  calls : (∃ o ∈ out, forHandler o = true) ↔ calls
  finishes : (∃ o ∈ out, o.mark = .finish) ↔ finishes

namespace Leads

variable {out : List Output} {calls finishes : Prop}

theorem silent (h : ∀ o ∈ out, forHandler o = false) (hcalls : ¬calls) (hfinishes : ¬finishes) :
    Leads out calls finishes where
  calls := by
    refine iff_of_false ?_ hcalls
    rintro ⟨o, ho, hfor⟩
    rw [h o ho] at hfor
    cases hfor
  finishes := by
    refine iff_of_false ?_ hfinishes
    rintro ⟨o, ho, hmark⟩
    have hfor := h o ho
    cases o with
    | finished => cases hfor
    | _ => cases hmark

theorem finished (pre : List Output) {code : StatusCode} {description : Text} (hcalls : calls)
    (hfinishes : finishes) :
    Leads (pre ++ [.finished code description, .timerCancel, .serverStop]) calls finishes where
  calls := iff_of_true ⟨_, List.mem_append_right _ (List.mem_cons_self ..), rfl⟩ hcalls
  finishes := iff_of_true ⟨_, List.mem_append_right _ (List.mem_cons_self ..), rfl⟩ hfinishes

theorem called {o : Output} {rest : List Output} (ho : forHandler o = true)
    (hout : ∀ x ∈ o :: rest, x.mark ≠ .finish) (hcalls : calls) (hfinishes : ¬finishes) :
    Leads (o :: rest) calls finishes where
  calls := iff_of_true ⟨o, List.mem_cons_self .., ho⟩ hcalls
  finishes := iff_of_false (fun ⟨x, hx, hmark⟩ => hout x hx hmark) hfinishes

end Leads

variable (lib : Library) (op : Operation)

theorem leads_initialisationAnswered (initFile : InitializationFile) :
    Leads (.initialisationResponse initFile.response :: (op.initialisationAnswered initFile).2) True
      (initFile.response.code ≠ .operationAccepted) := by
  unfold Operation.initialisationAnswered
  cases hcode : initFile.response.code with
  | operationAccepted =>
    refine .called rfl ?_ trivial (not_not.mpr rfl)
    simp [Operation.triggerDlpTimeout, Operation.emit, Output.mark]
  | operationDenied | operationNotSupported | operationDeferred =>
    exact .finished [.initialisationResponse initFile.response] trivial (by simp)

theorem leads_initialisationFileCompleted (status : TransferStatus) (data : Bytes) :
    Leads (op.initialisationFileCompleted lib status data).2 True
      (¬AcceptsOperation lib status data) := by
  unfold Operation.initialisationFileCompleted
  dsimp only
  split
  next hfailed => exact .finished [] trivial fun haccepts => hfailed haccepts.1
  next hsuccessful =>
    have hstays : ¬(InitializationFile.decode lib.raw {} data).Overran :=
      Cuts.never lib.raw (InitializationFile.cuts_decode lib.raw)
        (InitializationFile.layout_covered lib.raw) {} data
    unfold AcceptsOperation
    generalize InitializationFile.decode lib.raw {} data = decoded at hstays ⊢
    cases decoded with
    | done _ initFile _ =>
      have hiff : ¬(status = .successful ∧ ∃ file, some initFile = some file ∧
          file.response.code = .operationAccepted) ↔
          initFile.response.code ≠ .operationAccepted := by
        simp [not_not.mp hsuccessful]
      have hleads := leads_initialisationAnswered { op with initialisationOperation := false }
        initFile
      exact ⟨hleads.calls, hleads.finishes.trans hiff.symm⟩
    | thrown failure _ =>
      cases failure with
      | exception _ => exact .finished [] trivial (by simp)
      | overrun => exact absurd trivial hstays

theorem leads_statusReceived {o : Output} (ho : forHandler o = true) (hmark : o.mark ≠ .finish)
    (status : Status) :
    Leads (o :: (Operation.statusReceived id op status).2) True (¬InProgress status.code) := by
  unfold Operation.statusReceived InProgress
  cases status.code with
  | operationAccepted | operationInProgress | operationInProgressAdditionalInfo =>
    refine .called ho ?_ trivial (by simp)
    simpa [Operation.triggerDlpTimeout, Operation.emit, Output.mark] using hmark
  | _ => exact .finished [o] trivial (by simp)

/-- The completion of a status file transfer that the upload has noted. -/
theorem leads_statusFileReceived (status : TransferStatus) (data : Bytes) :
    Leads (Operation.statusFileReceived (receiveUploadStatus lib) id op status data).2
      (¬(status = .successful ∧ receiveUploadStatus lib data = none))
      (¬StaysInProgress lib status data) := by
  unfold Operation.statusFileReceived StaysInProgress
  split
  next hfailed => exact .finished [] (fun h => hfailed h.1) fun h => hfailed h.1
  next hsuccessful =>
    have hsuccess : status = .successful := not_not.mp hsuccessful
    split
    next received hreceive =>
      have hcall : forHandler received.call = true ∧ received.call.mark ≠ .finish := by
        obtain ⟨file, -, rfl⟩ := Option.map_eq_some_iff.mp hreceive
        exact ⟨rfl, by simp [Output.mark]⟩
      have hleads := leads_statusReceived op hcall.1 hcall.2 received.status
      exact ⟨hleads.calls.trans (by simp [hreceive]),
        hleads.finishes.trans (by simp [hsuccess, hreceive])⟩
    next hnone =>
      exact .silent (List.forall_mem_nil _) (by simp [hsuccess, hnone]) (by simp [hsuccess, hnone])

theorem silent_statusFileRequest (remote : Endpoint) :
    ∀ o ∈ (op.statusFileRequest remote).2, forHandler o = false := by
  refine Operation.statusFileRequest_elim (P := fun r => ∀ o ∈ r.2, forHandler o = false)
    (fun _ => ?_) fun _ => List.forall_mem_singleton.mpr rfl
  simp [Operation.emit, Operation.triggerDlpTimeout, forHandler]

theorem leads_tftpRequest (hkind : op.kind = .upload) (remote : Endpoint)
    (requestType : RequestType) (filename : Text) (options : Arinc615aOptions) :
    Leads (op.tftpRequest remote requestType filename options).2
      (requestType = .read ∧ op.checkRequest filename remote = none) False := by
  unfold Operation.tftpRequest
  rw [hkind]
  dsimp only
  unfold UploadOperation.tftpRequest
  split
  next answer hanswer =>
    refine .silent ?_ (by simp [hanswer]) id
    rw [Operation.checkRequest_eq_some hanswer]
    exact List.forall_mem_singleton.mpr rfl
  next hchecked =>
    cases requestType with
    | read =>
      exact .called rfl (List.forall_mem_singleton.mpr (by simp [Output.mark])) ⟨rfl, hchecked⟩ id
    | write =>
      refine .silent ?_ (by simp) id
      dsimp only
      split
      · exact silent_statusFileRequest op remote
      · exact List.forall_mem_singleton.mpr rfl

theorem silent_requestCompleted (hkind : op.kind = .upload) (status : TransferStatus) :
    ∀ o ∈ (op.requestCompleted status).2, forHandler o = false := by
  rw [op.requestCompleted_of_kind (by simp [hkind])]
  split
  · unfold Operation.doAbort
    split
    · exact List.forall_mem_nil _
    · unfold Operation.abortInitialisation
      split
      · exact List.forall_mem_singleton.mpr rfl
      · exact List.forall_mem_nil _
  · exact List.forall_mem_nil _

/-- What an event of an upload leads to. -/
theorem leads_callback {w v : World} {event : Host.Event} {r : Host.Reaction} (hw : Tracks w [])
    (h : w.callback lib event = some (v, r)) :
    Leads r.2 (CallsHandler lib w event) (Finishes lib event) := by
  cases World.runs_of_callback h with
  | abort | terminate | send | throws => cases h
  | tftpRequest remote requestType filename options =>
    exact leads_tftpRequest w.operation hw.kind remote requestType filename options
  | deferred waitTime =>
    exact .called rfl (List.forall_mem_singleton.mpr (by simp [Output.mark])) trivial id
  | completed transfer status data loop hloop =>
    cases transfer with
    | initialisation => exact leads_initialisationFileCompleted lib w.operation status data
    | status id =>
      show Leads (w.operation.statusFileCompleted lib id status data).2 _ _
      rw [w.operation.statusFileCompleted_noted lib hw.kind (World.Tracked.remove hw.tracked hloop).1]
      exact leads_statusFileReceived lib _ status data
    | list checkValue =>
      show Leads (w.operation.listFileCompleted lib checkValue status data).2 _ _
      unfold Operation.listFileCompleted
      rw [hw.kind]
      exact .silent (List.forall_mem_nil _) id id
    | request => exact .silent (silent_requestCompleted w.operation hw.kind status) id id
  | timerElapses result => exact .silent (List.forall_mem_nil _) id id
  | timerHandler result =>
    cases result with
    | operationAborted =>
      exact .silent (List.forall_mem_nil _) (fun hne => hne rfl) fun hne => hne rfl
    | expired | error => exact .finished [] (by simp [CallsHandler]) (by simp [Finishes])

end Arinc615a.Commands
