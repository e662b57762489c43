import Arinc615a.Host.Aborts
import Arinc615a.Host.Calling

/-!
# When a host operation finishes once

`finished` informs the handler, cancels the timer and stops the server, and keeps no note of it.  What
can still disturb a finished operation is a call of `terminate`, a transfer that was under way, a
timer handler that was queued already, or the rest of a callback that was left when it finished.
-/

open Reasoning

namespace Arinc615a.Host

open Files Information Tftp

namespace World

variable {lib : Library} {w : World}

/-! ## What a callback does to the surroundings -/

theorem foldl_server {out : List Output} (hout : .serverStart ∉ out) (running : Bool) :
    out.foldl Output.server running = (running && decide (.serverStop ∉ out)) := by
  induction out generalizing running with
  | nil => simp
  | cons o out ih =>
    have ho : o ≠ .serverStart := fun h => hout (h ▸ List.mem_cons_self ..)
    have hrest : .serverStart ∉ out := fun h => hout (List.mem_cons_of_mem _ h)
    rw [List.foldl_cons, ih hrest]
    cases o with
    | serverStart => exact absurd rfl ho
    | _ => simp [Output.server]

theorem count_command (out : List Output) (transfer : Transfer) :
    (out.map Output.command).count (.launch transfer) = out.count (.transferStart transfer) := by
  induction out with
  | nil => rfl
  | cons o out ih =>
    rw [List.map_cons, List.count_cons, List.count_cons, ih]
    cases o <;> simp [Output.command]

/-! ## The invariant -/

/-- The operation has noted each status file transfer under way once, and will give none of their
numbers again. -/
structure Tracked (op : Operation) (transfers : List Transfer) : Prop where
  counted : ∀ id, transfers.count (.status id) = op.statusFileOperations.count id
  once : ∀ id, op.statusFileOperations.count id ≤ 1
  fresh : ∀ id, 0 < op.statusFileOperations.count id → id < op.nextStatusFileOperation

theorem Tracked.react (h : Tracked w.operation w.loop.pending) {callback : Operation → Reaction}
    (hnotes : Notes w.operation (callback w.operation)) :
    Tracked (w.react callback).1.operation (w.react callback).1.loop.pending := by
  show Tracked (callback w.operation).1
    (w.loop.performAll ((callback w.operation).2.map Output.command)).pending
  refine ⟨fun id => ?_, fun id => ?_, fun id hpos => ?_⟩
  · rw [EventLoop.count_pending_performAll, count_command, h.counted, hnotes.counted]
  all_goals
    have hcounted := hnotes.counted id
    have honce := h.once id
    have hnew := hnotes.once id
    have hfresh := h.fresh id
    have hnewFresh := hnotes.fresh id
    have hlater := hnotes.later
    omega

theorem tracked_ofOperation (kind : OperationType) (targetId : TargetId) (dlpTimeout : Nat)
    (portOption : Bool) :
    Tracked (ofOperation kind targetId dlpTimeout portOption).operation
      (ofOperation kind targetId dlpTimeout portOption).loop.pending :=
  ⟨fun _ => rfl, fun _ => Nat.zero_le _, fun _ h => absurd h (Nat.lt_irrefl 0)⟩

/-- Completing a transfer other than a status file leaves the notes as they are. -/
theorem Tracked.complete {transfer : Transfer} {loop : EventLoop Transfer}
    (h : Tracked w.operation w.loop.pending) (hloop : w.loop.complete transfer = some loop)
    (hne : ∀ id, transfer ≠ .status id) : Tracked w.operation loop.pending := by
  obtain ⟨-, hpending⟩ := EventLoop.complete_eq_some hloop
  refine ⟨fun id => ?_, h.once, h.fresh⟩
  rw [hpending, List.count_erase_of_ne (hne id).symm]
  exact h.counted id

/-- A status file transfer under way is noted once, and both are removed together. -/
theorem Tracked.remove {id : Nat} {loop : EventLoop Transfer}
    (h : Tracked w.operation w.loop.pending) (hloop : w.loop.complete (.status id) = some loop) :
    w.operation.statusFileOperations.count id = 1 ∧
      Tracked (w.operation.removeStatusFileOperation id).1 loop.pending := by
  obtain ⟨hmem, hpending⟩ := EventLoop.complete_eq_some hloop
  obtain ⟨hcounted, honce, hfresh⟩ := h
  -- it is under way, hence noted, and nothing is noted twice
  have hpos : 0 < w.loop.pending.count (.status id) := List.count_pos_iff.mpr hmem
  have hone : w.operation.statusFileOperations.count id = 1 := by
    have := hcounted id
    have := honce id
    omega
  have hremoved : ∀ id', (w.operation.statusFileOperations.filter (· ≠ id)).count id' =
      if id' = id then 0 else w.operation.statusFileOperations.count id' := by
    intro id'
    split
    case isTrue heq => exact List.count_eq_zero.mpr (by simp [heq])
    case isFalse hne => exact List.count_filter (by simpa using hne)
  refine ⟨hone, fun id' => ?_, fun id' => ?_, fun id' hpos' => ?_⟩
  · show loop.pending.count (.status id') =
      (w.operation.statusFileOperations.filter (· ≠ id)).count id'
    rw [hpending, hremoved, List.count_erase, hcounted]
    -- the other numbers keep their counts on both sides
    by_cases heq : id' = id
    · rw [heq, hone]
      simp
    · simp [heq, Ne.symm heq]
  · show (w.operation.statusFileOperations.filter (· ≠ id)).count id' ≤ 1
    rw [hremoved]
    split
    · exact Nat.zero_le _
    · exact honce id'
  · have hmem' := List.count_pos_iff.mp hpos'
    exact hfresh id' (List.count_pos_iff.mpr (List.mem_of_mem_filter hmem'))

end World

/-! ## What each part of a callback does -/

namespace Operation

variable (lib : Library) (op : Operation)

theorem behaves_finishedPart (guard : Guard) (status : StatusCode) (description : Text) :
    Behaves .finishing op (op.finishedPart guard status description).reaction :=
  .finish status description

theorem behaves_doTerminatePart (reason : AbortReason) :
    Behaves .finishing op (op.doTerminatePart reason).reaction := by
  rw [doTerminatePart_reaction]
  exact op.behaves_abortInitialisation.andThen_calm (.finish _ _)

theorem behaves_timerHandlerPart (errorCode : WaitResult) :
    Behaves (if errorCode = .operationAborted then .calm else .finishing) op
      (op.timerHandlerPart errorCode).reaction := by
  cases errorCode with
  | operationAborted => exact .still rfl rfl
  | expired | error => exact op.behaves_finishedPart _ _ _

theorem behaves_initialisationAnsweredPart (initFile : InitializationFile) :
    ∃ e, Behaves e op (op.initialisationAnsweredPart initFile).reaction ∧ e ≠ .calm := by
  unfold initialisationAnsweredPart
  cases initFile.response.code with
  | operationAccepted =>
    exact ⟨.busy, (behaves_triggerDlpTimeout _ _).set rfl rfl, by decide⟩
  | operationDenied | operationNotSupported | operationDeferred =>
    exact ⟨.finishing, op.behaves_finishedPart _ _ _, by decide⟩

/-- The initialisation file has been received, and can be decoded. -/
def InitialisationUsable (status : TransferStatus) (rawInitialisationFile : Bytes) : Prop :=
  status = .successful ∧
    ((InitializationFile.decode lib.raw {} rawInitialisationFile).object?).isSome = true

theorem behaves_initialisationFileCompletedPart (status : TransferStatus) (data : Bytes) :
    ∃ e, Behaves e op (op.initialisationFileCompletedPart lib status data).reaction ∧
      (e = .calm ↔ InitialisationUsable lib status data) := by
  unfold initialisationFileCompletedPart InitialisationUsable
  by_cases hstatus : status = .successful
  · rw [if_neg (not_not.mpr hstatus)]
    have hstays := initialisationFile_stays lib data
    cases hdecode : InitializationFile.decode lib.raw {} data with
    | done _ initFile _ =>
      have hcall : Behaves .calm op
          (emit { op with initialisationOperation := false }
            (.initialisationResponse initFile.response)) := Behaves.set (.neutral rfl rfl) rfl rfl
      exact ⟨.calm, hcall, by simp [hstatus]⟩
    | thrown failure _ =>
      cases failure with
      | exception =>
        exact ⟨.finishing, (Behaves.finish _ _).set rfl rfl, by simp⟩
      | overrun =>
        rw [hdecode] at hstays
        exact absurd trivial hstays
  · rw [if_pos hstatus]
    exact ⟨.finishing, (Behaves.finish _ _).set rfl rfl, by simp [hstatus]⟩

theorem behaves_statusReceivedPart (status : Information.Status) :
    ∃ e, Behaves e op (op.statusReceivedPart status).reaction ∧ e ≠ .calm := by
  have hnote : ∀ seconds, Behaves .busy op (op.noteStatus.triggerDlpTimeout seconds) := by
    intro seconds
    unfold noteStatus
    cases op.kind with
    | information => exact (behaves_triggerDlpTimeout _ seconds).set rfl rfl
    | upload | mediaDefinedDownload | operatorDefinedDownload =>
      exact behaves_triggerDlpTimeout _ seconds
  unfold statusReceivedPart
  cases status.code with
  | operationAccepted | operationInProgress | operationInProgressAdditionalInfo =>
    exact ⟨.busy, hnote _, by decide⟩
  | _ => exact ⟨.finishing, op.behaves_finishedPart _ _ _, by decide⟩

/-- A status file that is received and cannot be decoded is looked at no further. -/
def StatusUnread (status : TransferStatus) (rawStatusFile : Bytes) : Prop :=
  status = .successful ∧ receiveStatus lib op.kind rawStatusFile = none

theorem behaves_statusFileReceivedPart (status : TransferStatus) (data : Bytes) :
    ∃ e, Behaves e op (op.statusFileReceivedPart lib status data).reaction ∧
      (e = .calm ↔ op.StatusUnread lib status data) := by
  unfold statusFileReceivedPart StatusUnread
  by_cases hstatus : status = .successful
  · rw [if_neg (not_not.mpr hstatus)]
    cases hreceive : receiveStatus lib op.kind data with
    | none => exact ⟨.calm, .still rfl rfl, by simp [hstatus]⟩
    | some received =>
      obtain ⟨hplain, hmark⟩ := receiveStatus_call lib hreceive
      exact ⟨.busy, .activity hplain hmark, by simp⟩
  · rw [if_pos hstatus]
    exact ⟨.finishing, op.behaves_finishedPart _ _ _, by simp [hstatus]⟩

/-- The completion of a noted status file transfer, as seen from the operation without it. -/
theorem behaves_statusFileCompletedPart {id : Nat} (hid : op.statusFileOperations.count id = 1)
    (status : TransferStatus) (data : Bytes) :
    ∃ e, Behaves e (op.removeStatusFileOperation id).1
        (op.statusFileCompletedPart lib id status data).reaction ∧
      (e = .calm ↔ op.StatusUnread lib status data) := by
  have hone : (op.removeStatusFileOperation id).2 = 1 := hid
  -- the transfer is noted once, so the branch for unknown ones is never taken
  unfold statusFileCompletedPart
  simp only [hone, ne_eq, not_true_eq_false, if_false]
  exact behaves_statusFileReceivedPart lib (op.removeStatusFileOperation id).1 status data

theorem behaves_listFileFailedPart :
    Behaves (if op.waitForFinalStatus then .calm else .finishing) op
      op.listFileFailedPart.reaction := by
  unfold listFileFailedPart
  split
  · exact op.behaves_doAbort _
  · exact op.behaves_finishedPart _ _ _

theorem behaves_targetInformationPart :
    ∃ e, Behaves e op op.targetInformationPart.reaction ∧ e ≠ .calm := by
  unfold targetInformationPart
  split
  · exact ⟨.busy, op.behaves_triggerDlpTimeout _, by decide⟩
  · exact ⟨.finishing, op.behaves_finishedPart _ _ _, by decide⟩

/-- A list finishes an information operation at once if it cannot be used and no status has been
received. -/
def ListFinishes (status : TransferStatus) (rawListFile : Bytes) : Prop :=
  op.kind = .information ∧ op.listUnusable lib status rawListFile = true ∧
    op.waitForFinalStatus = false

theorem behaves_informationListFileCompletedPart (hkind : op.kind = .information)
    (checkValue : CheckValue) (status : TransferStatus) (data : Bytes) :
    ∃ e, Behaves e op (op.informationListFileCompletedPart lib checkValue status data).reaction ∧
      (e = .calm ↔ ¬op.ListFinishes lib status data) := by
  have hfailed : Behaves (if op.waitForFinalStatus then .calm else .finishing) op
      (listFileFailedPart { op with listFileOperation := false }).reaction :=
    (behaves_listFileFailedPart { op with listFileOperation := false }).set rfl rfl
  have hfinishes : op.ListFinishes lib status data ↔
      (status ≠ .successful ∨ ∃ exception object,
        LoadConfigurationListFile.decode lib.raw {} data = .thrown (.exception exception) object) ∧
      op.waitForFinalStatus = false := by
    unfold ListFinishes listUnusable
    rw [hkind]
    cases LoadConfigurationListFile.decode lib.raw {} data with
    | done => simp
    | thrown failure _ => cases failure <;> simp
  rw [hfinishes]
  unfold informationListFileCompletedPart
  dsimp only
  by_cases hstatus : status = .successful
  · rw [if_neg (not_not.mpr hstatus)]
    cases LoadConfigurationListFile.decode lib.raw {} data with
    | done _ listFile _ =>
      exact ⟨.calm, Behaves.set (.neutral rfl rfl) rfl rfl, by simp [hstatus]⟩
    | thrown failure _ =>
      cases failure with
      | exception => exact ⟨_, hfailed, by simp [hstatus]⟩
      | overrun => exact ⟨.calm, .still rfl rfl, by simp [hstatus]⟩
  · rw [if_pos hstatus]
    exact ⟨_, hfailed, by simp [hstatus]⟩

theorem behaves_operatorListFileCompletedPart (status : TransferStatus) (data : Bytes) :
    Behaves .calm op (op.operatorListFileCompletedPart lib status data).reaction := by
  unfold operatorListFileCompletedPart
  dsimp only
  split
  · exact (behaves_doAbort _ _).set rfl rfl
  · cases DownloadOperationListFile.decode lib.raw {} data with
    | done => exact Behaves.set (.neutral rfl rfl) rfl rfl
    | thrown failure _ =>
      cases failure with
      | exception => exact (behaves_doAbort _ _).set rfl rfl
      | overrun => exact .still rfl rfl

theorem behaves_listFileCompletedPart (checkValue : CheckValue) (status : TransferStatus)
    (data : Bytes) :
    ∃ e, Behaves e op (op.listFileCompletedPart lib checkValue status data).reaction ∧
      (e = .calm ↔ ¬op.ListFinishes lib status data) := by
  unfold listFileCompletedPart
  cases hkind : op.kind with
  | information => exact op.behaves_informationListFileCompletedPart lib hkind checkValue status data
  | operatorDefinedDownload =>
    exact ⟨.calm, op.behaves_operatorListFileCompletedPart lib status data,
      by simp [ListFinishes, hkind]⟩
  | upload | mediaDefinedDownload =>
    exact ⟨.calm, .still rfl rfl, by simp [ListFinishes, hkind]⟩

/-- A request for a status file is active if it is answered with a pending abort. -/
def AnswersAbort (remote : Endpoint) (requestType : RequestType) (filename : Text) : Prop :=
  op.RequestsStatus remote requestType filename ∧ op.abortReason ≠ .noAbort

theorem behaves_tftpRequest (remote : Endpoint) (requestType : RequestType) (filename : Text)
    (options : Arinc615aOptions) :
    ∃ e, Behaves e op (op.tftpRequest remote requestType filename options) ∧ e ≠ .finishing ∧
      (e = .calm ↔ ¬op.AnswersAbort remote requestType filename) := by
  unfold AnswersAbort
  cases hcheck : op.checkRequest filename remote with
  | some answer =>
    rw [tftpRequest_checked hcheck, checkRequest_eq_some hcheck]
    exact ⟨.calm, .neutral rfl rfl, by decide, by simp [RequestsStatus, hcheck]⟩
  | none =>
    have hread : Behaves .calm op (op, op.readAnswer remote requestType) := by
      unfold readAnswer
      split
      · exact .neutral rfl rfl
      · exact .still rfl rfl
    rw [tftpRequest_unchecked hcheck]
    have hstatus := handling_eq_status_iff op.kind requestType
      (ProtocolFilename.ofText filename).fileTypeV options
    have hrequests : op.RequestsStatus remote requestType filename ↔ handling op.kind requestType
        (ProtocolFilename.ofText filename).fileTypeV options = .status := by
      rw [hstatus]
      exact and_iff_right hcheck
    rw [hrequests]
    -- the answer to a read request does not change how the file is handled
    cases handling op.kind requestType (ProtocolFilename.ofText filename).fileTypeV options with
    | error errorCode errorMessage =>
      exact ⟨.calm, hread.andThen_calm (.neutral rfl rfl), by decide, by simp⟩
    | file => exact ⟨.calm, hread.andThen_calm (.neutral rfl rfl), by decide, by simp⟩
    | status =>
      refine ⟨_, hread.andThen_calm (op.behaves_statusFileRequest remote), ?_, ?_⟩
      · split <;> decide
      · by_cases hnone : op.abortReason = .noAbort <;> simp [hnone]
    | list checkValue =>
      exact ⟨.calm, hread.andThen_calm (op.behaves_listTransfer checkValue), by decide, by simp⟩

/-- What is left of a callback neither finishes nor is active, if the call is left so. -/
def RestHarmless : Rest → Exit → Prop
  | .initialisationResponse _, .returned | .initialisationResponse _, .arinc615aException => False
  | .status _, .returned => False
  | .targetInformation, .returned => False
  | .targetInformation, .arinc615aException => op.waitForFinalStatus = true
  | .finished .initialisation, .arinc615aException => False
  | .finished .list, .arinc615aException => op.waitForFinalStatus = true
  | .unknownStatus status rawStatusFile, .returned => op.StatusUnread lib status rawStatusFile
  | _, _ => True

theorem behaves_leave (rest : Rest) (exit : Exit) :
    ∃ e, Behaves e op (op.leave lib rest exit).reaction ∧
      (e = .calm ↔ op.RestHarmless lib rest exit) := by
  have hfinish : ∀ status description, ∃ e,
      Behaves e op (op.finishedPart .unguarded status description).reaction ∧
        (e = .calm ↔ False) :=
    fun status description => ⟨.finishing, op.behaves_finishedPart _ _ _, by simp⟩
  have hfailed : ∃ e, Behaves e op op.listFileFailedPart.reaction ∧
      (e = .calm ↔ op.waitForFinalStatus = true) :=
    ⟨_, op.behaves_listFileFailedPart, by simp⟩
  have hstill : ∃ e, Behaves e op (op, []) ∧ (e = .calm ↔ True) :=
    ⟨.calm, .still rfl rfl, by simp⟩
  have hstop : Behaves .calm op (op, [.timerCancel, .serverStop]) :=
    show Behaves .calm op ((op.emit .timerCancel).andThen fun op => op.emit .serverStop) from
    Behaves.andThen_calm (.neutral rfl rfl) (.neutral rfl rfl)
  cases rest with
  | initialisationResponse initFile =>
    cases exit with
    | returned =>
      obtain ⟨e, hbehaves, he⟩ := op.behaves_initialisationAnsweredPart initFile
      exact ⟨e, hbehaves, iff_of_false he id⟩
    | arinc615aException => exact hfinish _ _
    | otherException => exact hstill
  | status status =>
    cases exit with
    | returned =>
      obtain ⟨e, hbehaves, he⟩ := op.behaves_statusReceivedPart status
      exact ⟨e, hbehaves, iff_of_false he id⟩
    | arinc615aException | otherException => exact hstill
  | targetInformation =>
    cases exit with
    | returned =>
      obtain ⟨e, hbehaves, he⟩ := op.behaves_targetInformationPart
      exact ⟨e, hbehaves, iff_of_false he id⟩
    | arinc615aException => exact hfailed
    | otherException => exact hstill
  | downloadingList =>
    cases exit with
    | arinc615aException => exact ⟨.calm, op.behaves_doAbort _, iff_of_true rfl trivial⟩
    | returned | otherException => exact hstill
  | finished guard =>
    cases exit with
    | returned => exact ⟨.calm, hstop, by cases guard <;> simp [RestHarmless]⟩
    | arinc615aException =>
      cases guard with
      | initialisation => exact hfinish _ _
      | list => exact hfailed
      | unguarded | status => exact hstill
    | otherException => exact ⟨.calm, .still rfl rfl, by cases guard <;> simp [RestHarmless]⟩
  | unknownStatus status data =>
    cases exit with
    | returned =>
      obtain ⟨e, hbehaves, he⟩ := op.behaves_statusFileReceivedPart lib status data
      have hboth : Behaves e op (Reaction.andThen (op, [.timerCancel, .serverStop]) fun op =>
          (op.statusFileReceivedPart lib status data).reaction) := hstop.andThen_calm hbehaves
      exact ⟨e, hboth, he⟩
    | arinc615aException | otherException => exact hstill

/-- An event neither finishes a finished operation again nor is active. -/
def EventHarmless : Event → Prop
  | .terminate _ => False
  | .timerHandler result => result = .operationAborted
  | .tftpRequest remote requestType filename _ => ¬op.AnswersAbort remote requestType filename
  | .completed .initialisation status data => InitialisationUsable lib status data
  | .completed (.status _) status data => op.StatusUnread lib status data
  | .completed (.list _) status data => ¬op.ListFinishes lib status data
  | _ => True

end Operation

namespace World

variable {lib : Library} {w : World}

/-- The first part of what an event runs, seen from an operation that notes the transfers which are
then under way. -/
theorem behaves_part (htracked : Tracked w.operation w.loop.pending) {event : Event}
    {loop : EventLoop Transfer} {part : Part} (harrive : w.arrive event = some loop)
    (hpart : event.part lib w.operation = some part) :
    ∃ op e, Tracked op loop.pending ∧ Behaves e op part.reaction ∧
      (e = .calm ↔ w.operation.EventHarmless lib event) := by
  cases event with
  | start result =>
    cases harrive
    cases hpart
    exact ⟨w.operation, .calm, htracked, w.operation.behaves_start result, iff_of_true rfl trivial⟩
  | abort reason =>
    cases harrive
    cases hpart
    exact ⟨w.operation, .calm, htracked, w.operation.behaves_doAbort reason,
      iff_of_true rfl trivial⟩
  | terminate reason =>
    cases harrive
    cases hpart
    exact ⟨w.operation, .finishing, htracked, w.operation.behaves_doTerminatePart reason,
      iff_of_false (by decide) id⟩
  | send request =>
    cases harrive
    obtain ⟨r, hsend, rfl⟩ := Option.map_eq_some_iff.mp hpart
    refine ⟨w.operation, .calm, htracked, ?_, iff_of_true rfl trivial⟩
    unfold Operation.sendReaction Operation.caught at hsend
    split at hsend
    · cases hsend
    · cases hsend
      exact .still rfl rfl
    case h_3 reaction hreaction =>
      cases hsend
      exact Operation.behaves_send lib hreaction
  | tftpRequest remote requestType filename options =>
    obtain ⟨-, heq⟩ := Option.ite_none_right_eq_some.mp harrive
    cases heq
    cases hpart
    obtain ⟨e, hbehaves, -, he⟩ :=
      w.operation.behaves_tftpRequest remote requestType filename options
    exact ⟨w.operation, e, htracked, hbehaves, he⟩
  | deferred waitTime =>
    obtain ⟨-, heq⟩ := Option.ite_none_right_eq_some.mp harrive
    cases heq
    cases hpart
    exact ⟨w.operation, .calm, htracked, .neutral rfl rfl, iff_of_true rfl trivial⟩
  | completed transfer status data =>
    cases transfer with
    | initialisation =>
      cases hpart
      obtain ⟨e, hbehaves, he⟩ :=
        w.operation.behaves_initialisationFileCompletedPart lib status data
      exact ⟨w.operation, e, htracked.complete harrive (by simp), hbehaves, he⟩
    | status id =>
      cases hpart
      -- the transfer is not under way any more, and no longer noted
      obtain ⟨hone, hremoved⟩ := htracked.remove harrive
      obtain ⟨e, hbehaves, he⟩ :=
        w.operation.behaves_statusFileCompletedPart lib hone status data
      exact ⟨_, e, hremoved, hbehaves, he⟩
    | list checkValue =>
      cases hpart
      obtain ⟨e, hbehaves, he⟩ :=
        w.operation.behaves_listFileCompletedPart lib checkValue status data
      exact ⟨w.operation, e, htracked.complete harrive (by simp), hbehaves, he⟩
    | request =>
      cases hpart
      exact ⟨w.operation, .calm, htracked.complete harrive (by simp),
        w.operation.behaves_requestCompleted status, iff_of_true rfl trivial⟩
  | timerElapses result =>
    cases hpart
    refine ⟨w.operation, .calm, ?_, .still rfl rfl, iff_of_true rfl trivial⟩
    rw [EventLoop.elapse_eq_some harrive]
    exact htracked
  | timerHandler result =>
    cases hpart
    refine ⟨w.operation, _, ?_, w.operation.behaves_timerHandlerPart result, ?_⟩
    · rw [EventLoop.take_eq_some harrive]
      exact htracked
    · by_cases haborted : result = .operationAborted <;>
        simp [haborted, Operation.EventHarmless]

theorem reactPart_spec {op : Operation} {e : Mark.Effect} {part : Part}
    (htracked : Tracked op w.loop.pending) (h : Behaves e op part.reaction) :
    Tracked (w.reactPart part).state.operation (w.reactPart part).state.loop.pending ∧
      Mark.HasEffect Observation.mark e (w.reactPart part).out := by
  let v : World := { w with operation := op }
  have hreact : Tracked (v.react fun _ => part.reaction).1.operation
      (v.react fun _ => part.reaction).1.loop.pending := Tracked.react htracked h.notes
  exact ⟨hreact, h.effect.map Observation.call fun _ => rfl⟩

/-- Whether a step keeps still while a finish holds. -/
def Harmless (lib : Library) (s : Suspended World Rest) : CallEvent Event Exit → Prop
  | .event event => s.state.operation.EventHarmless lib event
  | .leave exit => ∀ rest ∈ s.rests.head?, s.state.operation.RestHarmless lib rest exit

/-- Whatever runs keeps the notes, and is quiet while a finish holds exactly when it is harmless. -/
theorem runs_spec {s : Suspended World Rest} {event : CallEvent Event Exit}
    {part : CallPart World Rest Observation} {rests : List Rest}
    (htracked : Tracked s.state.operation s.state.loop.pending)
    (hruns : (calls lib).Runs s event part rests) :
    Tracked part.state.operation part.state.loop.pending ∧
      Mark.Quiet Observation.mark false part.out ∧
      (Mark.Quiet Observation.mark true part.out ↔ Harmless lib s event) := by
  cases hruns with
  | event event part henter =>
    obtain ⟨loop, harrive, henter⟩ := Option.bind_eq_some_iff.mp henter
    obtain ⟨p, hpart, henter⟩ := Option.map_eq_some_iff.mp henter
    cases henter
    obtain ⟨op, e, hop, hbehaves, he⟩ := behaves_part htracked harrive hpart
    obtain ⟨hnext, heffect⟩ :=
      reactPart_spec (w := { s.state with loop := loop }) hop hbehaves
    refine ⟨hnext, ?_⟩
    cases event with
    | start result =>
      -- a start opens what was closed
      exact ⟨⟨by simp [Mark.Allowed], heffect.quiet⟩,
        iff_of_true ⟨by simp [Mark.Allowed, Observation.mark], heffect.quiet⟩ trivial⟩
    | _ => exact ⟨heffect.quiet, heffect.calm.trans he⟩
  | leave exit rest rests hrests =>
    obtain ⟨e, hbehaves, he⟩ := s.state.operation.behaves_leave lib rest exit
    obtain ⟨hnext, heffect⟩ := reactPart_spec htracked hbehaves
    refine ⟨hnext, heffect.quiet, heffect.calm.trans (he.trans ?_)⟩
    simp [Harmless, hrests]

/-- Every step keeps the notes. -/
theorem tracked_step {w' : World} {event : Event} {out : List Observation}
    (htracked : Tracked w.operation w.loop.pending) (hstep : w.step lib event = some (w', out)) :
    Tracked w'.operation w'.loop.pending := by
  have hrun : (system lib).run w [event] = some (w', out ++ []) :=
    (system lib).run_cons_of_step hstep rfl
  obtain ⟨returns, -, hcalls⟩ := callSystem_exists_run hrun
  refine Calls.run_invariant (fun w => Tracked w.operation w.loop.pending) ?_ ?_ htracked hcalls
  · intro w event part hw henter
    exact (runs_spec (s := { state := w }) hw (.event event part henter (.inl rfl))).1
  · intro w rest exit hw
    exact (runs_spec (s := { state := w, rests := [rest] }) hw (.leave exit rest [] rfl)).1

end World

open World

theorem finishSteps (lib : Library) :
    (callSystem lib).FinishSteps Observation.mark
      (fun s _ => Tracked s.state.operation s.state.loop.pending) (Harmless lib) where
  opened s event s' out hs hstep := by
    obtain ⟨part, rests, hruns, hsuspend⟩ := Calls.step_cases hstep
    cases hsuspend
    exact (runs_spec hs hruns).2.1
  closed s event s' out hs hstep := by
    obtain ⟨part, rests, hruns, hsuspend⟩ := Calls.step_cases hstep
    cases hsuspend
    exact (runs_spec hs hruns).2.2
  inv s closed event s' out hs hstep := by
    obtain ⟨part, rests, hruns, hsuspend⟩ := Calls.step_cases hstep
    cases hsuspend
    exact (runs_spec hs hruns).1

theorem tracked_run {lib : Library} {kind : OperationType} {targetId : TargetId} {dlpTimeout : Nat}
    {portOption : Bool} {events : List (CallEvent Event Exit)} {s : Suspended World Rest}
    {out : List Observation}
    (hreached : (callSystem lib).run
      { state := ofOperation kind targetId dlpTimeout portOption } events = some (s, out)) :
    Tracked s.state.operation s.state.loop.pending :=
  (callSystem lib).run_invariant
    (fun s event s' out hs hstep => (finishSteps lib).inv s false event s' out hs hstep)
    (tracked_ofOperation kind targetId dlpTimeout portOption) hreached

/-- From every state a host operation can reach, after a start, and with whatever calls the user
makes from inside the calls of the handler: `finished` is called once, and no timer is armed and no
status delivered behind it, exactly when each event that comes behind it, and the rest of each
callback whose call is left behind it, is harmless. -/
theorem hostOperation_finishOnce_iff (lib : Library) {kind : OperationType} {targetId : TargetId}
    {dlpTimeout : Nat} {portOption : Bool} {history events : List (CallEvent Event Exit)}
    {result : Operation.StartResult} {s s' : Suspended World Rest}
    {before out : List Observation}
    (hreached : (callSystem lib).run
      { state := ofOperation kind targetId dlpTimeout portOption } history = some (s, before))
    (hrun : (callSystem lib).run s (.event (.start result) :: events) = some (s', out)) :
    Mark.FinishOnce Observation.mark out ↔
      (callSystem lib).HarmlessRun Observation.mark (Harmless lib) s
        (.event (.start result) :: events) :=
  (finishSteps lib).finishOnce_run_iff (tracked_run hreached) hrun

/-- The transfer of a status file breaks down, and the user aborts the operation from inside the
call of `finished`. -/
theorem hostOperation_finishOnce_aborted :
    let lib : Library := { raw := .bigEndian, generateCheckValue := fun _ _ => {} }
    let new : Suspended World Rest :=
      { state := ofOperation .upload (.ofText (text "ABCD_1")) 10 false }
    let events : List (CallEvent Event Exit) :=
      [.event (.start .started),
        .event (.completed .initialisation .successful [0, 0, 0, 9, 0x41, 0x34, 0, 1, 0]),
        .leave .returned,
        .event (.tftpRequest ⟨0, 0⟩ .write (text "ABCD_1.LUS") {}),
        .event (.completed (.status 0) .communicationError []), .event (.abort .operator),
        .leave .returned]
    ∃ s' out, (callSystem lib).run new events = some (s', out) ∧
      Mark.FinishOnce Observation.mark out ∧
      (callSystem lib).HarmlessRun Observation.mark (Harmless lib) new events := by
  intro lib new events
  have hmarks : ((callSystem lib).run new events).map (fun r => r.2.map Observation.mark) =
      some [.start, .neutral, .neutral, .neutral, .neutral, .activity, .neutral, .finish, .neutral,
        .neutral] := by
    decide +kernel
  obtain ⟨s', out, hrun, hiff⟩ := Reactive.exists_run_finishOnce_iff hmarks
  have honce : Mark.FinishOnce Observation.mark out := hiff.mpr (by decide)
  have hreached : (callSystem lib).run new [] = some (new, []) := rfl
  exact ⟨s', out, hrun, honce, (hostOperation_finishOnce_iff lib hreached hrun).mp honce⟩

/-- Two status files of an upload are under way when both transfers break down: `finished` is
called for each. -/
theorem hostUpload_finishes_twice :
    ∃ s' out,
      (callSystem { raw := .bigEndian, generateCheckValue := fun _ _ => {} }).run
          { state := ofOperation .upload (.ofText (text "ABCD_1")) 10 false }
          [.event (.start .started),
            .event (.completed .initialisation .successful [0, 0, 0, 9, 0x41, 0x34, 0, 1, 0]),
            .leave .returned,
            .event (.tftpRequest ⟨0, 0⟩ .write (text "ABCD_1.LUS") {}),
            .event (.tftpRequest ⟨0, 0⟩ .write (text "ABCD_1.LUS") {}),
            .event (.completed (.status 0) .communicationError []), .leave .returned,
            .event (.completed (.status 1) .communicationError []), .leave .returned] =
          some (s', out) ∧
        ¬Mark.FinishOnce Observation.mark out := by
  have hmarks : ((callSystem { raw := .bigEndian, generateCheckValue := fun _ _ => {} }).run
      { state := ofOperation .upload (.ofText (text "ABCD_1")) 10 false }
      [.event (.start .started),
        .event (.completed .initialisation .successful [0, 0, 0, 9, 0x41, 0x34, 0, 1, 0]),
        .leave .returned,
        .event (.tftpRequest ⟨0, 0⟩ .write (text "ABCD_1.LUS") {}),
        .event (.tftpRequest ⟨0, 0⟩ .write (text "ABCD_1.LUS") {}),
        .event (.completed (.status 0) .communicationError []), .leave .returned,
        .event (.completed (.status 1) .communicationError []), .leave .returned]).map
        (·.2.map Observation.mark) =
      some [.start, .neutral, .neutral, .neutral, .neutral, .activity, .neutral, .neutral,
        .finish, .neutral, .neutral, .finish, .neutral, .neutral] := by
    decide +kernel
  exact Reactive.exists_run_not_finishOnce hmarks (by decide)

end Arinc615a.Host
