import Arinc615a.Host.Calling
import Arinc615a.Host.Frame

/-!
# Operations that cannot be told apart

Two operations resemble each other if they have the same members, as far as operations of their kind
look at them, and count their status file transfers from different numbers.  All callbacks keep the
resemblance, and make the same calls up to these numbers.
-/

open Reasoning

namespace Arinc615a.Host

open Files Information Tftp

/-- The transfer of an operation whose status files are counted from another number. -/
def Transfer.shift (offset : Nat) : Transfer → Transfer
  | .status id => .status (id + offset)
  | transfer => transfer

def Output.shift (offset : Nat) : Output → Output
  | .gracefulAbort transfer errorMessage => .gracefulAbort (transfer.shift offset) errorMessage
  | .transferStart transfer => .transferStart (transfer.shift offset)
  | output => output

/-- What `start` leaves as it is, apart from the initialisation.  Members that no operation of the
kind looks at may differ, and so may status file operations with smaller numbers. -/
structure Alike (offset : Nat) (op op' : Operation) : Prop where
  kind : op'.kind = op.kind
  targetId : op'.targetId = op.targetId
  dlpTimeout : op'.dlpTimeout = op.dlpTimeout
  abortReason : op'.abortReason = op.abortReason
  /-- The information operation sends no file with a version. -/
  protocolVersion : op.kind ≠ .information → op'.protocolVersion = op.protocolVersion
  listFileOperation : op.kind = .information ∨ op.kind = .operatorDefinedDownload →
    op'.listFileOperation = op.listFileOperation
  next : op'.nextStatusFileOperation = op.nextStatusFileOperation + offset
  counted : ∀ id, op'.statusFileOperations.count (id + offset) = op.statusFileOperations.count id

structure Resembles (offset : Nat) (op op' : Operation) : Prop extends Alike offset op op' where
  initialisationOperation : op'.initialisationOperation = op.initialisationOperation
  waitForFinalStatus : op.kind = .information → op'.waitForFinalStatus = op.waitForFinalStatus
  sent : op.kind ≠ .information → op'.sent = op.sent

/-- Two callbacks that lead to resembling operations by the same calls. -/
structure Mirrors (offset : Nat) (r r' : Reaction) : Prop where
  resembles : Resembles offset r.1 r'.1
  calls : r'.2 = r.2.map (Output.shift offset)

namespace Mirrors

variable {offset : Nat} {op op' : Operation} {r r' : Reaction}

theorem still (h : Resembles offset op op') : Mirrors offset (op, []) (op', []) := ⟨h, rfl⟩

theorem emit (h : Resembles offset op op') {o : Output} (ho : o.shift offset = o) :
    Mirrors offset (op.emit o) (op'.emit o) :=
  ⟨h, by rw [Operation.emit, Operation.emit, List.map_singleton, ho]⟩

theorem andThen {f f' : Operation → Reaction} (h : Mirrors offset r r')
    (hf : Mirrors offset (f r.1) (f' r'.1)) : Mirrors offset (r.andThen f) (r'.andThen f') := by
  refine ⟨hf.resembles, ?_⟩
  rw [Reaction.andThen, Reaction.andThen, List.map_append, h.calls, hf.calls]

end Mirrors

/-- Only an information operation waits for `targetInformation`, and finishes behind it. -/
def Rest.Fits (kind : OperationType) : Rest → Prop
  | .targetInformation | .finished .list => kind = .information
  | _ => True

/-- Two parts that do so, and leave the same to be done behind a call. -/
structure MirrorsPart (offset : Nat) (part part' : Part) : Prop where
  reaction : Mirrors offset part.reaction part'.reaction
  rest : part'.rest = part.rest
  fits : ∀ rest ∈ part.rest, rest.Fits part.state.kind

namespace MirrorsPart

variable {offset : Nat} {op op' : Operation}

theorem part {r r' : Reaction} (h : Mirrors offset r r') : MirrorsPart offset r.part r'.part :=
  ⟨h, rfl, fun _ hrest => nomatch hrest⟩

theorem still (h : Resembles offset op op') :
    MirrorsPart offset { state := op, out := [] } { state := op', out := [] } :=
  ⟨.still h, rfl, fun _ hrest => nomatch hrest⟩

theorem calling (h : Resembles offset op op') {o : Output} (ho : o.shift offset = o) {rest : Rest}
    (hfits : rest.Fits op.kind) : MirrorsPart offset (op.calling o rest) (op'.calling o rest) :=
  ⟨.emit h ho, rfl, fun _ hrest => Option.some.inj hrest ▸ hfits⟩

theorem prepend {part part' : Part} (h : MirrorsPart offset part part') {out : List Output}
    (hout : out.map (Output.shift offset) = out) :
    MirrorsPart offset { part with out := out ++ part.out }
      { part' with out := out ++ part'.out } := by
  refine ⟨⟨h.reaction.resembles, ?_⟩, h.rest, h.fits⟩
  show out ++ part'.out = (out ++ part.out).map (Output.shift offset)
  rw [List.map_append, hout]
  exact congrArg (out ++ ·) h.reaction.calls

end MirrorsPart

namespace Resembles

variable {lib : Library} {offset : Nat} {op op' : Operation} (h : Resembles offset op op')

include h

theorem finishedPart {guard : Guard} (hfits : (Rest.finished guard).Fits op.kind)
    (status : StatusCode) (description : Text) :
    MirrorsPart offset (op.finishedPart guard status description)
      (op'.finishedPart guard status description) :=
  .calling h rfl hfits

theorem abortInitialisation : Mirrors offset op.abortInitialisation op'.abortInitialisation := by
  unfold Operation.abortInitialisation
  rw [h.initialisationOperation]
  split
  · exact .emit h rfl
  · exact .still h

theorem doAbort (reason : AbortReason) :
    Mirrors offset (op.doAbort reason) (op'.doAbort reason) := by
  unfold Operation.doAbort
  rw [h.abortReason]
  split
  · exact .still h
  · exact abortInitialisation { h with abortReason := rfl }

theorem doTerminatePart (reason : AbortReason) :
    MirrorsPart offset (op.doTerminatePart reason) (op'.doTerminatePart reason) := by
  have hreaction : Mirrors offset (op.doTerminatePart reason).reaction
      (op'.doTerminatePart reason).reaction := by
    rw [Operation.doTerminatePart_reaction, Operation.doTerminatePart_reaction]
    exact h.abortInitialisation.andThen (.emit h.abortInitialisation.resembles rfl)
  exact ⟨hreaction, rfl, fun _ hrest => Option.some.inj hrest ▸ trivial⟩

theorem triggerDlpTimeout (exceptionTime : Nat) :
    Mirrors offset (op.triggerDlpTimeout exceptionTime) (op'.triggerDlpTimeout exceptionTime) := by
  unfold Operation.triggerDlpTimeout
  rw [h.dlpTimeout]
  exact .emit h rfl

theorem timerHandlerPart (errorCode : WaitResult) :
    MirrorsPart offset (op.timerHandlerPart errorCode) (op'.timerHandlerPart errorCode) := by
  cases errorCode with
  | operationAborted => exact .still h
  | expired | error => exact h.finishedPart (by trivial) _ _

theorem initialisationAnsweredPart (initFile : InitializationFile) :
    MirrorsPart offset (op.initialisationAnsweredPart initFile)
      (op'.initialisationAnsweredPart initFile) := by
  have hversion : Resembles offset { op with protocolVersion := initFile.protocolVersion }
      { op' with protocolVersion := initFile.protocolVersion } :=
    { h with protocolVersion := fun _ => rfl }
  unfold Operation.initialisationAnsweredPart
  cases initFile.response.code with
  | operationAccepted => exact .part (hversion.triggerDlpTimeout 0)
  | operationDenied | operationNotSupported | operationDeferred => exact h.finishedPart (by trivial) _ _

theorem initialisationFileCompletedPart (status : TransferStatus) (data : Bytes) :
    MirrorsPart offset (op.initialisationFileCompletedPart lib status data)
      (op'.initialisationFileCompletedPart lib status data) := by
  have hreset : Resembles offset { op with initialisationOperation := false }
      { op' with initialisationOperation := false } := { h with initialisationOperation := rfl }
  unfold Operation.initialisationFileCompletedPart
  split
  · exact hreset.finishedPart (by trivial) _ _
  · split
    · exact .calling hreset rfl (by trivial)
    · exact hreset.finishedPart (by trivial) _ _
    · exact .still hreset

/-! ### Status files -/

theorem statusFileRequest (remote : Endpoint) :
    Mirrors offset (op.statusFileRequest remote) (op'.statusFileRequest remote) := by
  unfold Operation.statusFileRequest Operation.isAborted
  by_cases hnone : op.abortReason = .noAbort
  · rw [if_pos hnone, if_pos (h.abortReason.trans hnone)]
    refine ⟨{ h with next := ?_, counted := fun id => ?_ }, ?_⟩
    · show op'.nextStatusFileOperation + 1 = op.nextStatusFileOperation + 1 + offset
      rw [h.next]
      omega
    · show (op'.nextStatusFileOperation :: op'.statusFileOperations).count (id + offset) =
        (op.nextStatusFileOperation :: op.statusFileOperations).count id
      -- the new numbers correspond, and so do all others
      simp only [List.count_cons, h.next, h.counted, beq_iff_eq, Nat.add_right_cancel_iff]
    · rw [h.next]
      rfl
  · rw [h.abortReason, if_neg hnone, if_neg hnone]
    have hcleared : Resembles offset { op with abortReason := .noAbort }
        { op' with abortReason := .noAbort } := { h with abortReason := rfl }
    refine Mirrors.andThen (.emit h rfl) ?_
    exact hcleared.triggerDlpTimeout 0

theorem removeStatusFileOperation (operation : Nat) :
    Resembles offset (op.removeStatusFileOperation operation).1
        (op'.removeStatusFileOperation (operation + offset)).1 ∧
      (op'.removeStatusFileOperation (operation + offset)).2 =
        (op.removeStatusFileOperation operation).2 := by
  refine ⟨{ h with counted := fun id => ?_ }, h.counted operation⟩
  show (op'.statusFileOperations.filter (· ≠ operation + offset)).count (id + offset) =
    (op.statusFileOperations.filter (· ≠ operation)).count id
  by_cases hid : id = operation
  · subst hid
    rw [List.count_eq_zero.mpr (by simp), List.count_eq_zero.mpr (by simp)]
  · rw [List.count_filter (by simpa using hid), List.count_filter (by simpa using hid)]
    exact h.counted id

theorem noteStatus : Resembles offset op.noteStatus op'.noteStatus := by
  by_cases hkind : op.kind = .information
  · rw [← Operation.noteStatus_information hkind,
      ← Operation.noteStatus_information (h.kind.trans hkind)]
    exact { h with waitForFinalStatus := fun _ => rfl }
  · rw [Operation.noteStatus_other hkind, Operation.noteStatus_other (h.kind ▸ hkind)]
    exact h

theorem statusReceivedPart (status : Information.Status) :
    MirrorsPart offset (op.statusReceivedPart status) (op'.statusReceivedPart status) := by
  unfold Operation.statusReceivedPart
  cases status.code with
  | operationAccepted | operationInProgress | operationInProgressAdditionalInfo =>
    exact .part (h.noteStatus.triggerDlpTimeout _)
  | _ => exact h.finishedPart (by trivial) _ _

omit h in
theorem receiveStatus_shift {kind : OperationType} {data : Bytes} {received : ReceivedStatus}
    (hreceived : Operation.receiveStatus lib kind data = some received) :
    received.call.shift offset = received.call := by
  cases kind with
  | information | upload | mediaDefinedDownload | operatorDefinedDownload =>
    obtain ⟨file, -, rfl⟩ := Option.map_eq_some_iff.mp hreceived
    rfl

theorem statusFileReceivedPart (status : TransferStatus) (data : Bytes) :
    MirrorsPart offset (op.statusFileReceivedPart lib status data)
      (op'.statusFileReceivedPart lib status data) := by
  unfold Operation.statusFileReceivedPart
  rw [h.kind]
  split
  · exact h.finishedPart (by trivial) _ _
  · split
    case h_1 received hreceived => exact .calling h (receiveStatus_shift hreceived) (by trivial)
    case h_2 => exact .still h

theorem statusFileCompletedPart (operation : Nat) (status : TransferStatus) (data : Bytes) :
    MirrorsPart offset (op.statusFileCompletedPart lib operation status data)
      (op'.statusFileCompletedPart lib (operation + offset) status data) := by
  obtain ⟨hremoved, hcount⟩ := h.removeStatusFileOperation operation
  unfold Operation.statusFileCompletedPart
  dsimp only
  rw [hcount, hremoved.kind]
  split
  · refine .calling hremoved rfl ?_
    cases (op.removeStatusFileOperation operation).1.kind <;> trivial
  · exact hremoved.statusFileReceivedPart status data

/-! ### Lists -/

theorem listFileFailedPart (hkind : op.kind = .information) :
    MirrorsPart offset op.listFileFailedPart op'.listFileFailedPart := by
  unfold Operation.listFileFailedPart
  rw [h.waitForFinalStatus hkind]
  split
  · exact .part (h.doAbort _)
  · exact h.finishedPart (by trivial) _ _

theorem targetInformationPart (hkind : op.kind = .information) :
    MirrorsPart offset op.targetInformationPart op'.targetInformationPart := by
  unfold Operation.targetInformationPart
  rw [h.waitForFinalStatus hkind]
  split
  · exact .part (h.triggerDlpTimeout 0)
  · have hfits : (Rest.finished .list).Fits op.kind := hkind
    exact h.finishedPart hfits _ _

theorem listFileCompletedPart (checkValue : CheckValue) (status : TransferStatus)
    (data : Bytes) :
    MirrorsPart offset (op.listFileCompletedPart lib checkValue status data)
      (op'.listFileCompletedPart lib checkValue status data) := by
  have hreset : Resembles offset { op with listFileOperation := false }
      { op' with listFileOperation := false } := { h with listFileOperation := fun _ => rfl }
  unfold Operation.listFileCompletedPart
  rw [h.kind]
  cases hkind : op.kind with
  | information =>
    dsimp only [Operation.informationListFileCompletedPart]
    split
    · exact hreset.listFileFailedPart hkind
    · split
      · exact .calling hreset rfl (by trivial)
      · exact hreset.listFileFailedPart hkind
      · exact .still hreset
  | operatorDefinedDownload =>
    dsimp only [Operation.operatorListFileCompletedPart]
    split
    · exact .part (hreset.doAbort _)
    · split
      · exact .calling hreset rfl (by trivial)
      · exact .part (hreset.doAbort _)
      · exact .still hreset
  | upload | mediaDefinedDownload => exact .still h

/-! ### Behind the calls -/

theorem leave {rest : Rest} (hfits : rest.Fits op.kind) (exit : Exit) :
    MirrorsPart offset (op.leave lib rest exit) (op'.leave lib rest exit) := by
  have hstill : MirrorsPart offset { state := op, out := [] } { state := op', out := [] } :=
    .still h
  have hstop : MirrorsPart offset { state := op, out := [.timerCancel, .serverStop] }
      { state := op', out := [.timerCancel, .serverStop] } :=
    ⟨⟨h, rfl⟩, rfl, fun _ hrest => nomatch hrest⟩
  cases rest with
  | initialisationResponse initFile =>
    cases exit with
    | returned => exact h.initialisationAnsweredPart initFile
    | arinc615aException => exact h.finishedPart (by trivial) _ _
    | otherException => exact hstill
  | status status =>
    cases exit with
    | returned => exact h.statusReceivedPart status
    | arinc615aException | otherException => exact hstill
  | targetInformation =>
    cases exit with
    | returned => exact h.targetInformationPart hfits
    | arinc615aException => exact h.listFileFailedPart hfits
    | otherException => exact hstill
  | downloadingList =>
    cases exit with
    | arinc615aException => exact .part (h.doAbort _)
    | returned | otherException => exact hstill
  | finished guard =>
    cases exit with
    | returned =>
      cases guard with
      | unguarded | initialisation | status | list => exact hstop
    | arinc615aException =>
      cases guard with
      | initialisation => exact h.finishedPart (by trivial) _ _
      | list => exact h.listFileFailedPart hfits
      | unguarded | status => exact hstill
    | otherException =>
      cases guard with
      | unguarded | initialisation | status | list => exact hstill
  | unknownStatus status data =>
    cases exit with
    | returned =>
      exact (h.statusFileReceivedPart status data).prepend rfl
    | arinc615aException | otherException => exact hstill

/-! ### Request files -/

theorem requestCompleted (status : TransferStatus) :
    Mirrors offset (op.requestCompleted status) (op'.requestCompleted status) := by
  by_cases hkind : op.kind = .information
  · have hnone : ∀ op : Operation, op.kind = .information → op.requestCompleted status = (op, []) :=
      fun op hkind => by rw [Operation.requestCompleted, hkind]
    rw [hnone op hkind, hnone op' (h.kind.trans hkind)]
    exact .still h
  · rw [op.requestCompleted_of_kind hkind, op'.requestCompleted_of_kind (h.kind ▸ hkind)]
    split
    · exact h.doAbort _
    · exact .still { h with sent := fun _ => rfl }

theorem send (request : Operation.Request) :
    Option.Rel (Mirrors offset) (op.sendReaction lib request) (op'.sendReaction lib request) := by
  have htransmit : ∀ (fileType : ProtocolFileType) (filename : Text)
      (encoded : Except Arinc615aException Bytes), op.sent = op'.sent →
      Option.Rel (Mirrors offset)
        (op.caught (some (if op.sent then .ok (op, []) else do
          let file ← encoded
          .ok (op, [.transmitFile fileType filename file, .transferStart .request]))))
        (op'.caught (some (if op'.sent then .ok (op', []) else do
          let file ← encoded
          .ok (op', [.transmitFile fileType filename file, .transferStart .request])))) := by
    intro fileType filename encoded hsent
    rw [hsent]
    split
    · exact .some (.still h)
    · cases encoded with
      | error exception => exact .some (.still h)
      | ok file => exact .some ⟨h, rfl⟩
  unfold Operation.sendReaction Operation.send
  rw [h.kind]
  cases hkind : op.kind with
  | information => exact .none
  | upload =>
    have hother : op.kind ≠ .information := by simp [hkind]
    cases request with
    | loadList loads =>
      dsimp only [UploadOperation.loadList, Operation.protocolFilename]
      rw [h.protocolVersion hother, h.targetId]
      exact htransmit _ _ _ (h.sent hother).symm
    | request | answer => exact .none
  | mediaDefinedDownload =>
    have hother : op.kind ≠ .information := by simp [hkind]
    cases request with
    | request files userDefinedData =>
      dsimp only [MediaDefinedDownloadOperation.request, Operation.protocolFilename]
      rw [h.protocolVersion hother, h.targetId]
      exact htransmit _ _ _ (h.sent hother).symm
    | loadList | answer => exact .none
  | operatorDefinedDownload =>
    have hother : op.kind ≠ .information := by simp [hkind]
    cases request with
    | answer files =>
      dsimp only [OperatorDefinedDownloadOperation.answer, Operation.protocolFilename]
      rw [h.protocolVersion hother, h.targetId]
      exact htransmit _ _ _ (h.sent hother).symm
    | loadList | request => exact .none

/-! ### Requests for files -/

theorem checked (filename : Text) (remote : Endpoint) {handled handled' : Reaction}
    (hhandled : Mirrors offset handled handled') :
    Mirrors offset
      (match op.checkRequest filename remote with
      | some answer => answer
      | none => handled)
      (match op'.checkRequest filename remote with
      | some answer => answer
      | none => handled') := by
  unfold Operation.checkRequest
  rw [h.targetId]
  split
  case h_1 answer hanswer =>
    split at hanswer
    case isTrue hwrong =>
      cases hanswer
      rw [if_pos hwrong]
      exact .emit h rfl
    case isFalse => cases hanswer
  case h_2 hanswer =>
    split at hanswer
    case isTrue => cases hanswer
    case isFalse hright =>
      rw [if_neg hright]
      exact hhandled

theorem listTransfer (hkind : op.kind = .information ∨ op.kind = .operatorDefinedDownload)
    (checkValue : CheckValue) :
    Mirrors offset
      ({ op with listFileOperation := true },
        (if op.listFileOperation then
          [.gracefulAbort (.list checkValue) "New list file received"] else []) ++
          [.transferStart (.list checkValue)])
      ({ op' with listFileOperation := true },
        (if op'.listFileOperation then
          [.gracefulAbort (.list checkValue) "New list file received"] else []) ++
          [.transferStart (.list checkValue)]) := by
  refine ⟨{ h with listFileOperation := fun _ => rfl }, ?_⟩
  rw [h.listFileOperation hkind]
  dsimp only
  split
  · rfl
  · rfl

/-- What is handled behind a call that comes first, if at all. -/
theorem preceded {o : Output} (ho : o.shift offset = o) {condition : Prop} [Decidable condition]
    {f f' : Operation → Reaction} (hf : Mirrors offset (f op) (f' op')) :
    Mirrors offset ((if condition then op.emit o else (op, [])).andThen f)
      ((if condition then op'.emit o else (op', [])).andThen f') := by
  split
  · exact Mirrors.andThen (.emit h ho) hf
  · exact Mirrors.andThen (.still h) hf

theorem tftpRequest (remote : Endpoint) (requestType : RequestType) (filename : Text)
    (options : Arinc615aOptions) :
    Mirrors offset (op.tftpRequest remote requestType filename options)
      (op'.tftpRequest remote requestType filename options) := by
  have hstatus := h.statusFileRequest remote
  unfold Operation.tftpRequest
  rw [h.kind]
  cases hkind : op.kind with
  | information =>
    refine h.checked filename remote ?_
    -- the answer to a read request comes first
    refine h.preceded rfl ?_
    split
    · exact h.listTransfer (.inl hkind) options.checksum
    · exact hstatus
    · exact .emit h rfl
  | upload | mediaDefinedDownload =>
    refine h.checked filename remote ?_
    split
    · exact .emit h rfl
    · split
      · exact hstatus
      · exact .emit h rfl
  | operatorDefinedDownload =>
    refine h.checked filename remote ?_
    split
    · exact .emit h rfl
    · split
      · exact hstatus
      · exact h.listTransfer (.inr hkind) {}
      · exact .emit h rfl

end Resembles

/-- A start sets what it resets to the same values, and the initialisation unless the server cannot
be started. -/
theorem Alike.start {offset : Nat} {op op' : Operation} (h : Alike offset op op')
    {result : Operation.StartResult}
    (hinitialisation : result = .serverStartThrows →
      op'.initialisationOperation = op.initialisationOperation) :
    Mirrors offset (op.start result) (op'.start result) := by
  have hrestarted : Alike offset op.restarted op'.restarted ∧
      op.restarted.initialisationOperation = op.initialisationOperation ∧
      op'.restarted.initialisationOperation = op'.initialisationOperation ∧
      (op.restarted.kind = .information →
        op'.restarted.waitForFinalStatus = op.restarted.waitForFinalStatus) ∧
      (op.restarted.kind ≠ .information → op'.restarted.sent = op.restarted.sent) := by
    rw [op.restarted_eq, op'.restarted_eq]
    refine ⟨{ h with }, rfl, rfl, fun hinformation => ?_, fun hother => ?_⟩
    · have hkind : op.kind = .information := hinformation
      simp [h.kind, hkind]
    · have hkind : op.kind ≠ .information := hother
      simp [h.kind, hkind]
  obtain ⟨halike, hinit, hinit', hwait, hsent⟩ := hrestarted
  rw [Operation.start_eq, Operation.start_eq, h.kind]
  cases result with
  | serverStartThrows =>
    refine .still { halike with
      initialisationOperation := ?_, waitForFinalStatus := hwait, sent := hsent }
    rw [hinit, hinit', hinitialisation rfl]
  | requestThrows =>
    exact ⟨{ halike with
      initialisationOperation := rfl, waitForFinalStatus := hwait, sent := hsent }, rfl⟩
  | started =>
    refine ⟨{ halike with
      initialisationOperation := rfl, waitForFinalStatus := hwait, sent := hsent }, ?_⟩
    simp only [Operation.initialise, Operation.protocolFilename, halike.targetId]
    rfl

/-! ## What can be told of an operation by its calls -/

namespace Operation

theorem doAbort_calls (op : Operation) (reason : AbortReason) :
    (op.doAbort reason).2 =
      if op.abortReason = .noAbort ∧ op.initialisationOperation = true then
        [.gracefulAbort .initialisation "Abort"]
      else [] := by
  unfold doAbort abortInitialisation
  by_cases hnone : op.abortReason = .noAbort
  · by_cases hinitialisation : op.initialisationOperation = true
    · simp [hnone, hinitialisation, emit]
    · simp [hnone, hinitialisation]
  · simp [hnone]

/-- A file whose name is nothing but an extension passes for a protocol file of every target. -/
theorem listRequest_calls {kind : OperationType}
    (hkind : kind = .information ∨ kind = .operatorDefinedDownload) :
    ∃ filename, ∀ op : Operation, op.kind = kind →
      (op.tftpRequest ⟨0, 0⟩ .write filename {}).2 =
        (if op.listFileOperation then
          [.gracefulAbort (.list {}) "New list file received"] else []) ++
          [.transferStart (.list {})] := by
  rcases hkind with rfl | rfl
  · refine ⟨text ".LCL", fun op hkind => ?_⟩
    have hcheck : op.checkRequest (text ".LCL") ⟨0, 0⟩ = none := rfl
    rw [tftpRequest, hkind]
    dsimp only [InformationOperation.tftpRequest]
    rw [hcheck]
    rfl
  · refine ⟨text ".LNL", fun op hkind => ?_⟩
    have hcheck : op.checkRequest (text ".LNL") ⟨0, 0⟩ = none := rfl
    rw [tftpRequest, hkind]
    dsimp only [OperatorDefinedDownloadOperation.tftpRequest]
    rw [hcheck]
    rfl

/-- An empty request file can be transmitted. -/
theorem exists_transmitted (lib : Library) {kind : OperationType} (hkind : kind ≠ .information) :
    ∃ request, ∀ op : Operation, op.kind = kind → op.sent = false →
      ∃ fileType filename file, op.send lib request =
        some (.ok (op, [.transmitFile fileType filename file, .transferStart .request])) := by
  cases kind with
  | information => exact absurd rfl hkind
  | upload =>
    refine ⟨.loadList [], fun op hkind hsent => ?_⟩
    obtain ⟨file, hfile⟩ := (UploadOperationRequestFile.encode_ok_iff lib.raw
      { protocolVersion := op.protocolVersion, loads := [] }).mpr ⟨by simp, by simp, by simp⟩
    refine ⟨.uploadRequest, op.protocolFilename .uploadRequest, file, ?_⟩
    simp only [send, hkind, UploadOperation.loadList, hsent, hfile]
    rfl
  | mediaDefinedDownload =>
    refine ⟨.request [] [], fun op hkind hsent => ?_⟩
    obtain ⟨file, hfile⟩ := (DownloadOperationRequestFile.encode_ok_iff lib.raw
      { protocolVersion := op.protocolVersion, files := [], userDefinedData := [] }).mpr
        ⟨⟨by simp, by simp⟩, by simp⟩
    refine ⟨.mediaDefinedDownloadRequest, op.protocolFilename .mediaDefinedDownloadRequest, file, ?_⟩
    simp only [send, hkind, MediaDefinedDownloadOperation.request, hsent, hfile]
    rfl
  | operatorDefinedDownload =>
    refine ⟨.answer [], fun op hkind hsent => ?_⟩
    obtain ⟨file, hfile⟩ := (DownloadOperationAnswerFile.encode_ok_iff lib.raw
      { protocolVersion := op.protocolVersion, files := [] }).mpr ⟨by simp, by simp⟩
    refine ⟨.operatorDefinedDownloadAnswer, op.protocolFilename .operatorDefinedDownloadAnswer,
      file, ?_⟩
    simp only [send, hkind, OperatorDefinedDownloadOperation.answer, hsent, hfile]
    rfl

end Operation

end Arinc615a.Host
