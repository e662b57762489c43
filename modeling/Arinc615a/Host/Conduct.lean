import Arinc615a.Files.Truncation
import Arinc615a.Host.World

/-!
# What the host callbacks can do

Every callback is calm, busy or finishing, and each operation counts the status file transfers it
starts.  One rule for each way of putting callbacks together, and the callbacks that do not finish.
-/

open Reasoning

namespace Arinc615a.Host

open Files Information Tftp

/-- A status that is delivered and a timer that is armed are the activity of an operation. -/
def Output.mark : Output → Mark
  | .finished .. => .finish
  | .timerStart _ | .informationStatus _ | .uploadStatus _ | .downloadStatus _ => .activity
  | _ => .neutral

def Observation.mark : Observation → Mark
  | .started => .start
  | .call output => output.mark

/-- Neither starts the server nor a status file transfer. -/
def Output.plain : Output → Bool
  | .serverStart | .transferStart (.status _) => false
  | _ => true

/-- A callback notes the status file transfers that it starts, each under a new number. -/
structure Notes (op : Operation) (r : Reaction) : Prop where
  counted : ∀ id, r.1.statusFileOperations.count id =
    op.statusFileOperations.count id + r.2.count (.transferStart (.status id))
  later : op.nextStatusFileOperation ≤ r.1.nextStatusFileOperation
  once : ∀ id, r.2.count (.transferStart (.status id)) ≤ 1
  fresh : ∀ id, 0 < r.2.count (.transferStart (.status id)) →
    op.nextStatusFileOperation ≤ id ∧ id < r.1.nextStatusFileOperation

namespace Notes

variable {op op' : Operation} {out : List Output} {r : Reaction}

/-- A callback that starts no status file transfer has nothing to note. -/
theorem nothing (hids : op'.statusFileOperations = op.statusFileOperations)
    (hnext : op'.nextStatusFileOperation = op.nextStatusFileOperation)
    (hout : ∀ id, .transferStart (.status id) ∉ out) : Notes op (op', out) where
  counted id := by
    show op'.statusFileOperations.count id = _
    rw [hids, List.count_eq_zero_of_not_mem (hout id), Nat.add_zero]
  later := hnext.ge
  once id := by simp [List.count_eq_zero_of_not_mem (hout id)]
  fresh id := by simp [List.count_eq_zero_of_not_mem (hout id)]

/-- Members that the list of transfers does not depend on may be set before the callback. -/
theorem set (h : Notes op' r) (hids : op'.statusFileOperations = op.statusFileOperations)
    (hnext : op'.nextStatusFileOperation = op.nextStatusFileOperation) : Notes op r where
  counted := hids ▸ h.counted
  later := hnext ▸ h.later
  once := h.once
  fresh := hnext ▸ h.fresh

theorem andThen {f : Operation → Reaction} (h : Notes op r) (h' : Notes r.1 (f r.1)) :
    Notes op (r.andThen f) where
  counted id := by
    have h₁ := h.counted id
    have h₂ := h'.counted id
    simp only [Reaction.andThen, List.count_append]
    omega
  later := h.later.trans h'.later
  once id := by
    -- the numbers of the two parts lie in intervals that do not meet
    have h₁ := h.once id
    have h₂ := h'.once id
    have hrange := h.fresh id
    have hrange' := h'.fresh id
    simp only [Reaction.andThen, List.count_append]
    omega
  fresh id hpos := by
    have hrange := h.fresh id
    have hrange' := h'.fresh id
    have hlater := h.later
    have hlater' := h'.later
    simp only [Reaction.andThen, List.count_append] at hpos ⊢
    omega

end Notes

/-- A callback that does not start the operation, with its effect. -/
structure Behaves (e : Mark.Effect) (op : Operation) (r : Reaction) : Prop where
  notes : Notes op r
  effect : Mark.HasEffect Output.mark e r.2

namespace Behaves

variable {op op' : Operation} {r : Reaction} {e e' : Mark.Effect}

theorem still (hids : op'.statusFileOperations = op.statusFileOperations)
    (hnext : op'.nextStatusFileOperation = op.nextStatusFileOperation) :
    Behaves .calm op (op', []) where
  notes := .nothing hids hnext (by simp)
  effect := .none

theorem call {o : Output} (hplain : o.plain = true) (heffect : Mark.HasEffect Output.mark e [o]) :
    Behaves e op (op.emit o) where
  notes := .nothing rfl rfl fun id hmem => by
    rw [← List.mem_singleton.mp hmem] at hplain
    cases hplain
  effect := heffect

theorem neutral {o : Output} (hplain : o.plain = true) (hmark : o.mark = .neutral) :
    Behaves .calm op (op.emit o) :=
  call hplain (.single (by simp [hmark]) (by simp [hmark]) (by simp [hmark]))

theorem activity {o : Output} (hplain : o.plain = true) (hmark : o.mark = .activity) :
    Behaves .busy op (op.emit o) :=
  call hplain (.single (by simp [hmark]) (by simp [hmark]) (by simp [hmark]))

theorem finish (status : StatusCode) (description : Text) :
    Behaves .finishing op (op.emit (.finished status description)) :=
  call rfl (.single (by simp [Output.mark]) (by simp [Output.mark]) (by simp [Output.mark]))

theorem set (h : Behaves e op' r) (hids : op'.statusFileOperations = op.statusFileOperations)
    (hnext : op'.nextStatusFileOperation = op.nextStatusFileOperation) : Behaves e op r where
  notes := h.notes.set hids hnext
  effect := h.effect

theorem andThen_calm {f : Operation → Reaction} (h : Behaves .calm op r)
    (h' : Behaves e r.1 (f r.1)) : Behaves e op (r.andThen f) where
  notes := h.notes.andThen h'.notes
  effect := by
    have hboth := h.effect.append (by decide) h'.effect
    cases e <;> exact hboth

end Behaves

/-! ## The base of the operations -/

namespace Operation

variable (lib : Library) (op : Operation)

theorem behaves_triggerDlpTimeout (exceptionTime : Nat) :
    Behaves .busy op (op.triggerDlpTimeout exceptionTime) :=
  .activity rfl rfl

theorem behaves_abortInitialisation : Behaves .calm op op.abortInitialisation := by
  unfold abortInitialisation
  split
  · exact .neutral rfl rfl
  · exact .still rfl rfl

theorem behaves_doAbort (reason : AbortReason) : Behaves .calm op (op.doAbort reason) := by
  unfold doAbort
  split
  · exact .still rfl rfl
  · exact (behaves_abortInitialisation _).set rfl rfl

theorem notes_doTerminate (reason : AbortReason) : Notes op (op.doTerminate reason) :=
  op.behaves_abortInitialisation.notes.andThen (.nothing rfl rfl (by simp))

/-- No read of an initialisation file goes past its end. -/
theorem initialisationFile_stays (data : Bytes) :
    ¬(InitializationFile.decode lib.raw {} data).Overran :=
  Cuts.never lib.raw (InitializationFile.cuts_decode lib.raw)
    (InitializationFile.layout_covered lib.raw) {} data

/-- An initialisation file cannot be used, or is answered. -/
theorem initialisationFileCompleted_elim {lib : Library} {P : Reaction → Prop} {op : Operation}
    {status : TransferStatus} {data : Bytes}
    (hunusable : P (finished { op with initialisationOperation := false } .operationAbortedByDlp
      (text "Initialisation File could not be received")))
    (hanswered : ∀ initFile : InitializationFile,
      P ((emit { op with initialisationOperation := false }
        (.initialisationResponse initFile.response)).andThen fun op =>
          op.initialisationAnswered initFile)) :
    P (op.initialisationFileCompleted lib status data) := by
  unfold initialisationFileCompleted
  dsimp only
  split
  · exact hunusable
  · have hstays := initialisationFile_stays lib data
    cases hdecode : InitializationFile.decode lib.raw {} data with
    | done _ initFile _ => exact hanswered initFile
    | thrown failure _ =>
      cases failure with
      | exception _ => exact hunusable
      | overrun =>
        rw [hdecode] at hstays
        exact absurd trivial hstays

/-! ## Status files -/

/-- A status file transfer is noted under a number that no earlier one has. -/
theorem behaves_statusFileRequest (remote : Endpoint) :
    Behaves (if op.abortReason = .noAbort then .calm else .busy) op
      (op.statusFileRequest remote) := by
  refine statusFileRequest_elim (P := fun r => Behaves _ op r) (fun haborted => ?_) fun hnone => ?_
  · rw [if_neg haborted]
    exact Behaves.andThen_calm (.neutral rfl rfl) ((behaves_triggerDlpTimeout _ _).set rfl rfl)
  · rw [if_pos hnone]
    refine ⟨⟨fun id => ?_, Nat.le_succ _, fun id => List.count_le_length, fun id => ?_⟩,
      .single (by simp [Output.mark]) (by simp [Output.mark]) (by simp [Output.mark])⟩
    · simp [List.count_cons]
    · simp only [List.count_cons, List.count_nil]
      intro hpos
      -- the one transfer that is started has the next number
      split at hpos
      case isTrue heq =>
        have hid : op.nextStatusFileOperation = id := by simpa using heq
        show op.nextStatusFileOperation ≤ id ∧ id < op.nextStatusFileOperation + 1
        omega
      case isFalse => exact absurd hpos (by decide)

/-! ## The operations -/

variable {op}

/-- What the completion of a status file makes of the received bytes. -/
def receiveStatus (lib : Library) : OperationType → Bytes → Option ReceivedStatus
  | .information => receiveInformationStatus lib
  | .upload => receiveUploadStatus lib
  | .mediaDefinedDownload | .operatorDefinedDownload => receiveDownloadStatus lib

theorem receiveStatus_call {kind : OperationType} {data : Bytes} {received : ReceivedStatus}
    (h : receiveStatus lib kind data = some received) :
    received.call.plain = true ∧ received.call.mark = .activity := by
  cases kind <;>
    simp only [receiveStatus, receiveInformationStatus, receiveUploadStatus,
      receiveDownloadStatus, Option.map_eq_some_iff] at h <;>
    obtain ⟨_, -, rfl⟩ := h <;>
    exact ⟨rfl, rfl⟩

theorem behaves_requestCompleted (op : Operation) (status : TransferStatus) :
    Behaves .calm op (op.requestCompleted status) := by
  unfold Operation.requestCompleted
  cases op.kind with
  | information => exact .still rfl rfl
  | upload | mediaDefinedDownload | operatorDefinedDownload =>
    dsimp only [UploadOperation.loadListCompleted, MediaDefinedDownloadOperation.requestCompleted,
      OperatorDefinedDownloadOperation.answerCompleted]
    split
    · exact op.behaves_doAbort _
    · exact .still rfl rfl

/-- Handing a file over for transmission only starts its transfer. -/
theorem behaves_transmitFile (fileType : ProtocolFileType) (filename : Text)
    {encoded : Except Arinc615aException Bytes} {r : Reaction}
    (h : (if op.sent then Except.ok (op, []) else do
      let file ← encoded
      Except.ok (op, [Output.transmitFile fileType filename file,
        Output.transferStart .request])) = .ok r) :
    Behaves .calm op r := by
  split at h
  · cases h
    exact .still rfl rfl
  · obtain ⟨file, -, hfile⟩ := bind_eq_ok h
    cases hfile
    -- two calls, one after the other
    show Behaves .calm op ((op.emit (.transmitFile fileType filename file)).andThen fun op =>
      op.emit (.transferStart .request))
    exact Behaves.andThen_calm (.neutral rfl rfl) (.neutral rfl rfl)

theorem behaves_send {request : Request} {r : Reaction}
    (h : op.send lib request = some (.ok r)) : Behaves .calm op r := by
  -- each class has the one call of its own; the others are `none`
  unfold send at h
  cases hkind : op.kind with
  | information => simp [hkind] at h
  | upload =>
    cases request with
    | loadList loads =>
      simp only [hkind, Option.some.injEq] at h
      exact behaves_transmitFile _ _ h
    | request | answer => simp [hkind] at h
  | mediaDefinedDownload =>
    cases request with
    | request files userDefinedData =>
      simp only [hkind, Option.some.injEq] at h
      exact behaves_transmitFile _ _ h
    | loadList | answer => simp [hkind] at h
  | operatorDefinedDownload =>
    cases request with
    | answer files =>
      simp only [hkind, Option.some.injEq] at h
      exact behaves_transmitFile _ _ h
    | loadList | request => simp [hkind] at h

/-! ## Requests -/

theorem behaves_listTransfer (checkValue : CheckValue) :
    Behaves .calm op ({ op with listFileOperation := true },
      (if op.listFileOperation then
        [.gracefulAbort (.list checkValue) "New list file received"] else []) ++
        [.transferStart (.list checkValue)]) := by
  have hstart : Behaves .calm op
      (emit { op with listFileOperation := true } (.transferStart (.list checkValue))) :=
    Behaves.set (.neutral rfl rfl) rfl rfl
  split
  · show Behaves .calm op ((op.emit (.gracefulAbort _ _)).andThen fun op =>
      emit { op with listFileOperation := true } (.transferStart (.list checkValue)))
    exact Behaves.andThen_calm (.neutral rfl rfl) hstart
  · exact hstart

/-! ## Start -/

theorem behaves_initialise (fileType : ProtocolFileType) (result : StartResult) :
    Behaves .calm op (op.initialise fileType result) := by
  have hone : ∀ o : Output, o.mark = .neutral → Mark.HasEffect Output.mark .calm [o] :=
    fun o ho => .single (by simp [ho]) (by simp [ho]) (by simp [ho])
  cases result with
  | serverStartThrows => exact .still rfl rfl
  | requestThrows => exact ⟨.nothing rfl rfl (by simp), hone _ rfl⟩
  | started =>
    exact ⟨.nothing rfl rfl (by simp),
      (hone _ rfl).calm_append ((hone _ rfl).calm_append (hone _ rfl))⟩

theorem behaves_start (op : Operation) (result : StartResult) :
    Behaves .calm op (op.start result) := by
  unfold Operation.start
  cases op.kind <;> exact (behaves_initialise _ result).set rfl rfl

end Operation

end Arinc615a.Host
