import Arinc615a.Host.Operations

/-!
# Requests for other targets

`checkRequest` compares the target identifier only of names that `isProtocolFilename` accepts, which
asks for a compliant identifier.  The operations then look at the extension alone.  Last comes how
many reactions there are to one request.
-/

namespace Arinc615a.Host

open Files Tftp

/-- A status file or list transfer is started. -/
def TransfersProtocolFile (r : Reaction) : Prop :=
  ∃ transfer, .transferStart transfer ∈ r.2 ∧ transfer ≠ .initialisation ∧ transfer ≠ .request

/-- The request is answered with errors, and nothing else happens. -/
def Rejected (op : Operation) (r : Reaction) : Prop :=
  r.1 = op ∧ r.2 ≠ [] ∧
    ∀ o ∈ r.2, ∃ remote errorCode message, o = .errorOperation remote errorCode message

/-- Protocol files are transferred only under the identifier of the operation, and those of other
targets are rejected. -/
def ChecksTarget (op : Operation) (filename : Text) (r : Reaction) : Prop :=
  (TransfersProtocolFile r → (ProtocolFilename.split filename).1 = op.targetId.toString) ∧
    (ProtocolFilename.fileType (ProtocolFilename.split filename).2 ≠ .invalid →
      (ProtocolFilename.split filename).1 ≠ op.targetId.toString → Rejected op r)

/-- The requests that an operation answers with an error whatever the target identifier is. -/
def Refuses : OperationType → RequestType → ProtocolFileType → Prop
  | .information, _, fileType =>
    fileType ≠ .loadConfigurationList ∧ fileType ≠ .loadConfigurationStatus
  | .upload, .read, _ => False
  | .upload, .write, fileType => fileType ≠ .uploadStatus
  | .mediaDefinedDownload, .read, _ | .operatorDefinedDownload, .read, _ => True
  | .mediaDefinedDownload, .write, _ | .operatorDefinedDownload, .write, _ => False

namespace Operation

variable {op : Operation} {remote : Endpoint} {filename : Text}

/-- A compliant identifier of another target is found out. -/
theorem checkRequest_other
    (hid : TargetId.isTargetId (ProtocolFilename.split filename).1 = true)
    (htype : ProtocolFilename.fileType (ProtocolFilename.split filename).2 ≠ .invalid)
    (hother : (ProtocolFilename.split filename).1 ≠ op.targetId.toString) :
    op.checkRequest filename remote =
      some (op.emit (.errorOperation remote .fileNotFound "Wrong target ID for protocol file")) := by
  have hne : (ProtocolFilename.ofText filename).targetIdV ≠ op.targetId := by
    intro heq
    apply hother
    rw [← heq]
    exact (TargetId.toString_ofText hid).symm
  have hname : ProtocolFilename.isProtocolFilename filename = true := by
    simp [ProtocolFilename.isProtocolFilename, hid, htype]
  simp [checkRequest, hname, hne]

/-- Names without a compliant identifier are not checked. -/
theorem checkRequest_unchecked
    (hid : TargetId.isTargetId (ProtocolFilename.split filename).1 ≠ true) :
    op.checkRequest filename remote = none := by
  have hname : ProtocolFilename.isProtocolFilename filename = false := by
    simp [ProtocolFilename.isProtocolFilename, hid]
  simp [checkRequest, hname]

end Operation

/-! ## Rejected requests -/

theorem Rejected.error (op : Operation) (remote : Endpoint) (errorCode : ErrorCode)
    (message : String) : Rejected op (op.emit (.errorOperation remote errorCode message)) :=
  ⟨rfl, by simp [Operation.emit], fun _ ho => ⟨_, _, _, List.mem_singleton.mp ho⟩⟩

theorem Rejected.not_transfers {op : Operation} {r : Reaction} (h : Rejected op r) :
    ¬TransfersProtocolFile r := by
  rintro ⟨transfer, hmem, -⟩
  obtain ⟨_, _, _, hne⟩ := h.2.2 _ hmem
  cases hne

/-- An answer with any other call is no rejection. -/
theorem not_rejected {op : Operation} {r : Reaction} {o : Output} (hmem : o ∈ r.2)
    (ho : ∀ remote errorCode message, o ≠ .errorOperation remote errorCode message) :
    ¬Rejected op r := by
  intro h
  obtain ⟨remote, errorCode, message, heq⟩ := h.2.2 o hmem
  exact ho remote errorCode message heq

theorem not_rejected_statusFileRequest (op : Operation) (remote : Endpoint) :
    ¬Rejected op (op.statusFileRequest remote) :=
  Operation.statusFileRequest_elim (P := fun r => ¬Rejected op r)
    (fun _ => not_rejected (List.mem_cons_self ..) (by simp))
    fun _ => not_rejected (List.mem_singleton.mpr rfl) (by simp)

theorem not_rejected_listTransfer {op op' : Operation} {checkValue : CheckValue}
    {abort : List Output} :
    ¬Rejected op (op', abort ++ [.transferStart (.list checkValue)]) :=
  not_rejected (List.mem_append_right _ (List.mem_singleton.mpr rfl)) (by simp)

variable {op : Operation} {remote : Endpoint} {filename : Text}

/-- The answer to a read request makes no difference to whether what comes behind is a rejection. -/
theorem rejected_readAnswer_andThen {f : Operation → Reaction} (hsome : (f op).2 ≠ [])
    (requestType : RequestType) :
    Rejected op (Reaction.andThen (op, op.readAnswer remote requestType) f) ↔
      Rejected op (f op) := by
  have hfirst : ∀ o ∈ op.readAnswer remote requestType,
      ∃ remote errorCode message, o = .errorOperation remote errorCode message := by
    intro o ho
    unfold Operation.readAnswer at ho
    split at ho
    · exact ⟨_, _, _, List.mem_singleton.mp ho⟩
    · cases ho
  constructor
  · rintro ⟨hop, -, hall⟩
    exact ⟨hop, hsome, fun o ho => hall o (List.mem_append_right _ ho)⟩
  · rintro ⟨hop, -, hall⟩
    exact ⟨hop, List.append_ne_nil_of_right_ne_nil _ hsome,
      List.forall_mem_append.mpr ⟨hfirst, hall⟩⟩

theorem statusFileRequest_ne_nil (op : Operation) (remote : Endpoint) :
    (op.statusFileRequest remote).2 ≠ [] :=
  Operation.statusFileRequest_elim (P := fun r => r.2 ≠ []) (fun _ => List.cons_ne_nil _ _)
    fun _ => List.cons_ne_nil _ _

theorem handle_ne_nil (op : Operation) (remote : Endpoint) (filename : Text)
    (options : Arinc615aOptions) (handling : Operation.Handling) :
    (op.handle remote filename options handling).2 ≠ [] := by
  cases handling with
  | error | file => exact List.cons_ne_nil _ _
  | status => exact statusFileRequest_ne_nil op remote
  | list => exact List.append_ne_nil_of_right_ne_nil _ (List.cons_ne_nil _ _)

def Operation.Handling.isError : Operation.Handling → Prop
  | .error .. => True
  | _ => False

theorem rejected_handle_iff (op : Operation) (remote : Endpoint) (filename : Text)
    (options : Arinc615aOptions) (handling : Operation.Handling) :
    Rejected op (op.handle remote filename options handling) ↔ handling.isError := by
  cases handling with
  | error errorCode message => exact iff_of_true (.error op remote errorCode message) trivial
  | file => exact iff_of_false (not_rejected (List.mem_singleton.mpr rfl) (by simp)) id
  | status => exact iff_of_false (not_rejected_statusFileRequest op remote) id
  | list => exact iff_of_false not_rejected_listTransfer id

theorem isError_handling_iff (kind : OperationType) (requestType : RequestType)
    (fileType : ProtocolFileType) (options : Arinc615aOptions) :
    (Operation.handling kind requestType fileType options).isError ↔
      Refuses kind requestType fileType := by
  cases kind with
  | information => cases fileType <;> simp [Operation.handling, Refuses, Operation.Handling.isError]
  | upload | mediaDefinedDownload | operatorDefinedDownload =>
    cases requestType <;> cases fileType <;>
      simp [Operation.handling, Refuses, Operation.Handling.isError]

/-- A request that passes the check is rejected exactly if the operation refuses it anyway. -/
theorem rejected_iff_refuses (hcheck : op.checkRequest filename remote = none)
    (requestType : RequestType) (options : Arinc615aOptions) :
    Rejected op (op.tftpRequest remote requestType filename options) ↔
      Refuses op.kind requestType
        (ProtocolFilename.fileType (ProtocolFilename.split filename).2) := by
  rw [Operation.tftpRequest_unchecked hcheck,
    rejected_readAnswer_andThen (handle_ne_nil op remote filename options _), rejected_handle_iff,
    isError_handling_iff]
  rfl

/-- Without the extension of a protocol file, no protocol file is transferred. -/
theorem not_transfers_of_invalid
    (htype : ProtocolFilename.fileType (ProtocolFilename.split filename).2 = .invalid)
    (requestType : RequestType) (options : Arinc615aOptions) :
    ¬TransfersProtocolFile (op.tftpRequest remote requestType filename options) := by
  have hname : ProtocolFilename.isProtocolFilename filename = false := by
    simp [ProtocolFilename.isProtocolFilename, htype]
  have hcheck : op.checkRequest filename remote = none := by
    simp [Operation.checkRequest, hname]
  by_cases hrefuses : Refuses op.kind requestType .invalid
  · rw [← htype, ← rejected_iff_refuses hcheck requestType options] at hrefuses
    exact hrefuses.not_transfers
  · -- what is not refused is left to the handler
    have htypeV : (ProtocolFilename.ofText filename).fileTypeV = .invalid := htype
    have hfile : Operation.handling op.kind requestType .invalid options = .file := by
      cases hkind : op.kind <;> cases requestType <;> simp [hkind, Refuses] at hrefuses <;> rfl
    have hfirst : op.readAnswer remote requestType = [] := by
      refine if_neg fun h => hrefuses ?_
      rw [h.1]
      simp [Refuses]
    rw [Operation.tftpRequest_unchecked hcheck, htypeV, hfirst, Reaction.andThen_mk, hfile]
    rintro ⟨transfer, hmem, -⟩
    cases List.mem_singleton.mp hmem

/-- A request is handled as it should be, except for the name of a protocol file with an
identifier that is not compliant and that the operation does not refuse anyway. -/
theorem checksTarget_iff (op : Operation) (remote : Endpoint) (requestType : RequestType)
    (filename : Text) (options : Arinc615aOptions) :
    ChecksTarget op filename (op.tftpRequest remote requestType filename options) ↔
      (ProtocolFilename.split filename).1 = op.targetId.toString ∨
      ProtocolFilename.fileType (ProtocolFilename.split filename).2 = .invalid ∨
      TargetId.isTargetId (ProtocolFilename.split filename).1 = true ∨
      Refuses op.kind requestType
        (ProtocolFilename.fileType (ProtocolFilename.split filename).2) := by
  by_cases hself : (ProtocolFilename.split filename).1 = op.targetId.toString
  · exact iff_of_true ⟨fun _ => hself, fun _ hother => absurd hself hother⟩ (.inl hself)
  by_cases htype : ProtocolFilename.fileType (ProtocolFilename.split filename).2 = .invalid
  · refine iff_of_true ⟨fun h => ?_, fun h => absurd htype h⟩ (.inr (.inl htype))
    exact absurd h (not_transfers_of_invalid htype _ _)
  -- the extension is one of a protocol file, and the identifier another one
  have hrejected : ∀ r, ChecksTarget op filename r ↔ Rejected op r := fun r =>
    ⟨fun h => h.2 htype hself, fun h => ⟨fun ht => absurd ht h.not_transfers, fun _ _ => h⟩⟩
  rw [hrejected]
  by_cases hid : TargetId.isTargetId (ProtocolFilename.split filename).1 = true
  · refine iff_of_true ?_ (.inr (.inr (.inl hid)))
    rw [Operation.tftpRequest_checked (Operation.checkRequest_other hid htype hself)]
    exact .error ..
  · rw [rejected_iff_refuses (Operation.checkRequest_unchecked hid)]
    simp [hself, htype, hid]

/-- The identifier in the name is too short to be compliant, and is not looked at. -/
theorem information_transfers_other :
    ¬∀ (remote : Endpoint) (requestType : RequestType) (filename : Text)
      (options : Arinc615aOptions),
      ChecksTarget
        { kind := .information, targetId := .ofText (text "ABCD_1"), dlpTimeout := 10 } filename
        (Operation.tftpRequest
          { kind := .information, targetId := .ofText (text "ABCD_1"), dlpTimeout := 10 }
          remote requestType filename options) := by
  intro h
  obtain ⟨hsame, -⟩ := h ⟨0, 0⟩ .write (text "ABC_1.LCS") {}
  refine absurd (hsame ⟨.status 0, ?_, by decide, by decide⟩) (by decide)
  decide +kernel

/-! ## One reaction to a request -/

/-- The ways to react to a request.  The abort of an earlier list transfer is none. -/
def Output.isReaction : Output → Bool
  | .errorOperation .. | .abortOperation .. | .fileRequest .. => true
  | .transferStart (.status _) | .transferStart (.list _) => true
  | _ => false

def ReactsOnce (r : Reaction) : Prop := r.2.countP Output.isReaction = 1

theorem ReactsOnce.emit (op : Operation) {o : Output} (h : o.isReaction = true) :
    ReactsOnce (op.emit o) := by
  simp [ReactsOnce, Operation.emit, h]

/-- A pending abort is the reaction, or a transfer is started. -/
theorem ReactsOnce.statusFileRequest (op : Operation) (remote : Endpoint) :
    ReactsOnce (op.statusFileRequest remote) :=
  Operation.statusFileRequest_elim (fun _ => rfl) fun _ => rfl

theorem ReactsOnce.listTransfer (op : Operation) (checkValue : CheckValue) :
    ReactsOnce ({ op with listFileOperation := true },
      (if op.listFileOperation then
        [.gracefulAbort (.list checkValue) "New list file received"] else []) ++
        [.transferStart (.list checkValue)]) := by
  split
  · rfl
  · rfl

/-- An error ahead of the reaction is one too many. -/
theorem not_reactsOnce_error_andThen {f : Operation → Reaction} (h : ReactsOnce (f op))
    (errorCode : ErrorCode) (message : String) :
    ¬ReactsOnce ((op.emit (.errorOperation remote errorCode message)).andThen f) := by
  have htwo : ((op.emit (.errorOperation remote errorCode message)).andThen f).2.countP
      Output.isReaction = 2 := by
    have hfirst : ReactsOnce (op.emit (.errorOperation remote errorCode message)) := .emit op rfl
    unfold ReactsOnce at h hfirst
    rw [Reaction.andThen, List.countP_append, hfirst]
    dsimp only [Operation.emit]
    rw [h]
  unfold ReactsOnce
  omega

/-- There is one reaction to each request, but for a read request that passes the check of an
information operation. -/
theorem reactsOnce_iff (op : Operation) (remote : Endpoint) (requestType : RequestType)
    (filename : Text) (options : Arinc615aOptions) :
    ReactsOnce (op.tftpRequest remote requestType filename options) ↔
      op.kind ≠ .information ∨ requestType = .write ∨ op.checkRequest filename remote ≠ none := by
  obtain ⟨handled, hhandled, heq⟩ := Operation.exists_handled (P := ReactsOnce)
    (fun _ _ => .emit op rfl) (fun _ _ => .emit op rfl) (.statusFileRequest op remote)
    (.listTransfer op) requestType options
  rw [heq]
  split
  case isTrue hread =>
    -- the request is handled all the same
    obtain ⟨hkind, hwrite, hcheck⟩ := hread
    exact iff_of_false (not_reactsOnce_error_andThen hhandled _ _) (by simp [hkind, hwrite, hcheck])
  case isFalse hread =>
    refine iff_of_true hhandled ?_
    by_contra hnone
    simp only [not_or, not_not] at hnone
    exact hread hnone

/-- A read request for the list is answered with an error, and the list is received all the
same. -/
theorem information_read_reactsTwice :
    ¬∀ (remote : Endpoint) (requestType : RequestType) (filename : Text)
      (options : Arinc615aOptions),
      ReactsOnce
        (Operation.tftpRequest
          { kind := .information, targetId := .ofText (text "ABCD_1"), dlpTimeout := 10 }
          remote requestType filename options) := by
  intro h
  have honce := h ⟨0, 0⟩ .read (text "ABCD_1.LCL") {}
  unfold ReactsOnce at honce
  exact absurd honce (by decide +kernel)

end Arinc615a.Host
