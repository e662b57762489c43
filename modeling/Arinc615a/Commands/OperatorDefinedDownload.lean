import Arinc615a.Commands.Handlers

/-!
# The answers of the operator defined download command

`arinc_615a_commands/operations/OperatorDefinedDownloadOperationCommand.cpp`: the command answers
each list of files that the target offers with the files that the user requests.  The names are
moved into the answer, and an empty one is left of each.
-/

open Reasoning

namespace Arinc615a.Commands

open Files Information Tftp Host

/-! ## Calls that answers have nothing to do with -/

/-- A list of the target, or a file that the command has transmitted. -/
def exchanged : Output → Bool
  | .downloadingList _ | .transmitFile .. => true
  | _ => false

def Aside (out : List Output) : Prop := ∀ o ∈ out, exchanged o = false

namespace Aside

variable {out out' : List Output}

theorem nil : Aside [] := List.forall_mem_nil _

theorem single {o : Output} (h : exchanged o = false) : Aside [o] := List.forall_mem_singleton.mpr h

theorem append (h : Aside out) (h' : Aside out') : Aside (out ++ out') :=
  List.forall_mem_append.mpr ⟨h, h'⟩

end Aside

section

variable (lib : Library) (op : Operation)

theorem aside_finished (status : StatusCode) (description : Text) :
    Aside (op.finished status description).2 := by
  simp [Aside, Operation.finished, exchanged]

theorem aside_abortInitialisation : Aside op.abortInitialisation.2 := by
  unfold Operation.abortInitialisation
  split
  · exact .single rfl
  · exact .nil

theorem aside_doAbort (reason : AbortReason) : Aside (op.doAbort reason).2 := by
  unfold Operation.doAbort
  split
  · exact .nil
  · exact aside_abortInitialisation _

theorem aside_doTerminate (reason : AbortReason) : Aside (op.doTerminate reason).2 :=
  Aside.append (aside_abortInitialisation _) (aside_finished _ _ _)

theorem aside_statusReceived (status : Status) :
    Aside (Operation.statusReceived id op status).2 := by
  unfold Operation.statusReceived
  cases status.code with
  | operationAccepted | operationInProgress | operationInProgressAdditionalInfo => exact .single rfl
  | _ => exact aside_finished op _ _

theorem aside_statusFileReceived (status : TransferStatus) (data : Bytes) :
    Aside (Operation.statusFileReceived (receiveDownloadStatus lib) id op status data).2 := by
  unfold Operation.statusFileReceived
  split
  · exact aside_finished op _ _
  · split
    next received hreceive =>
      obtain ⟨file, -, rfl⟩ := Option.map_eq_some_iff.mp hreceive
      exact Aside.append (.single rfl) (aside_statusReceived _ _)
    next => exact .nil

theorem aside_start (result : Operation.StartResult) : Aside (op.start result).2 := by
  have hinitialise : ∀ (op : Operation) fileType, Aside (op.initialise fileType result).2 := by
    intro op fileType
    cases result <;> simp [Aside, Operation.initialise, exchanged]
  unfold Operation.start
  cases op.kind <;> exact hinitialise _ _

theorem aside_tftpRequest (remote : Endpoint) (requestType : RequestType) (filename : Text)
    (options : Arinc615aOptions) :
    Aside (op.tftpRequest remote requestType filename options).2 := by
  have hstatus : Aside (op.statusFileRequest remote).2 :=
    Operation.statusFileRequest_elim (P := fun r => Aside r.2)
      (fun _ => Aside.append (.single rfl) (.single rfl)) fun _ => .single rfl
  refine Operation.tftpRequest_elim (P := fun r => Aside r.2) (fun _ _ => .single rfl)
    (fun _ _ => .single rfl) hstatus (fun checkValue => ?_)
    fun handled hhandled => Aside.append (.single rfl) hhandled
  refine Aside.append ?_ (.single rfl)
  split
  · exact .single rfl
  · exact .nil

theorem aside_initialisationFileCompleted (status : TransferStatus) (data : Bytes) :
    Aside (op.initialisationFileCompleted lib status data).2 := by
  refine Operation.initialisationFileCompleted_elim (P := fun r => Aside r.2)
    (aside_finished _ _ _) fun initFile => Aside.append (.single rfl) ?_
  unfold Operation.initialisationAnswered
  cases initFile.response.code with
  | operationAccepted => exact .single rfl
  | operationDenied | operationNotSupported | operationDeferred => exact aside_finished _ _ _

theorem aside_statusFileCompleted (hkind : op.kind = .operatorDefinedDownload)
    (operation : Nat) (status : TransferStatus) (data : Bytes) :
    Aside (op.statusFileCompleted lib operation status data).2 := by
  unfold Operation.statusFileCompleted
  rw [hkind]
  dsimp only [DownloadOperation.statusFileCompleted]
  unfold Operation.statusFileCompletedOnward
  refine Aside.append ?_ (aside_statusFileReceived _ _ _ _)
  split
  · exact aside_finished _ _ _
  · exact .nil

theorem aside_requestCompleted (hkind : op.kind = .operatorDefinedDownload)
    (status : TransferStatus) : Aside (op.requestCompleted status).2 := by
  rw [op.requestCompleted_of_kind (by simp [hkind])]
  split
  · exact aside_doAbort op _
  · exact .nil

end

/-- The list that an event of the operation completes, if it does. -/
def receivedList (lib : Library) : Host.Event → Option (List DownloadFileInformation)
  | .completed (.list _) .successful data =>
    match DownloadOperationListFile.decode lib.raw {} data with
    | .done _ listFile _ => some listFile.files
    | .thrown .. => none
  | _ => none

/-- A list that has been received is handed over, and nothing else happens. -/
theorem listFileCompleted_received {lib : Library} {op : Operation} {data : Bytes}
    {checkValue : CheckValue} {status : TransferStatus} {files : List DownloadFileInformation}
    (h : receivedList lib (.completed (.list checkValue) status data) = some files) :
    OperatorDefinedDownloadOperation.listFileCompleted lib op status data =
      Operation.emit { op with listFileOperation := false } (.downloadingList files) := by
  cases status with
  | successful =>
    simp only [receivedList] at h
    split at h
    case h_1 listFile _ hdecode =>
      cases h
      simp [OperatorDefinedDownloadOperation.listFileCompleted, hdecode]
    case h_2 => cases h
  | _ => cases h

theorem aside_listFileCompleted {lib : Library} (op : Operation) {data : Bytes}
    {checkValue : CheckValue} {status : TransferStatus}
    (h : receivedList lib (.completed (.list checkValue) status data) = none) :
    Aside (OperatorDefinedDownloadOperation.listFileCompleted lib op status data).2 := by
  unfold OperatorDefinedDownloadOperation.listFileCompleted
  dsimp only
  split
  · exact aside_doAbort _ _
  next hstatus =>
    obtain rfl : status = .successful := not_not.mp hstatus
    simp only [receivedList] at h
    split at h
    case h_1 => cases h
    case h_2 failure _ hdecode =>
      rw [hdecode]
      cases failure with
      | exception _ => exact aside_doAbort _ _
      | overrun => exact .nil

theorem aside_callback {lib : Library} {w v : World} {event : Host.Event} {r : Host.Reaction}
    (hkind : w.operation.kind = .operatorDefinedDownload)
    (h : w.callback lib event = some (v, r)) (hnone : receivedList lib event = none) :
    Aside r.2 := by
  cases World.runs_of_callback h with
  | abort | terminate | send | throws => cases h
  | tftpRequest remote requestType filename options =>
    exact aside_tftpRequest _ remote requestType filename options
  | deferred => exact .single rfl
  | completed transfer status data =>
    cases transfer with
    | initialisation => exact aside_initialisationFileCompleted lib _ status data
    | status operation => exact aside_statusFileCompleted lib _ hkind _ status data
    | request => exact aside_requestCompleted _ hkind status
    | list checkValue =>
      simp only [World.complete, Operation.listFileCompleted, hkind]
      exact aside_listFileCompleted _ hnone
  | timerElapses => exact .nil
  | timerHandler result =>
    cases result with
    | operationAborted => exact .nil
    | expired | error => exact aside_finished _ _ _

/-- An operation that has received a list hands it over, and does nothing else. -/
theorem list_callback {lib : Library} {w v : World} {event : Host.Event} {r : Host.Reaction}
    {files : List DownloadFileInformation} (hkind : w.operation.kind = .operatorDefinedDownload)
    (h : w.callback lib event = some (v, r)) (hlist : receivedList lib event = some files) :
    r = Operation.emit { w.operation with listFileOperation := false }
      (.downloadingList files) := by
  cases event with
  | completed transfer status data =>
    obtain ⟨loop, -, h⟩ := Option.map_eq_some_iff.mp h
    cases h
    cases transfer with
    | list checkValue =>
      have hcomplete : World.complete lib (.list checkValue) status data w.operation =
          OperatorDefinedDownloadOperation.listFileCompleted lib w.operation status data := by
        simp only [World.complete, Operation.listFileCompleted, hkind]
      rw [hcomplete]
      exact listFileCompleted_received hlist
    | _ => cases hlist
  | _ => cases hlist

/-! ## Answer files -/

theorem length_filenames (raw : RawDataCodec) (names : List Text) :
    names.length ≤ (names.map (stringBytes raw)).flatten.length ∧
      ((names.map (stringBytes raw)).flatten.length = names.length →
        ∀ name ∈ names, name = []) := by
  induction names with
  | nil => exact ⟨Nat.le_refl 0, fun _ => List.forall_mem_nil _⟩
  | cons name names ih =>
    obtain ⟨hle, hempty⟩ := ih
    have hpos := stringSize_pos name
    simp only [List.map_cons, List.flatten_cons, List.length_append, length_stringBytes,
      List.length_cons]
    refine ⟨by omega, fun h => List.forall_mem_cons.mpr ⟨?_, hempty (by omega)⟩⟩
    -- only an empty string takes up a single byte
    have hone : stringSize name = 1 := by omega
    unfold stringSize at hone
    split at hone
    case isTrue hname => exact List.isEmpty_iff.mp hname
    case isFalse => omega

/-- The file is the answer that asks for these files. -/
def Encodes (lib : Library) (names : List Text) (data : Bytes) : Prop :=
  ∃ protocolVersion, DownloadOperationAnswerFile.encode lib.raw
    { protocolVersion := protocolVersion, files := names } = .ok data

theorem Encodes.fits {lib : Library} {names : List Text} {data : Bytes}
    (h : Encodes lib names data) : FilenamesFit names := by
  obtain ⟨protocolVersion, h⟩ := h
  exact (DownloadOperationAnswerFile.encode_ok_iff lib.raw _).mp ⟨data, h⟩

theorem Encodes.length_eq {lib : Library} {names : List Text} {data : Bytes}
    (h : Encodes lib names data) :
    data.length = 8 + (names.map (stringBytes lib.raw)).flatten.length := by
  have hfits := h.fits
  have hwritten : ∀ name ∈ names, stringEncode lib.raw name = .ok (stringBytes lib.raw name) :=
    fun name hname => stringEncode_short lib.raw (hfits.filename name hname)
  obtain ⟨protocolVersion, h⟩ := h
  unfold DownloadOperationAnswerFile.encode at h
  rw [encodeList_ok lib.raw hfits.count hwritten] at h
  cases h
  rw [length_written, listBytes, List.length_append, lib.raw.uint16.length_encode]
  omega

/-- Empty names are as many as they were, and short enough for an answer. -/
theorem filenamesFit_empty {names : List Text} :
    FilenamesFit (names.map fun _ => []) ↔ ¬65535 < names.length := by
  rw [Nat.not_lt]
  constructor
  · intro h
    simpa using h.count
  · intro h
    refine ⟨by simpa using h, fun name hname => ?_⟩
    obtain ⟨_, -, rfl⟩ := List.mem_map.mp hname
    exact Nat.zero_le _

theorem map_empty_eq_self {names : List Text} (h : ∀ name ∈ names, name = []) :
    (names.map fun _ => []) = names := by
  conv_rhs => rw [← List.map_id names]
  exact List.map_congr_left fun name hname => (h name hname).symm

/-- An answer that asks for files without names asks for the files of the user only if these have
no names. -/
theorem empty_of_encodes {lib : Library} {names : List Text} {data : Bytes}
    (hempty : Encodes lib (names.map fun _ => []) data) (h : Encodes lib names data) :
    ∀ name ∈ names, name = [] := by
  refine (length_filenames lib.raw names).2 ?_
  have hlength : ((names.map fun _ => []).map (stringBytes lib.raw)).flatten.length =
      names.length := by
    simp [List.length_flatten, length_stringBytes, stringSize]
  have hfirst := hempty.length_eq
  have hsecond := h.length_eq
  omega

/-! ## What is seen of the command -/

namespace OperatorDefinedDownload

/-- The files to ask for: those of the list, or those of the user. -/
def requested (downloadAll : Bool) (files : List DownloadFileInformation)
    (requestedFiles : List Text) : List Text :=
  if downloadAll then files.map (·.filename) else requestedFiles

def listed : Command.Observation → Option (List DownloadFileInformation)
  | .call _ (.downloadingList files) => some files
  | _ => none

/-- The answers that are transmitted: each one is the file with the names that the user requested,
or with those of the list just received. -/
def AnswersFaithful (lib : Library) (downloadAll : Bool) (requestedFiles : List Text)
    (out : List Command.Observation) : Prop :=
  ∀ pre now filename data post,
    out = pre ++ .call now (.transmitFile .operatorDefinedDownloadAnswer filename data) :: post →
    ∃ files ∈ (pre.filterMap listed).getLast?,
      Encodes lib (requested downloadAll files requestedFiles) data

/-- A list, or a transmitted file. -/
def seen : Command.Observation → Bool
  | .call _ o => exchanged o
  | _ => false

theorem seen_map {now : Nat} {out : List Output} (h : Aside out) :
    ∀ o ∈ out.map (Command.Observation.call now), seen o = false := by
  intro o ho
  obtain ⟨call, hcall, rfl⟩ := List.mem_map.mp ho
  exact h call hcall

theorem listed_of_unseen {o : Command.Observation} (h : seen o = false) : listed o = none := by
  unfold listed
  split
  · cases h
  · rfl

section Faithful

variable {lib : Library} {downloadAll : Bool} {requestedFiles : List Text}
  {before out : List Command.Observation}

theorem AnswersFaithful.of_append
    (h : AnswersFaithful lib downloadAll requestedFiles (before ++ out)) :
    AnswersFaithful lib downloadAll requestedFiles before := by
  rintro pre now filename data post rfl
  exact h pre now filename data (post ++ out) (by simp)

theorem answersFaithful_append_unseen (hunseen : ∀ o ∈ out, seen o = false) :
    AnswersFaithful lib downloadAll requestedFiles (before ++ out) ↔
      AnswersFaithful lib downloadAll requestedFiles before := by
  refine ⟨.of_append, fun h pre now filename data post hout => ?_⟩
  rcases List.append_eq_append_iff.mp hout with ⟨as, rfl, heq⟩ | ⟨bs, rfl, heq⟩
  · -- the answer would be one of the calls that are unseen
    have hmem : .call now (.transmitFile .operatorDefinedDownloadAnswer filename data) ∈ out := by
      simp [heq]
    cases hunseen _ hmem
  · cases bs with
    | nil =>
      have hmem : .call now (.transmitFile .operatorDefinedDownloadAnswer filename data) ∈ out := by
        simp [← show _ = out from heq]
      cases hunseen _ hmem
    | cons b bs =>
      cases heq
      exact h pre now filename data bs rfl

/-- A list is handed over, and answered or not. -/
theorem answersFaithful_append_list {now : Nat} {files : List DownloadFileInformation}
    (hlisted : ∀ o ∈ out, listed o = none) :
    AnswersFaithful lib downloadAll requestedFiles
        (before ++ .call now (.downloadingList files) :: out) ↔
      AnswersFaithful lib downloadAll requestedFiles before ∧
        ∀ now filename data,
          .call now (.transmitFile .operatorDefinedDownloadAnswer filename data) ∈ out →
          Encodes lib (requested downloadAll files requestedFiles) data := by
  have hlast : ∀ pre : List Command.Observation, (∀ o ∈ pre, listed o = none) →
      ((before ++ .call now (.downloadingList files) :: pre).filterMap listed).getLast? =
        some files := by
    intro pre hpre
    rw [List.filterMap_append]
    show (_ ++ files :: pre.filterMap listed).getLast? = some files
    rw [List.filterMap_eq_nil_iff.mpr hpre, List.getLast?_concat]
  constructor
  · refine fun h => ⟨h.of_append, fun now' filename data hmem => ?_⟩
    obtain ⟨pre, post, rfl⟩ := List.append_of_mem hmem
    obtain ⟨files', hfiles, hencodes⟩ := h (before ++ .call now (.downloadingList files) :: pre)
      now' filename data post (by simp)
    rw [hlast pre fun o ho => hlisted o (List.mem_append_left _ ho)] at hfiles
    cases hfiles
    exact hencodes
  · rintro ⟨hbefore, hanswers⟩ pre now' filename data post hout
    rcases List.append_eq_append_iff.mp hout with ⟨as, rfl, heq⟩ | ⟨bs, rfl, heq⟩
    · cases as with
      | nil => cases heq
      | cons a as =>
        obtain ⟨rfl, rfl⟩ := List.cons.inj heq
        refine ⟨files, ?_, hanswers now' filename data (by simp)⟩
        exact hlast as fun o ho => hlisted o (List.mem_append_left _ ho)
    · cases bs with
      | nil => cases heq
      | cons b bs =>
        obtain ⟨rfl, rfl⟩ := List.cons.inj heq
        exact hbefore pre now' filename data bs rfl

end Faithful

/-! ## Steps -/

open Arinc615a.Commands.Command

/-- No list is received, and none is answered. -/
structure Kept (command command' : Command OperatorDefinedDownloadMembers)
    (out : List Command.Observation) : Prop where
  kind : command'.operation.operation.kind = command.operation.operation.kind
  requestedFiles : command'.members.requestedFiles = command.members.requestedFiles
  unseen : ∀ o ∈ out, seen o = false

section Steps

variable (lib : Library) (paths : PathLibrary) (downloadDataPath : Text) (downloadAll : Bool)
  (now : Nat) (command : Command OperatorDefinedDownloadMembers)

theorem kept_abort (reason : AbortReason) :
    Kept command (command.abort now reason).command (command.abort now reason).out :=
  ⟨(Operation.apart_doAbort _ reason).kept.kind, rfl,
    List.forall_mem_cons.mpr ⟨rfl, seen_map (aside_doAbort _ reason)⟩⟩

theorem kept_handler {o : Output} (ho : exchanged o = false) :
    let r := handler lib (operatorDefinedDownloadHandler paths downloadDataPath downloadAll) now
      command o
    Kept command r.command r.out := by
  cases o with
  | downloadingList | transmitFile => cases ho
  | fileRequest | finished => exact ⟨rfl, rfl, List.forall_mem_singleton.mpr rfl⟩
  | _ => exact ⟨rfl, rfl, List.forall_mem_nil _⟩

theorem kept_deliverAll {calls : List Output} (hcalls : Aside calls) :
    let r := deliverAll lib (operatorDefinedDownloadHandler paths downloadDataPath downloadAll) now
      calls command
    Kept command r.command r.out := by
  induction calls generalizing command with
  | nil => exact ⟨rfl, rfl, List.forall_mem_nil _⟩
  | cons o calls ih =>
    obtain ⟨ho, hrest⟩ := List.forall_mem_cons.mp hcalls
    have hcall := kept_handler lib paths downloadDataPath downloadAll now
      { command with operation := command.operation.perform o } ho
    unfold deliverAll
    dsimp only
    split
    · exact ⟨hcall.kind, hcall.requestedFiles, List.forall_mem_cons.mpr ⟨ho, hcall.unseen⟩⟩
    · have hnext := ih (handler lib
        (operatorDefinedDownloadHandler paths downloadDataPath downloadAll) now
        { command with operation := command.operation.perform o } o).command hrest
      exact ⟨hnext.kind.trans hcall.kind, hnext.requestedFiles.trans hcall.requestedFiles,
        List.forall_mem_cons.mpr ⟨ho, List.forall_mem_append.mpr ⟨hcall.unseen, hnext.unseen⟩⟩⟩

theorem kept_run {r : Host.Reaction} (w : World)
    (hkind : r.1.kind = command.operation.operation.kind) (hcalls : Aside r.2) :
    let r := command.run lib (operatorDefinedDownloadHandler paths downloadDataPath downloadAll) now
      w r
    Kept command r.command r.out := by
  have hdelivered := kept_deliverAll lib paths downloadDataPath downloadAll now
    { command with operation := { w with operation := r.1 } } hcalls
  exact ⟨hdelivered.kind.trans hkind, hdelivered.requestedFiles, hdelivered.unseen⟩

theorem answer_cases (op : Operation) (files : List Text) :
    let file : DownloadOperationAnswerFile :=
      { protocolVersion := op.protocolVersion, files := files }
    (op.sent = true ∧ OperatorDefinedDownloadOperation.answer lib op files = .ok (op, [])) ∨
      (op.sent = false ∧ ∃ data, DownloadOperationAnswerFile.encode lib.raw file = .ok data ∧
        OperatorDefinedDownloadOperation.answer lib op files =
          .ok (op, [.transmitFile .operatorDefinedDownloadAnswer
            (op.protocolFilename .operatorDefinedDownloadAnswer) data, .transferStart .request])) ∨
      (op.sent = false ∧ ∃ e, DownloadOperationAnswerFile.encode lib.raw file = .error e ∧
        OperatorDefinedDownloadOperation.answer lib op files = .error e) := by
  intro file
  unfold OperatorDefinedDownloadOperation.answer
  cases hsent : op.sent with
  | true => exact .inl ⟨rfl, rfl⟩
  | false =>
    right
    cases DownloadOperationAnswerFile.encode lib.raw
        { protocolVersion := op.protocolVersion, files := files } with
    | ok data => exact .inl ⟨rfl, data, rfl, rfl⟩
    | error e => exact .inr ⟨rfl, e, rfl, rfl⟩

/-- What a list leaves of the command, and what it is answered with. -/
structure Handled (files : List DownloadFileInformation)
    (command' : Command OperatorDefinedDownloadMembers) (out : List Command.Observation) :
    Prop where
  kind : command'.operation.operation.kind = command.operation.operation.kind
  requestedFiles : command'.members.requestedFiles =
    (requested downloadAll files command.members.requestedFiles).map fun _ => []
  listed : ∀ o ∈ out, listed o = none
  answered : ∀ data, (∃ now filename,
      .call now (.transmitFile .operatorDefinedDownloadAnswer filename data) ∈ out) ↔
    command.operation.operation.sent = false ∧
      requested downloadAll files command.members.requestedFiles ≠ [] ∧
        DownloadOperationAnswerFile.encode lib.raw
          { protocolVersion := command.operation.operation.protocolVersion
            files := requested downloadAll files command.members.requestedFiles } = .ok data

/-- The command gives up if there is nothing to ask for. -/
theorem handler_list (files : List DownloadFileInformation) :
    handler lib (operatorDefinedDownloadHandler paths downloadDataPath downloadAll) now command
        (.downloadingList files) =
      let names := requested downloadAll files command.members.requestedFiles
      if names = [] then
        abort now { command with members := { command.members with requestedFiles := [] } }
          .operator
      else
        demand lib (operatorDefinedDownloadHandler paths downloadDataPath downloadAll) now
          { command with members :=
            { requestedFiles := names.map fun _ => []
              downloadInformation :=
                { command.members.downloadInformation with files := names } } }
          (.send (.answer names)) := by
  have hcalled : (operatorDefinedDownloadHandler paths downloadDataPath downloadAll).called now
      command.members (.downloadingList files) =
        let names := requested downloadAll files command.members.requestedFiles
        if names = [] then ({ command.members with requestedFiles := [] }, .abort)
        else
          ({ requestedFiles := names.map fun _ => []
             downloadInformation := { command.members.downloadInformation with files := names } },
            .send (.answer names)) := rfl
  unfold handler
  dsimp only
  rw [hcalled]
  dsimp only
  split <;> rfl

theorem handled_list (hkind : command.operation.operation.kind = .operatorDefinedDownload)
    (files : List DownloadFileInformation) :
    let r := handler lib (operatorDefinedDownloadHandler paths downloadDataPath downloadAll) now
      command (.downloadingList files)
    Handled lib downloadAll command files r.command r.out := by
  have hunanswered : ∀ {out : List Command.Observation}, (∀ o ∈ out, seen o = false) →
      ∀ data, ¬∃ now filename,
        .call now (.transmitFile .operatorDefinedDownloadAnswer filename data) ∈ out := by
    rintro out hunseen data ⟨now, filename, hmem⟩
    cases hunseen _ hmem
  rw [handler_list]
  dsimp only
  generalize hnames : requested downloadAll files command.members.requestedFiles = names
  split
  case isTrue hnone =>
    have hkept := kept_abort now
      { command with members := { command.members with requestedFiles := [] } } .operator
    refine ⟨hkept.kind, ?_, fun o ho => listed_of_unseen (hkept.unseen o ho), fun data =>
      iff_of_false (hunanswered hkept.unseen data) fun h => h.2.1 (hnames.trans hnone)⟩
    rw [hkept.requestedFiles, hnames, hnone]
    rfl
  case isFalse hnone =>
    have hsend : command.operation.operation.send lib (.answer names) =
        some (OperatorDefinedDownloadOperation.answer lib command.operation.operation names) := by
      unfold Operation.send
      rw [hkind]
    unfold demand
    dsimp only
    rw [hsend]
    rcases answer_cases lib command.operation.operation names with
      ⟨hsent, hanswer⟩ | ⟨hsent, data, hencode, hanswer⟩ | ⟨hsent, e, hencode, hanswer⟩
    · -- nothing is sent again
      rw [hanswer]
      have hunseen : ∀ o ∈ [Command.Observation.send (.answer names) true], seen o = false :=
        List.forall_mem_singleton.mpr rfl
      refine ⟨rfl, by rw [hnames]; rfl, fun o ho => listed_of_unseen (hunseen o ho), fun data =>
        iff_of_false (hunanswered hunseen data) fun h => ?_⟩
      exact absurd (h.1.symm.trans hsent) (by decide)
    · rw [hanswer]
      refine ⟨rfl, by rw [hnames]; rfl, ?_, fun data' => ?_⟩
      · simp [react, listed]
      · rw [hnames, hencode]
        simp [react, hsent, hnone, eq_comm]
    · -- the exception leaves the handler, and the operation aborts
      rw [hanswer]
      have hunseen : ∀ o ∈ Command.Observation.send (.answer names) false ::
          (command.operation.operation.doAbort .protocol).2.map (.call now), seen o = false :=
        List.forall_mem_cons.mpr ⟨rfl, seen_map (aside_doAbort _ _)⟩
      refine ⟨(Operation.apart_doAbort _ _).kept.kind, by rw [hnames]; rfl,
        fun o ho => listed_of_unseen (hunseen o ho), fun data =>
          iff_of_false (hunanswered hunseen data) fun h => ?_⟩
      have hencoded := h.2.2
      rw [hnames, hencode] at hencoded
      cases hencoded

/-- The event hands over a list. -/
def received (lib : Library) : Nat × Command.Event → Option (List DownloadFileInformation)
  | (_, .operation event) => receivedList lib event
  | _ => none

theorem step_kept {e : Nat × Command.Event} {command' : Command OperatorDefinedDownloadMembers}
    {out : List Command.Observation}
    (hkind : command.operation.operation.kind = .operatorDefinedDownload)
    (hstep : (commandSystem lib
      (operatorDefinedDownloadHandler paths downloadDataPath downloadAll)).step command e =
        some (command', out))
    (hnone : received lib e = none) : Kept command command' out := by
  obtain ⟨now, event⟩ := e
  have hstep : command.step lib
      (operatorDefinedDownloadHandler paths downloadDataPath downloadAll) now event =
        some (command', out) := hstep
  cases event with
  | execute result =>
    simp only [Command.step] at hstep
    split at hstep
    · cases hstep
    · cases hstep
      exact ⟨(Operation.configured_start _ result).kind, rfl, seen_map (aside_start _ result)⟩
  | operation event =>
    obtain ⟨⟨w, reaction⟩, hcallback, heq⟩ := Option.map_eq_some_iff.mp hstep
    cases heq
    exact kept_run lib paths downloadDataPath downloadAll now command w
      (World.kind_callback hcallback) (aside_callback hkind hcallback hnone)
  | abortSignal =>
    cases hstep
    exact ⟨(Operation.apart_doAbort _ _).kept.kind, rfl, seen_map (aside_doAbort _ _)⟩
  | terminateSignal =>
    cases hstep
    exact kept_run lib paths downloadDataPath downloadAll now command _
      (Operation.apart_doTerminate _ _).kept.kind (aside_doTerminate _ _)
  | fileCompleted operation result =>
    simp only [Command.step] at hstep
    split at hstep
    case isTrue hmem =>
      cases hstep
      unfold fileCompleted
      dsimp only
      split
      · have hkept := kept_abort now command .protocol
        exact ⟨hkept.kind, rfl, List.forall_mem_cons.mpr ⟨rfl, hkept.unseen⟩⟩
      · exact ⟨rfl, rfl, List.forall_mem_singleton.mpr rfl⟩
    case isFalse => cases hstep

/-- A step hands over the list that it has received, and the command answers. -/
theorem step_handled {e : Nat × Command.Event}
    {command' : Command OperatorDefinedDownloadMembers} {out : List Command.Observation}
    {files : List DownloadFileInformation}
    (hkind : command.operation.operation.kind = .operatorDefinedDownload)
    (hstep : (commandSystem lib
      (operatorDefinedDownloadHandler paths downloadDataPath downloadAll)).step command e =
        some (command', out))
    (hlist : received lib e = some files) :
    ∃ now answer, out = .call now (.downloadingList files) :: answer ∧
      Handled lib downloadAll command files command' answer := by
  obtain ⟨now, event⟩ := e
  cases event with
  | operation event =>
    obtain ⟨⟨w, reaction⟩, hcallback, heq⟩ := Option.map_eq_some_iff.mp hstep
    obtain rfl := list_callback hkind hcallback hlist
    let v : World := { w with
      operation := { command.operation.operation with listFileOperation := false } }
    let handing : Command OperatorDefinedDownloadMembers :=
      { command with operation := v.perform (.downloadingList files) }
    let r := handler lib (operatorDefinedDownloadHandler paths downloadDataPath downloadAll) now
      handing (.downloadingList files)
    have hhandled : Handled lib downloadAll handing files r.command r.out :=
      handled_list lib paths downloadDataPath downloadAll now handing hkind files
    have hrun : (command.run lib
        (operatorDefinedDownloadHandler paths downloadDataPath downloadAll) now w
        (Operation.emit { command.operation.operation with listFileOperation := false }
          (.downloadingList files))).command = r.command ∧
        (command.run lib (operatorDefinedDownloadHandler paths downloadDataPath downloadAll) now w
          (Operation.emit { command.operation.operation with listFileOperation := false }
            (.downloadingList files))).out = .call now (.downloadingList files) :: r.out := by
      unfold Command.run Operation.emit deliverAll
      dsimp only
      split
      · exact ⟨rfl, rfl⟩
      · exact ⟨rfl, congrArg _ (List.append_nil _)⟩
    obtain ⟨rfl, rfl⟩ := Prod.mk.inj heq
    rw [hrun.1, hrun.2]
    exact ⟨now, r.out, rfl, hhandled.kind, hhandled.requestedFiles, hhandled.listed,
      hhandled.answered⟩
  | _ => cases hlist

end Steps
/-! ## Runs -/

section Runs

variable {lib : Library} {paths : PathLibrary} {downloadDataPath : Text} {downloadAll : Bool}
  {command command' : Command OperatorDefinedDownloadMembers}

/-- The requested names that are left behind a step. -/
theorem step_requestedFiles {e : Nat × Command.Event} {out : List Command.Observation}
    (hkind : command.operation.operation.kind = .operatorDefinedDownload)
    (hstep : (commandSystem lib
      (operatorDefinedDownloadHandler paths downloadDataPath downloadAll)).step command e =
        some (command', out)) :
    command'.operation.operation.kind = .operatorDefinedDownload ∧
      (downloadAll = false → command'.members.requestedFiles =
        if (received lib e).isSome then command.members.requestedFiles.map fun _ => []
        else command.members.requestedFiles) := by
  cases hreceived : received lib e with
  | none =>
    have hkept := step_kept lib paths downloadDataPath downloadAll command hkind hstep hreceived
    exact ⟨hkept.kind.trans hkind, fun _ => hkept.requestedFiles⟩
  | some files =>
    obtain ⟨now, answer, -, hhandled⟩ :=
      step_handled lib paths downloadDataPath downloadAll command hkind hstep hreceived
    refine ⟨hhandled.kind.trans hkind, ?_⟩
    rintro rfl
    exact hhandled.requestedFiles

/-- In a run the requested names are left as they are until the first list, and empty from then
on. -/
theorem run_requestedFiles {events : List (Nat × Command.Event)} {out : List Command.Observation}
    (hkind : command.operation.operation.kind = .operatorDefinedDownload)
    (hrun : (commandSystem lib
      (operatorDefinedDownloadHandler paths downloadDataPath downloadAll)).run command events =
        some (command', out))
    (hown : downloadAll = false) :
    command'.members.requestedFiles =
      if ∃ e ∈ events, (received lib e).isSome then
        command.members.requestedFiles.map fun _ => []
      else command.members.requestedFiles := by
  induction events generalizing command out with
  | nil =>
    cases hrun
    exact (if_neg (by simp)).symm
  | cons e events ih =>
    obtain ⟨command₁, out₁, out₂, hstep, hrest, -⟩ := Reactive.run_cons _ hrun
    obtain ⟨hkind₁, hrequested⟩ := step_requestedFiles hkind hstep
    rw [ih hkind₁ hrest, hrequested hown]
    by_cases hfirst : (received lib e).isSome
    · have hsome : ∃ e' ∈ e :: events, (received lib e').isSome :=
        ⟨e, List.mem_cons_self .., hfirst⟩
      rw [if_pos hfirst, if_pos hsome]
      -- what has been emptied stays so
      split
      · rw [List.map_map]
        rfl
      · rfl
    · have hlater : (∃ e' ∈ e :: events, (received lib e').isSome) ↔
          ∃ e' ∈ events, (received lib e').isSome := by
        simp only [List.mem_cons, exists_eq_or_imp, or_iff_right hfirst]
      simp only [hlater, if_neg hfirst]

/-- If this event hands over a list that is answered, the answer has the right names. -/
def Answerable (lib : Library) (downloadAll : Bool) (requestedFiles : List Text)
    (command : Command OperatorDefinedDownloadMembers) (e : Nat × Command.Event) : Prop :=
  ∀ files, received lib e = some files → command.operation.operation.sent = false →
    requested downloadAll files command.members.requestedFiles ≠ [] →
    ∀ data, DownloadOperationAnswerFile.encode lib.raw
        { protocolVersion := command.operation.operation.protocolVersion
          files := requested downloadAll files command.members.requestedFiles } = .ok data →
      Encodes lib (requested downloadAll files requestedFiles) data

theorem step_faithful_iff {requestedFiles : List Text} {e : Nat × Command.Event}
    {past out : List Command.Observation}
    (hkind : command.operation.operation.kind = .operatorDefinedDownload)
    (hstep : (commandSystem lib
      (operatorDefinedDownloadHandler paths downloadDataPath downloadAll)).step command e =
        some (command', out)) :
    AnswersFaithful lib downloadAll requestedFiles (past ++ out) ↔
      AnswersFaithful lib downloadAll requestedFiles past ∧
        Answerable lib downloadAll requestedFiles command e := by
  unfold Answerable
  cases hreceived : received lib e with
  | none =>
    have hkept := step_kept lib paths downloadDataPath downloadAll command hkind hstep hreceived
    rw [answersFaithful_append_unseen hkept.unseen]
    exact (and_iff_left fun _ h => nomatch h).symm
  | some files =>
    obtain ⟨now, answer, rfl, hhandled⟩ :=
      step_handled lib paths downloadDataPath downloadAll command hkind hstep hreceived
    rw [answersFaithful_append_list hhandled.listed]
    refine and_congr_right' ⟨?_, ?_⟩
    · rintro h _ hfiles hsent hne data hencode
      cases hfiles
      obtain ⟨now', filename, hmem⟩ := (hhandled.answered data).mpr ⟨hsent, hne, hencode⟩
      exact h now' filename data hmem
    · intro h now' filename data hmem
      obtain ⟨hsent, hne, hencode⟩ := (hhandled.answered data).mp ⟨now', filename, hmem⟩
      exact h files rfl hsent hne data hencode

/-- Behind a list the names are gone, so the next answer would be a wrong one. -/
theorem answerable_iff {pre : List (Nat × Command.Event)} (e : Nat × Command.Event)
    {out : List Command.Observation}
    (hkind : command.operation.operation.kind = .operatorDefinedDownload)
    (hrun : (commandSystem lib
      (operatorDefinedDownloadHandler paths downloadDataPath downloadAll)).run command pre =
        some (command', out)) :
    Answerable lib downloadAll command.members.requestedFiles command' e ↔
      (downloadAll = true ∨ (∀ name ∈ command.members.requestedFiles, name = []) ∨
        65535 < command.members.requestedFiles.length) ∨
      ((∃ earlier ∈ pre, (received lib earlier).isSome) → (received lib e).isSome →
        command'.operation.operation.sent = true) := by
  unfold Answerable
  cases hown : downloadAll with
  | true => exact iff_of_true (fun files _ _ _ data hencode => ⟨_, hencode⟩) (.inl (.inl rfl))
  | false =>
    have hrequested := run_requestedFiles hkind hrun hown
    simp only [requested, hrequested, Bool.false_eq_true, if_false, false_or]
    by_cases hearlier : ∃ earlier ∈ pre, (received lib earlier).isSome
    · simp only [if_pos hearlier]
      constructor
      · intro h
        by_contra hwrong
        simp only [not_or, Classical.not_imp] at hwrong
        obtain ⟨⟨hnames, hcount⟩, -, hlist, hsent⟩ := hwrong
        obtain ⟨files, hfiles⟩ := Option.isSome_iff_exists.mp hlist
        obtain ⟨data, hencode⟩ := (DownloadOperationAnswerFile.encode_ok_iff lib.raw
          { protocolVersion := command'.operation.operation.protocolVersion
            files := command.members.requestedFiles.map fun _ => [] }).mpr
              (filenamesFit_empty.mpr hcount)
        have hencodes := h files hfiles (eq_false_of_ne_true hsent) (fun hnil => ?_) data hencode
        · exact hnames (empty_of_encodes ⟨_, hencode⟩ hencodes)
        · rw [List.map_eq_nil_iff.mp hnil] at hnames
          exact hnames (List.forall_mem_nil _)
      · rintro ((hnames | hcount) | hsent) files hfiles hunsent - data hencode
        · rw [map_empty_eq_self hnames] at hencode
          exact ⟨_, hencode⟩
        · have hencodes : Encodes lib (command.members.requestedFiles.map fun _ => []) data :=
            ⟨_, hencode⟩
          exact absurd hcount (filenamesFit_empty.mp hencodes.fits)
        · have hlist : (received lib e).isSome := by rw [hfiles]; rfl
          exact absurd (hunsent.symm.trans (hsent hearlier hlist)) (by decide)
    · rw [if_neg hearlier]
      exact iff_of_true (fun files _ _ _ data hencode => ⟨_, hencode⟩)
        (.inr fun h => absurd h hearlier)

/-- The first three conditions do not look at the run. -/
theorem throughout_answerable_iff
    (hkind : command.operation.operation.kind = .operatorDefinedDownload)
    (events : List (Nat × Command.Event)) :
    (commandSystem lib
        (operatorDefinedDownloadHandler paths downloadDataPath downloadAll)).Throughout
        (Answerable lib downloadAll command.members.requestedFiles) command events ↔
      downloadAll = true ∨ (∀ name ∈ command.members.requestedFiles, name = []) ∨
        65535 < command.members.requestedFiles.length ∨
        ∀ pre event post before out₁, events = pre ++ event :: post →
          (commandSystem lib
              (operatorDefinedDownloadHandler paths downloadDataPath downloadAll)).run command pre =
            some (before, out₁) →
          (∃ earlier ∈ pre, (received lib earlier).isSome) → (received lib event).isSome →
            before.operation.operation.sent = true := by
  by_cases hplain : downloadAll = true ∨ (∀ name ∈ command.members.requestedFiles, name = []) ∨
      65535 < command.members.requestedFiles.length
  · refine iff_of_true (fun pre event post before out₁ _ hpre => ?_) ?_
    · exact (answerable_iff event hkind hpre).mpr (.inl hplain)
    · exact hplain.imp_right fun h => h.imp_right .inl
  · obtain ⟨hall, hnames, hcount⟩ : ¬downloadAll = true ∧
        (¬∀ name ∈ command.members.requestedFiles, name = []) ∧
        ¬65535 < command.members.requestedFiles.length := by
      simpa only [not_or] using hplain
    rw [or_iff_right hall, or_iff_right hnames, or_iff_right hcount]
    constructor
    · intro h pre event post before out₁ hes hpre
      have hanswerable := h pre event post before out₁ hes hpre
      exact ((answerable_iff event hkind hpre).mp hanswerable).resolve_left hplain
    · intro h pre event post before out₁ hes hpre
      exact (answerable_iff event hkind hpre).mpr (.inr (h pre event post before out₁ hes hpre))

end Runs

/-- The answers that are transmitted in a run have the right names exactly if all files are asked
for, or no requested name is there to be emptied, or there are too many of them for an answer, or
each list behind the first one comes when an answer has been transmitted. -/
theorem answers_faithful_iff {lib : Library} {paths : PathLibrary} {downloadDataPath : Text}
    {downloadAll : Bool} {requestedFiles : List Text} {targetId : TargetId} {dlpTimeout : Nat}
    {portOption : Bool} {events : List (Nat × Command.Event)}
    {command : Command OperatorDefinedDownloadMembers} {out : List Command.Observation}
    (hrun : (commandSystem lib
        (operatorDefinedDownloadHandler paths downloadDataPath downloadAll)).run
      (created { requestedFiles := requestedFiles } .operatorDefinedDownload targetId dlpTimeout
        portOption) events = some (command, out)) :
    AnswersFaithful lib downloadAll requestedFiles out ↔
      downloadAll = true ∨ (∀ name ∈ requestedFiles, name = []) ∨ 65535 < requestedFiles.length ∨
        ∀ pre event post before out₁, events = pre ++ event :: post →
          (commandSystem lib
              (operatorDefinedDownloadHandler paths downloadDataPath downloadAll)).run
            (created { requestedFiles := requestedFiles } .operatorDefinedDownload targetId
              dlpTimeout portOption) pre = some (before, out₁) →
          (∃ earlier ∈ pre, (received lib earlier).isSome) → (received lib event).isSome →
            before.operation.operation.sent = true := by
  let sys := commandSystem lib (operatorDefinedDownloadHandler paths downloadDataPath downloadAll)
  let start : Command OperatorDefinedDownloadMembers :=
    created { requestedFiles := requestedFiles } .operatorDefinedDownload targetId dlpTimeout
      portOption
  have hempty : AnswersFaithful lib downloadAll requestedFiles [] := by
    intro pre now filename data post hout
    simp at hout
  have hall : sys.Throughout (fun _ _ => True) start events :=
    sys.throughout_of_forall fun _ _ _ => trivial
  have hgood : ∀ s past e s' out, s.operation.operation.kind = .operatorDefinedDownload → True →
      sys.step s e = some (s', out) →
        (AnswersFaithful lib downloadAll requestedFiles (past ++ out) ↔
          AnswersFaithful lib downloadAll requestedFiles past ∧
            Answerable lib downloadAll requestedFiles s e) :=
    fun _ _ _ _ _ hkind _ hstep => step_faithful_iff hkind hstep
  have hkeeps : ∀ s e s' out, s.operation.operation.kind = .operatorDefinedDownload → True →
      Answerable lib downloadAll requestedFiles s e → sys.step s e = some (s', out) →
        s'.operation.operation.kind = .operatorDefinedDownload :=
    fun _ _ _ _ hkind _ _ hstep => (step_requestedFiles hkind hstep).1
  have hthroughout : AnswersFaithful lib downloadAll requestedFiles ([] ++ out) ↔
      AnswersFaithful lib downloadAll requestedFiles [] ∧
        sys.Throughout (Answerable lib downloadAll requestedFiles) start events :=
    sys.history_run_iff (fun _ _ => AnswersFaithful.of_append) hgood hkeeps rfl hall hrun
  rw [List.nil_append, and_iff_right hempty] at hthroughout
  rw [hthroughout]
  exact throughout_answerable_iff rfl events

/-- Two lists with the file A arrive; the first one is answered, and the answer transmitted, before
the second one. -/
theorem answers_faithful_iff_transmitted :
    let lib : Library := { raw := .bigEndian, generateCheckValue := fun _ _ => {} }
    let paths : PathLibrary :=
      { append := fun path name => path ++ name, lexicallyNormal := id
        isRegularFile := fun _ => true, normaliseFilename := id }
    let list : Bytes := [0, 0, 0, 12, 0x41, 0x34, 0, 1, 2, 0x41, 0, 0]
    let start : Command OperatorDefinedDownloadMembers :=
      created { requestedFiles := [text "A"] } .operatorDefinedDownload (.ofText (text "ABCD_1")) 10
        false
    let events : List (Nat × Command.Event) :=
      [(0, .execute .started),
        (1, .operation (.completed .initialisation .successful
          [0, 0, 0, 9, 0x41, 0x34, 0, 1, 0])),
        (2, .operation (.tftpRequest ⟨1, 2⟩ .write (text "ABCD_1.LNL") {})),
        (3, .operation (.completed (.list {}) .successful list)),
        (4, .operation (.completed .request .successful [])),
        (5, .operation (.tftpRequest ⟨1, 2⟩ .write (text "ABCD_1.LNL") {})),
        (6, .operation (.completed (.list {}) .successful list))]
    ∃ command out,
      (commandSystem lib (operatorDefinedDownloadHandler paths [] false)).run start events =
        some (command, out) ∧
      (AnswersFaithful lib false [text "A"] out ↔
        false = true ∨ (∀ name ∈ [text "A"], name = []) ∨ 65535 < [text "A"].length ∨
          ∀ pre event post before out₁, events = pre ++ event :: post →
            (commandSystem lib (operatorDefinedDownloadHandler paths [] false)).run start pre =
              some (before, out₁) →
            (∃ earlier ∈ pre, (received lib earlier).isSome) → (received lib event).isSome →
              before.operation.operation.sent = true) :=
  ⟨_, _, rfl, answers_faithful_iff rfl⟩

/-- The user asks for the file A, and the target sends its list again before the answer has been
transmitted: the second answer asks for a file without a name. -/
theorem answer_names_emptied :
    let lib : Library := { raw := .bigEndian, generateCheckValue := fun _ _ => {} }
    let paths : PathLibrary :=
      { append := fun path name => path ++ name, lexicallyNormal := id
        isRegularFile := fun _ => true, normaliseFilename := id }
    let list : Bytes := [0, 0, 0, 12, 0x41, 0x34, 0, 1, 2, 0x41, 0, 0]
    let answer : Bytes := [0, 0, 0, 9, 0x41, 0x34, 0, 1, 0]
    ∃ command out,
      (commandSystem lib (operatorDefinedDownloadHandler paths [] false)).run
          (created { requestedFiles := [text "A"] } .operatorDefinedDownload
            (.ofText (text "ABCD_1")) 10 false)
          [(0, .execute .started),
            (1, .operation (.completed .initialisation .successful
              [0, 0, 0, 9, 0x41, 0x34, 0, 1, 0])),
            (2, .operation (.tftpRequest ⟨1, 2⟩ .write (text "ABCD_1.LNL") {})),
            (3, .operation (.completed (.list {}) .successful list)),
            (5, .operation (.tftpRequest ⟨1, 2⟩ .write (text "ABCD_1.LNL") {})),
            (6, .operation (.completed (.list {}) .successful list))] = some (command, out) ∧
        .call 6 (.transmitFile .operatorDefinedDownloadAnswer (text "ABCD_1.LNA") answer) ∈ out ∧
        ¬AnswersFaithful lib false [text "A"] out := by
  intro lib paths list answer
  have hseen : ((commandSystem lib (operatorDefinedDownloadHandler paths [] false)).run
      (created { requestedFiles := [text "A"] } .operatorDefinedDownload
        (.ofText (text "ABCD_1")) 10 false)
      [(0, .execute .started),
        (1, .operation (.completed .initialisation .successful
          [0, 0, 0, 9, 0x41, 0x34, 0, 1, 0])),
        (2, .operation (.tftpRequest ⟨1, 2⟩ .write (text "ABCD_1.LNL") {})),
        (3, .operation (.completed (.list {}) .successful list)),
        (5, .operation (.tftpRequest ⟨1, 2⟩ .write (text "ABCD_1.LNL") {})),
        (6, .operation (.completed (.list {}) .successful list))]).map (fun r =>
          decide (.call 6 (.transmitFile .operatorDefinedDownloadAnswer (text "ABCD_1.LNA")
            answer) ∈ r.2)) = some true := by
    decide +kernel
  obtain ⟨⟨command, out⟩, hrun, hmem⟩ := Option.map_eq_some_iff.mp hseen
  have hanswer := of_decide_eq_true hmem
  refine ⟨command, out, hrun, hanswer, fun hfaithful => ?_⟩
  obtain ⟨pre, post, hout⟩ := List.append_of_mem hanswer
  obtain ⟨files, -, hencodes⟩ := hfaithful pre 6 _ answer post hout
  have hencodes : Encodes lib [text "A"] answer := hencodes
  -- an answer with the name of the file would be longer
  have hlength := hencodes.length_eq
  exact absurd hlength (by decide)

end OperatorDefinedDownload

end Arinc615a.Commands
