import Arinc615a.Commands.Handlers

/-!
# The information about a download

The commands for downloads note which files come and how they end, in a map that is sorted by the
names.  An abstract ledger is kept from nothing but what is seen of a command, and the map says the
same after every run.
-/

open Reasoning

namespace Arinc615a.Commands

open Files Information Tftp Host

/-- What there is to say about a download. -/
structure Ledger where
  files : List Text := []
  /-- The files whose transfers have been started. -/
  names : Finset Text := ∅
  entry : Text → Option FileTransferInformation := fun _ => none
  ended : Nat := 0
  overallStatus : Text × Nat := ([], 0)

namespace Ledger

/-- The sizes of all files, where none is known of a file that has not ended. -/
def size (ledger : Ledger) : Nat :=
  ∑ name ∈ ledger.names, ((ledger.entry name).map (·.fileSize)).getD 0

def start (ledger : Ledger) (now : Nat) (operation : FileOperation) (partNumber : Text)
    (checkValue : CheckValue) : Ledger :=
  { ledger with
    names := insert operation.filename ledger.names
    entry := Function.update ledger.entry operation.filename
      (some { start := now, filePath := operation.filePath, partNumber, checkValue }) }

def finish (ledger : Ledger) (now : Nat) (filename status : Text) (fileSize : Nat) : Ledger :=
  { ledger with
    entry := Function.update ledger.entry filename
      ((ledger.entry filename).map fun information =>
        { information with ended := now, fileStatus := status, fileSize }) }

def note (ledger : Ledger) : Command.Observation → Ledger
  | .send (.request files _) _ | .send (.answer files) _ => { ledger with files }
  | .fileTransfer now _ operation partNumber checkValue =>
    ledger.start now operation partNumber checkValue
  | .fileCompleted now operation .failed =>
    ledger.finish now operation.filename DownloadInformation.transferError 0
  | .fileCompleted now operation (.transferred fileSize) =>
    ledger.finish now operation.filename DownloadInformation.transferOk fileSize
  | .call now (.finished code description) =>
    { ledger with
      ended := now
      overallStatus := (OperationClass.download.status code description [],
        ledger.size % 2 ^ 64) }
  | _ => ledger

/-- The ledger of all that has been seen. -/
def ofObservations (out : List Command.Observation) : Ledger := out.foldl note {}

end Ledger

/-- The information says what the ledger says. -/
structure Represents (information : DownloadInformation) (ledger : Ledger) : Prop where
  files : information.files = ledger.files
  entry : information.filesInformation.find? = ledger.entry
  names : ∀ name, name ∈ ledger.names ↔ (ledger.entry name).isSome
  ended : information.ended = ledger.ended
  overallStatus : information.overallStatus = ledger.overallStatus

namespace Represents

variable {information : DownloadInformation} {ledger : Ledger}

theorem empty : Represents {} {} where
  files := rfl
  entry := rfl
  names name := by simp
  ended := rfl
  overallStatus := rfl

theorem setFiles (h : Represents information ledger) (files : List Text) :
    Represents { information with files } { ledger with files } :=
  ⟨rfl, h.entry, h.names, h.ended, h.overallStatus⟩

theorem fileStart (h : Represents information ledger) (now : Nat) (operation : FileOperation)
    (partNumber : Text) (checkValue : CheckValue) :
    Represents (downloadFileStarted now information operation partNumber checkValue)
      (ledger.start now operation partNumber checkValue) where
  files := h.files
  entry := by
    show (information.filesInformation.alter operation.filename _).find? = _
    rw [OrderedMap.find?_alter_eq_update textRank_injective, h.entry]
    rfl
  names name := by
    show name ∈ insert operation.filename ledger.names ↔
      (Function.update ledger.entry operation.filename _ name).isSome
    rw [Finset.mem_insert, h.names, Function.update_apply]
    split
    case isTrue heq => exact iff_of_true (.inl heq) rfl
    case isFalse hne => exact or_iff_right hne
  ended := h.ended
  overallStatus := h.overallStatus

/-- An entry that is there is changed, and none is made. -/
theorem fileFinished (h : Represents information ledger) (now : Nat) {filename : Text}
    (status : Text) (fileSize : Nat)
    (hentry : (information.filesInformation.find? filename).isSome) :
    Represents (information.fileFinished now filename status fileSize)
      (ledger.finish now filename status fileSize) where
  files := h.files
  entry := by
    obtain ⟨fileInformation, hfind⟩ := Option.isSome_iff_exists.mp hentry
    show (information.filesInformation.alter filename _).find? =
      Function.update ledger.entry filename _
    rw [OrderedMap.find?_alter_eq_update textRank_injective, ← h.entry, hfind]
    rfl
  names name := by
    show name ∈ ledger.names ↔ (Function.update ledger.entry filename _ name).isSome
    rw [h.names, Function.update_apply]
    split
    case isTrue heq => rw [heq, Option.isSome_map]
    case isFalse => rfl
  ended := h.ended
  overallStatus := h.overallStatus

/-- The sizes are summed up over the entries, in the order of their names. -/
theorem overallSize (h : Represents information ledger) :
    information.overallSize = ledger.size % 2 ^ 64 := by
  have hkeys : ∀ name, name ∈ ledger.names ↔ (information.filesInformation.find? name).isSome := by
    intro name
    rw [h.names, h.entry]
  have hsum := information.filesInformation.sum_entries (·.fileSize) textRank_injective hkeys
  unfold DownloadInformation.overallSize Ledger.size
  rw [hsum, h.entry]

theorem finished (h : Represents information ledger) (now : Nat) (status : Text) :
    Represents (information.finished now status)
      { ledger with ended := now, overallStatus := (status, ledger.size % 2 ^ 64) } :=
  ⟨h.files, h.entry, h.names, rfl, Prod.ext rfl h.overallSize⟩

end Represents

/-! ## Handlers that keep such information -/

/-- The files that are asked for are noted before they are. -/
def Demand.noted (information : DownloadInformation) : Demand → DownloadInformation
  | .send (.request files _) | .send (.answer files) => { information with files }
  | _ => information

/-- A handler that keeps the information about a download. -/
structure Informing {μ : Type} (h : CommandHandler μ) (kind : OperationType)
    (information : μ → DownloadInformation) : Prop where
  /-- Operations of the class have the requests that are sent. -/
  sends : ∀ lib op now members o request, Operation.kind op = kind →
    (h.called now members o).2 = .send request → op.send lib request ≠ none
  called : ∀ now members o, (∀ code description, o ≠ .finished code description) →
    information (h.called now members o).1 = (h.called now members o).2.noted (information members)
  finished : ∀ now members code description,
    (h.called now members (.finished code description)).2 = .nothing ∧
      information (h.called now members (.finished code description)).1 =
        downloadFinished now (information members) code description
  sent : ∀ members, information (h.sent members) = information members
  fileStarted : ∀ now members operation partNumber checkValue,
    information (h.fileStarted now members operation partNumber checkValue) =
      downloadFileStarted now (information members) operation partNumber checkValue
  fileCompleted : ∀ now members operation result,
    information (h.fileCompleted now members operation result) =
      downloadFileCompleted now (information members) operation result

/-- All that is seen is noted in a ledger that goes on with what the information says. -/
def Notes (information : DownloadInformation) (out : List Command.Observation)
    (information' : DownloadInformation) : Prop :=
  ∀ ledger, Represents information ledger → Represents information' (out.foldl Ledger.note ledger)

namespace Informing

open Arinc615a.Commands.Command

variable {μ : Type} {lib : Library} {h : CommandHandler μ} {kind : OperationType}
  {information : μ → DownloadInformation} {command : Command μ} {now : Nat}

/-- There is an entry for every transfer under way. -/
structure Informed (kind : OperationType) (information : μ → DownloadInformation)
    (command : Command μ) : Prop where
  kind : command.operation.operation.kind = kind
  entries : ∀ operation ∈ command.transfers,
    ((information command.members).filesInformation.find? operation.filename).isSome

theorem note_unheard (ledger : Ledger) {o : Output} (ho : heard o = false) :
    ledger.note (.call now o) = ledger := by
  cases o with
  | finished => cases ho
  | _ => rfl

theorem foldl_unheard (ledger : Ledger) {out : List Output} (hout : Unheard out) :
    (out.map (Command.Observation.call now)).foldl Ledger.note ledger = ledger := by
  induction out with
  | nil => rfl
  | cons o out ih =>
    obtain ⟨ho, hrest⟩ := List.forall_mem_cons.mp hout
    rw [List.map_cons, List.foldl_cons, note_unheard ledger ho, ih hrest]

theorem represents_send {info : DownloadInformation} {ledger : Ledger}
    (hrep : Represents info ledger) (request : Operation.Request) (accepted : Bool) :
    Represents ((Demand.send request).noted info) (ledger.note (.send request accepted)) := by
  cases request with
  | loadList => exact hrep
  | request files => exact hrep.setFiles files
  | answer files => exact hrep.setFiles files

/-- The members have been changed for the demand already. -/
theorem follows_demand (now : Nat) {d : Demand} (hcommand : Informed kind information command)
    (hsends : ∀ request, d = .send request →
      command.operation.operation.send lib request ≠ none)
    (hsent : ∀ members, information (h.sent members) = information members)
    {info : DownloadInformation} (hnoted : information command.members = d.noted info) :
    Informed kind information (Command.demand lib h now command d).command ∧
      Notes info (Command.demand lib h now command d).out
        (information (Command.demand lib h now command d).command.members) := by
  cases d with
  | nothing =>
    refine ⟨hcommand, fun ledger hrep => ?_⟩
    show Represents (information command.members) ledger
    rwa [hnoted]
  | abort =>
    refine ⟨⟨(framed_abort now .operator).kind.trans hcommand.kind, hcommand.entries⟩,
      fun ledger hrep => ?_⟩
    show Represents (information command.members) (List.foldl Ledger.note ledger (List.map _ _))
    rw [hnoted, foldl_unheard ledger (unheard_doAbort _ _)]
    exact hrep
  | send request =>
    rcases demand_send lib h now command request with
      ⟨hnone, -⟩ | ⟨accepted, out, hout, heq, hframed⟩
    · exact absurd hnone (hsends request rfl)
    · obtain ⟨hmembers, -, htransfers, -, hkind⟩ := hframed
      have hsame : information (Command.demand lib h now command (.send request)).command.members =
          information command.members := by
        rw [hmembers]
        show information (if accepted then h.sent command.members else command.members) = _
        cases accepted with
        | true => exact hsent command.members
        | false => rfl
      refine ⟨⟨hkind.trans hcommand.kind, ?_⟩, fun ledger hrep => ?_⟩
      · rw [hsame, htransfers]
        exact hcommand.entries
      · rw [hsame, heq, List.foldl_cons, foldl_unheard _ hout, hnoted]
        exact represents_send hrep request accepted

variable (law : Informing h kind information)

include law

theorem follows_fileRequest (hcommand : Informed kind information command) (remote : Endpoint)
    (filename partNumber : Text) (checkValue : CheckValue) :
    let r := command.fileRequest h now remote filename partNumber checkValue
    Informed kind information r.command ∧
      Notes (information command.members) r.out (information r.command.members) := by
  unfold Command.fileRequest
  split
  · exact ⟨hcommand, fun ledger hrep => hrep⟩
  next path _ =>
    dsimp only
    rw [law.fileStarted]
    refine ⟨⟨hcommand.kind, ?_⟩, fun ledger hrep => hrep.fileStart now _ partNumber checkValue⟩
    show ∀ operation ∈ (⟨_, filename, path⟩ :: command.transfers : List FileOperation),
      ((information (h.fileStarted ..)).filesInformation.find? operation.filename).isSome
    rw [law.fileStarted]
    refine List.forall_mem_cons.mpr ⟨?_, fun operation hoperation => ?_⟩
    · show ((OrderedMap.alter _ filename _).find? filename).isSome
      rw [OrderedMap.find?_alter, if_pos rfl]
      rfl
    · exact OrderedMap.isSome_find?_alter (hcommand.entries operation hoperation) _ _

theorem follows_handler (hcommand : Informed kind information command) (o : Output) :
    Follows (Informed kind information) (fun command => information command.members) Notes command
      (.call now o :: (handler lib h now command o).out) (handler lib h now command o).command := by
  have hdemand : (∀ code description, o ≠ .finished code description) →
      let r := Command.demand lib h now
        { command with members := (h.called now command.members o).1 }
        (h.called now command.members o).2
      Informed kind information r.command ∧
        Notes (information command.members) (.call now o :: r.out)
          (information r.command.members) := by
    intro hfinished
    have hcalled := law.called now command.members o hfinished
    have hentries : (information (h.called now command.members o).1).filesInformation =
        (information command.members).filesInformation := by
      rw [hcalled]
      unfold Demand.noted
      split <;> rfl
    have hchanged : Informed kind information
        { command with members := (h.called now command.members o).1 } :=
      ⟨hcommand.kind, by rw [hentries]; exact hcommand.entries⟩
    obtain ⟨hnext, hnotes⟩ := follows_demand now hchanged
      (fun request hrequest => law.sends lib _ now command.members o request hcommand.kind hrequest)
      law.sent hcalled
    refine ⟨hnext, fun ledger hrep => ?_⟩
    have hcall : ledger.note (.call now o) = ledger := by
      cases o with
      | finished code description => exact absurd rfl (hfinished code description)
      | _ => rfl
    rw [List.foldl_cons, hcall]
    exact hnotes ledger hrep
  cases o with
  | fileRequest remote filename partNumber checkValue =>
    exact law.follows_fileRequest hcommand remote filename partNumber checkValue
  | finished code description =>
    obtain ⟨hnothing, hinformation⟩ := law.finished now command.members code description
    unfold handler
    dsimp only
    rw [hnothing]
    refine ⟨⟨hcommand.kind, ?_⟩, fun ledger hrep => ?_⟩
    · show ∀ operation ∈ command.transfers,
        ((information (h.called now command.members _).1).filesInformation.find? _).isSome
      rw [hinformation]
      exact hcommand.entries
    · show Represents (information (h.called now command.members _).1) _
      rw [hinformation]
      exact hrep.finished now _
  | _ => exact hdemand (by simp)

theorem follows_fileCompleted (hcommand : Informed kind information command)
    {operation : FileOperation} (hmem : operation ∈ command.transfers) (result : FileResult) :
    let r := Command.fileCompleted h now
      { command with transfers := command.transfers.erase operation } operation result
    Follows (Informed kind information) (fun command => information command.members) Notes command
      r.out r.command := by
  have hentry := hcommand.entries operation hmem
  have hkept : ∀ other ∈ command.transfers.erase operation,
      ((downloadFileCompleted now (information command.members) operation
        result).filesInformation.find? other.filename).isSome := by
    intro other hother
    have hsome := hcommand.entries other (List.mem_of_mem_erase hother)
    cases result with
    | failed | transferred => exact OrderedMap.isSome_find?_alter hsome _ _
    | sizeThrows => exact hsome
  have hnotes : ∀ ledger, Represents (information command.members) ledger →
      Represents (downloadFileCompleted now (information command.members) operation result)
        (ledger.note (.fileCompleted now operation result)) := by
    intro ledger hrep
    cases result with
    | failed => exact hrep.fileFinished now _ 0 hentry
    | transferred fileSize => exact hrep.fileFinished now _ fileSize hentry
    | sizeThrows => exact hrep
  unfold Command.fileCompleted
  dsimp only
  split
  · refine ⟨⟨(framed_abort now .protocol).kind.trans hcommand.kind, ?_⟩, fun ledger hrep => ?_⟩
    · show ∀ other ∈ command.transfers.erase operation,
        ((information (h.fileCompleted ..)).filesInformation.find? other.filename).isSome
      rw [law.fileCompleted]
      exact hkept
    · show Represents (information (h.fileCompleted ..)) (List.foldl Ledger.note _ (List.map _ _))
      rw [law.fileCompleted, foldl_unheard _ (unheard_doAbort _ _)]
      exact hnotes ledger hrep
  · refine ⟨⟨hcommand.kind, ?_⟩, fun ledger hrep => ?_⟩
    · show ∀ other ∈ command.transfers.erase operation,
        ((information (h.fileCompleted ..)).filesInformation.find? other.filename).isSome
      rw [law.fileCompleted]
      exact hkept
    · show Represents (information (h.fileCompleted ..)) _
      rw [law.fileCompleted]
      exact hnotes ledger hrep

theorem rule :
    Rule lib h (Informed kind information) (fun command => information command.members) Notes where
  composable := by
    refine ⟨fun _ _ hrep => hrep, fun hfirst hrest ledger hrep => ?_⟩
    rw [List.foldl_append]
    exact hrest _ (hfirst ledger hrep)
  framed hframed hcommand := by
    obtain ⟨hmembers, -, htransfers, -, hkind⟩ := hframed
    refine ⟨⟨hkind.trans hcommand.kind, ?_⟩, congrArg information hmembers⟩
    rw [htransfers, hmembers]
    exact hcommand.entries
  unheard _ _ _ ho ledger hrep := by
    rw [List.foldl_cons, note_unheard ledger ho]
    exact hrep
  handler _ o hcommand := law.follows_handler hcommand o
  fileCompleted _ result hcommand hmem := law.follows_fileCompleted hcommand hmem result

end Informing

/-! ## The commands -/

theorem informing_mediaDefinedDownload (paths : PathLibrary) (downloadDataPath : Text)
    (requestedFiles : List Text) (userDefinedData : Bytes) :
    Informing (mediaDefinedDownloadHandler paths downloadDataPath requestedFiles userDefinedData)
      .mediaDefinedDownload (·.downloadInformation) where
  sends lib op now members o request hkind hrequest := by
    cases o with
    | downloadStatus status =>
      simp only [mediaDefinedDownloadHandler] at hrequest
      split at hrequest
      · cases hrequest
        unfold Operation.send
        rw [hkind]
        simp
      · cases hrequest
    | _ => cases hrequest
  called now members o hfinished := by
    cases o with
    | downloadStatus status =>
      simp only [mediaDefinedDownloadHandler]
      split
      · rfl
      · rfl
    | finished code description => exact absurd rfl (hfinished code description)
    | _ => rfl
  finished _ _ _ _ := ⟨rfl, rfl⟩
  sent _ := rfl
  fileStarted _ _ _ _ _ := rfl
  fileCompleted _ _ _ _ := rfl

/-- The list of the target is answered with files, or the operation is aborted. -/
theorem downloadingList_cases (paths : PathLibrary) (downloadDataPath : Text) (downloadAll : Bool)
    (now : Nat) (members : OperatorDefinedDownloadMembers)
    (files : List DownloadFileInformation) :
    (operatorDefinedDownloadHandler paths downloadDataPath downloadAll).called now members
        (.downloadingList files) = ({ members with requestedFiles := [] }, .abort) ∨
    ∃ requestedFiles,
      (operatorDefinedDownloadHandler paths downloadDataPath downloadAll).called now members
          (.downloadingList files) =
        ({ requestedFiles := requestedFiles.map fun _ => []
           downloadInformation := { members.downloadInformation with files := requestedFiles } },
          .send (.answer requestedFiles)) := by
  simp only [operatorDefinedDownloadHandler]
  generalize (if downloadAll = true then files.map (·.filename) else members.requestedFiles) =
    requestedFiles
  split
  · exact .inl rfl
  · exact .inr ⟨requestedFiles, rfl⟩

theorem informing_operatorDefinedDownload (paths : PathLibrary) (downloadDataPath : Text)
    (downloadAll : Bool) :
    Informing (operatorDefinedDownloadHandler paths downloadDataPath downloadAll)
      .operatorDefinedDownload (·.downloadInformation) where
  sends lib op now members o request hkind hrequest := by
    cases o with
    | downloadingList files =>
      rcases downloadingList_cases paths downloadDataPath downloadAll now members files with
        habort | ⟨requestedFiles, hanswer⟩
      · rw [habort] at hrequest
        cases hrequest
      · rw [hanswer] at hrequest
        cases hrequest
        unfold Operation.send
        rw [hkind]
        simp
    | _ => cases hrequest
  called now members o hfinished := by
    cases o with
    | downloadingList files =>
      rcases downloadingList_cases paths downloadDataPath downloadAll now members files with
        habort | ⟨requestedFiles, hanswer⟩
      · rw [habort]
        rfl
      · rw [hanswer]
        rfl
    | finished code description => exact absurd rfl (hfinished code description)
    | _ => rfl
  finished _ _ _ _ := ⟨rfl, rfl⟩
  sent _ := rfl
  fileStarted _ _ _ _ _ := rfl
  fileCompleted _ _ _ _ := rfl

/-- After every run of a command for downloads, its information is that of the ledger: the entry of
a file is what the last start of its transfer and the last end since make it, and the overall
status has the sum of the sizes at the time of the last `finished`. -/
theorem downloadInformation_represents {lib : Library} {targetId : TargetId} {dlpTimeout : Nat}
    {portOption : Bool} {events : List (Nat × Command.Event)} {out : List Command.Observation} :
    (∀ {paths downloadDataPath requestedFiles userDefinedData after},
      (commandSystem lib (mediaDefinedDownloadHandler paths downloadDataPath requestedFiles
          userDefinedData)).run
          (.created {} .mediaDefinedDownload targetId dlpTimeout portOption) events =
        some (after, out) →
      Represents after.members.downloadInformation (.ofObservations out)) ∧
    ∀ {paths downloadDataPath downloadAll requestedFiles after},
      (commandSystem lib (operatorDefinedDownloadHandler paths downloadDataPath downloadAll)).run
          (.created { requestedFiles } .operatorDefinedDownload targetId dlpTimeout portOption)
          events = some (after, out) →
      Represents after.members.downloadInformation (.ofObservations out) := by
  refine ⟨fun {paths downloadDataPath requestedFiles userDefinedData after} hrun => ?_,
    fun {paths downloadDataPath downloadAll requestedFiles after} hrun => ?_⟩
  · have hlaw := informing_mediaDefinedDownload paths downloadDataPath requestedFiles
      userDefinedData
    exact hlaw.rule.runs ⟨rfl, List.forall_mem_nil _⟩ hrun {} .empty
  · have hlaw := informing_operatorDefinedDownload paths downloadDataPath downloadAll
    exact hlaw.rule.runs ⟨rfl, List.forall_mem_nil _⟩ hrun {} .empty

/-- A file comes twice, first with an error; the size is counted once. -/
theorem downloadInformation_represents_twice :
    let paths : PathLibrary :=
      { append := fun a b => a ++ text "/" ++ b, lexicallyNormal := id,
        isRegularFile := fun _ => true, normaliseFilename := id }
    let handler := mediaDefinedDownloadHandler paths (text "out") [text "F1"] []
    ∃ after out,
      (commandSystem { raw := .bigEndian, generateCheckValue := fun _ _ => {} } handler).run
          (.created {} .mediaDefinedDownload (.ofText (text "ABCD_1")) 10 false)
          [(0, .execute .started),
            (1, .operation (.tftpRequest ⟨1, 2⟩ .write (text "F1") {})),
            (2, .fileCompleted ⟨0, text "F1", text "out/F1"⟩ .failed),
            (3, .operation (.tftpRequest ⟨1, 2⟩ .write (text "F1") {})),
            (4, .fileCompleted ⟨1, text "F1", text "out/F1"⟩ (.transferred 100)),
            (5, .terminateSignal)] = some (after, out) ∧
      after.members.downloadInformation.overallStatus.2 = 100 ∧
      Represents after.members.downloadInformation (.ofObservations out) := by
  intro paths handler
  obtain ⟨after, out, hrun, hsize⟩ : ∃ after out,
      (commandSystem { raw := .bigEndian, generateCheckValue := fun _ _ => {} } handler).run
          (.created {} .mediaDefinedDownload (.ofText (text "ABCD_1")) 10 false)
          [(0, .execute .started),
            (1, .operation (.tftpRequest ⟨1, 2⟩ .write (text "F1") {})),
            (2, .fileCompleted ⟨0, text "F1", text "out/F1"⟩ .failed),
            (3, .operation (.tftpRequest ⟨1, 2⟩ .write (text "F1") {})),
            (4, .fileCompleted ⟨1, text "F1", text "out/F1"⟩ (.transferred 100)),
            (5, .terminateSignal)] = some (after, out) ∧
        after.members.downloadInformation.overallStatus.2 = 100 :=
    Reactive.exists_run_of_any _
      (P := fun (after : Command MediaDefinedDownloadMembers) _ =>
        after.members.downloadInformation.overallStatus.2 = 100)
      (by decide +kernel)
  exact ⟨after, out, hrun, hsize, downloadInformation_represents.1 hrun⟩

end Arinc615a.Commands
