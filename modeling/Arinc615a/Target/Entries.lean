import Mathlib.Data.Option.Defs
import Arinc615a.Reasoning.Register
import Arinc615a.Target.Origins

/-!
# Loads and files in the status

What the handler reports on its loads or files, told from the calls alone: one report for each
name, with the state of the last call that applies to it.  The status shows these reports as long
as no name is accepted that has been mentioned before, and as long as no entry has last ended with
the final status that has no code of its own.
-/

open Reasoning

namespace Arinc615a.Target

open Files Information Tftp

/-! ## Reports -/

/-- A call on one entry, or on all of them. -/
inductive EntryEvent where
  | accepted (name partNumber : Text)
  | inProgress (order : Operation.ArgumentOrder) (name : Text) (ratio : Ratio) (description : Text)
  | finished (name : Text) (finalStatus : FinalStatus) (description : Text)
  | allFinished (finalStatus : FinalStatus) (description : Text)
  deriving DecidableEq

/-- Files have neither a part number nor a ratio. -/
def Call.entryEvent : Call → Option EntryEvent
  | .loadAccepted headerFilename partNumber => some (.accepted headerFilename partNumber)
  | .loadInProgress order headerFilename ratio description =>
    some (.inProgress order headerFilename ratio description)
  | .loadFinished headerFilename finalStatus description =>
    some (.finished headerFilename finalStatus description)
  | .loadsFinished finalStatus description => some (.allFinished finalStatus description)
  | .fileAccepted filename => some (.accepted filename [])
  | .fileInProgress order filename description =>
    some (.inProgress order filename .zero description)
  | .fileFinished filename finalStatus description =>
    some (.finished filename finalStatus description)
  | .filesFinished finalStatus description => some (.allFinished finalStatus description)
  | _ => none

/-- The calls on entries in a run. -/
def entryEvents (events : List Event) : List EntryEvent :=
  events.filterMap fun
    | .call call => call.entryEvent
    | _ => none

inductive Progress where
  | accepted
  | inProgress
  | finished (finalStatus : FinalStatus)
  deriving DecidableEq, Repr

def Progress.isFinal : Progress → Bool
  | .finished _ => true
  | _ => false

/-- What has been reported on an entry last. -/
structure Report where
  progress : Progress := .accepted
  description : Text := []
  ratio : Ratio := .zero
  partNumber : Text := []
  deriving DecidableEq

namespace EntryEvent

def name? : EntryEvent → Option Text
  | .accepted name _ | .inProgress _ name _ _ | .finished name _ _ => some name
  | .allFinished _ _ => none

/-- What a call makes of the report on a name. -/
def report (name : Text) (report? : Option Report) : EntryEvent → Option Report
  | .accepted name' partNumber =>
    if name' = name then some { partNumber := partNumber } else report?
  | .inProgress _ name' ratio description =>
    if name' = name then
      some { report?.getD {} with
        progress := .inProgress, description := description, ratio := ratio }
    else report?
  | .finished name' finalStatus description =>
    if name' = name then
      some { report?.getD {} with progress := .finished finalStatus, description := description }
    else report?
  | .allFinished finalStatus description =>
    report?.map fun report =>
      if report.progress.isFinal then report
      else { report with progress := .finished finalStatus, description := description }

end EntryEvent

def report? (name : Text) (events : List EntryEvent) : Option Report :=
  events.foldl (EntryEvent.report name) none

/-- The names in the order in which they are mentioned first. -/
def mentioned (events : List EntryEvent) : List Text :=
  Register.distinct (events.filterMap EntryEvent.name?)

/-- No name is accepted that has been mentioned before, and no entry has last ended with the final
status that has no code of its own. -/
structure Fine (events : List EntryEvent) : Prop where
  fresh : ∀ before name partNumber after, events = before ++ .accepted name partNumber :: after →
    name ∉ mentioned before
  known : ∀ name report, report? name events = some report →
    report.progress ≠ .finished .loadPartNumberOrDownloadFileFailed

/-! ## What the status shows -/

def Progress.HasCode : Progress → StatusCode → Prop
  | .accepted, code => code = .operationAccepted
  | .inProgress, code => code = .operationInProgress ∨ code = .operationInProgressAdditionalInfo
  | .finished finalStatus, code => entryFinal code = true ∧ code.finalStatus = finalStatus

def ShowsLoad (load : UploadLoadStatus) (report : Report) : Prop :=
  report.progress.HasCode load.code ∧ load.description = report.description ∧
    load.ratio = report.ratio ∧ load.partNumber = report.partNumber

def ShowsFile (file : DownloadFileStatus) (report : Report) : Prop :=
  report.progress.HasCode file.code ∧ file.description = report.description

/-- One entry for each name, in the order in which they are mentioned first, that shows the report
on it. -/
def ShowsReports {α : Type} (key : α → Text) (Shows : α → Report → Prop) (events : List EntryEvent)
    (entries : List α) : Prop :=
  List.Forall₂ (fun entry name =>
    key entry = name ∧ ∃ report, report? name events = some report ∧ Shows entry report)
    entries (mentioned events)

def AnyStatus.Reports (events : List EntryEvent) : AnyStatus → Prop
  | .information _ => True
  | .upload status => ShowsReports (·.headerFilename) ShowsLoad events status.loads
  | .mediaDefinedDownload status | .operatorDefinedDownload status =>
    ShowsReports (·.filename) ShowsFile events status.files

/-! ## Entries as registers -/

/-- The code that an entry has for a report; in progress it is one of two. -/
def Progress.Code : Progress → StatusCode → Prop
  | .finished finalStatus, code => code = finalStatus.statusCode
  | progress, code => progress.HasCode code

/-- A final status code ends an entry, and tells the final status unless this is the one without a
code of its own. -/
theorem Progress.hasCode_iff {progress : Progress} {code : StatusCode} (h : progress.Code code) :
    progress.HasCode code ↔ progress ≠ .finished .loadPartNumberOrDownloadFileFailed := by
  cases progress with
  | accepted | inProgress => exact iff_of_true h (by simp)
  | finished finalStatus =>
    cases h
    cases finalStatus <;> simp [HasCode, entryFinal, FinalStatus.statusCode, StatusCode.finalStatus]

theorem Progress.entryFinal_eq {progress : Progress} {code : StatusCode} (h : progress.Code code) :
    entryFinal code = progress.isFinal := by
  cases progress with
  | accepted =>
    cases h
    rfl
  | inProgress => rcases h with rfl | rfl <;> rfl
  | finished finalStatus =>
    cases h
    cases finalStatus <;> rfl

theorem code_inProgressCode (order : Operation.ArgumentOrder) (description : Text) :
    Progress.inProgress.Code (Operation.inProgressCode order description) := by
  cases order with
  | codeFirst => cases description <;> simp [Progress.Code, Progress.HasCode, Operation.inProgressCode]
  | moveFirst => exact .inl rfl

/-- The changes that the calls make to entries of a class, which are known by their keys. -/
structure Implements {α : Type} {key : α → Text} (change : EntryEvent → Register.Change key)
    (Tracks : α → Report → Prop) : Prop where
  mention : ∀ event, (change event).mention = event.name?
  accepted : ∀ name partNumber, ∃ entry, change (.accepted name partNumber) = .add entry
  add : ∀ event entry, change event = .add entry → ∃ name partNumber, event = .accepted name partNumber
  see : ∀ event name found? report?, Option.Rel Tracks found? report? →
    Option.Rel Tracks ((change event).see name found?) (event.report name report?)

/-- The changes of the calls on loads. -/
def loadChange : EntryEvent → Register.Change UploadLoadStatus.headerFilename
  | .accepted headerFilename partNumber =>
    let load : UploadLoadStatus := { headerFilename := headerFilename, partNumber := partNumber }
    .add (load.set .zero .operationAccepted [])
  | .inProgress order headerFilename ratio description =>
    .update { headerFilename := headerFilename }
      ⟨fun load => load.set ratio (Operation.inProgressCode order description) description,
        fun _ => rfl⟩
  | .finished headerFilename finalStatus description =>
    .update { headerFilename := headerFilename }
      ⟨fun load => load.set load.ratio finalStatus.statusCode description, fun _ => rfl⟩
  | .allFinished finalStatus description =>
    .sweep ⟨fun load =>
      if entryFinal load.code then load else load.set load.ratio finalStatus.statusCode description,
      fun load => by split <;> rfl⟩

/-- The changes of the calls on files. -/
def fileChange : EntryEvent → Register.Change DownloadFileStatus.filename
  | .accepted filename _ =>
    let file : DownloadFileStatus := { filename := filename }
    .add (file.set .operationAccepted [])
  | .inProgress order filename _ description =>
    .update { filename := filename }
      ⟨fun file => file.set (Operation.inProgressCode order description) description, fun _ => rfl⟩
  | .finished filename finalStatus description =>
    .update { filename := filename }
      ⟨fun file => file.set finalStatus.statusCode description, fun _ => rfl⟩
  | .allFinished finalStatus description =>
    .sweep ⟨fun file =>
      if entryFinal file.code then file else file.set finalStatus.statusCode description,
      fun file => by split <;> rfl⟩

def TracksLoad (load : UploadLoadStatus) (report : Report) : Prop :=
  report.progress.Code load.code ∧ load.description = report.description ∧
    load.ratio = report.ratio ∧ load.partNumber = report.partNumber

def TracksFile (file : DownloadFileStatus) (report : Report) : Prop :=
  report.progress.Code file.code ∧ file.description = report.description

/-- A call that names an entry replaces what is kept on this entry alone. -/
theorem rel_named {α : Type} {Tracks : α → Report → Prop} {found? : Option α}
    {report? : Option Report} {name name' : Text} {entry : α} {report : Report}
    (h : Option.Rel Tracks found? report?) (hentry : Tracks entry report) :
    Option.Rel Tracks (if name' = name then some entry else found?)
      (if name' = name then some report else report?) := by
  split
  · exact .some hentry
  · exact h

theorem implements_loadChange : Implements loadChange TracksLoad where
  mention event := by cases event <;> rfl
  accepted name partNumber := ⟨_, rfl⟩
  add event entry h := by
    cases event <;> cases h
    exact ⟨_, _, rfl⟩
  see event name found? report? h := by
    cases event with
    | accepted name' partNumber => exact rel_named h ⟨rfl, rfl, rfl, rfl⟩
    | inProgress order name' ratio description =>
      refine rel_named h ?_
      have hcode := code_inProgressCode order description
      cases h with
      | some h => exact ⟨hcode, rfl, rfl, h.2.2.2⟩
      | none => exact ⟨hcode, rfl, rfl, rfl⟩
    | finished name' finalStatus description =>
      refine rel_named h ?_
      cases h with
      | some h => exact ⟨rfl, rfl, h.2.2.1, h.2.2.2⟩
      | none => exact ⟨rfl, rfl, rfl, rfl⟩
    | allFinished finalStatus description =>
      cases h with
      | none => exact .none
      | some h =>
        dsimp only [loadChange, Register.Change.see, EntryEvent.report, Option.map_some]
        rw [Progress.entryFinal_eq h.1]
        split
        · exact .some h
        · exact .some ⟨rfl, rfl, h.2.2.1, h.2.2.2⟩

theorem implements_fileChange : Implements fileChange TracksFile where
  mention event := by cases event <;> rfl
  accepted name partNumber := ⟨_, rfl⟩
  add event entry h := by
    cases event <;> cases h
    exact ⟨_, _, rfl⟩
  see event name found? report? h := by
    cases event with
    | accepted name' partNumber => exact rel_named h ⟨rfl, rfl⟩
    | inProgress order name' ratio description =>
      exact rel_named h ⟨code_inProgressCode order description, rfl⟩
    | finished name' finalStatus description => exact rel_named h ⟨rfl, rfl⟩
    | allFinished finalStatus description =>
      cases h with
      | none => exact .none
      | some h =>
        dsimp only [fileChange, Register.Change.see, EntryEvent.report, Option.map_some]
        rw [Progress.entryFinal_eq h.1]
        split
        · exact .some h
        · exact .some ⟨rfl, rfl⟩

namespace Implements

variable {α : Type} {key : α → Text} {change : EntryEvent → Register.Change key}
  {Tracks : α → Report → Prop}

theorem keys_eq (h : Implements change Tracks) (events : List EntryEvent) :
    Register.keys (events.map change) = mentioned events := by
  unfold Register.keys mentioned
  rw [List.filterMap_map]
  have hmention : Register.Change.mention ∘ change = EntryEvent.name? := funext h.mention
  rw [hmention]

/-- The state of an entry follows the reports on its name. -/
theorem tracks (h : Implements change Tracks) (name : Text) (events : List EntryEvent) :
    Option.Rel Tracks (Register.latest? name (events.map change)) (report? name events) := by
  induction events using List.reverseRecOn with
  | nil => exact .none
  | append_singleton events event ih =>
    rw [List.map_append, List.map_singleton, Register.latest?_append_singleton]
    have hreport : report? name (events ++ [event]) = event.report name (report? name events) := by
      simp [report?]
    rw [hreport]
    exact h.see event name _ _ ih

theorem entry_of_report (h : Implements change Tracks) {name : Text} {events : List EntryEvent}
    {report : Report} (hreport : report? name events = some report) :
    ∃ entry, Register.latest? name (events.map change) = some entry ∧ Tracks entry report := by
  have htracks := h.tracks name events
  rw [hreport] at htracks
  generalize Register.latest? name (events.map change) = found? at htracks
  cases htracks with
  | some htracks => exact ⟨_, rfl, htracks⟩

theorem report_of_entry (h : Implements change Tracks) {name : Text} {events : List EntryEvent}
    {entry : α} (hentry : Register.latest? name (events.map change) = some entry) :
    ∃ report, report? name events = some report ∧ Tracks entry report := by
  have htracks := h.tracks name events
  rw [hentry] at htracks
  generalize report? name events = report? at htracks
  cases htracks with
  | some htracks => exact ⟨_, rfl, htracks⟩

theorem fresh_iff (h : Implements change Tracks) (events : List EntryEvent) :
    Register.Fresh (events.map change) ↔
      ∀ before name partNumber after, events = before ++ .accepted name partNumber :: after →
        name ∉ mentioned before := by
  constructor
  · rintro hfresh before name partNumber after rfl
    obtain ⟨entry, hentry⟩ := h.accepted name partNumber
    have hmention := h.mention (.accepted name partNumber)
    rw [hentry] at hmention
    cases hmention
    rw [← h.keys_eq before]
    exact hfresh (before.map change) entry (after.map change) (by simp [hentry])
  · intro hfresh before entry after hsplit
    obtain ⟨before, rest, rfl, rfl, hrest⟩ := List.map_eq_append_iff.mp hsplit
    obtain ⟨event, after, rfl, hevent, rfl⟩ := List.map_eq_cons_iff.mp hrest
    obtain ⟨name, partNumber, rfl⟩ := h.add event entry hevent
    have hmention := h.mention (.accepted name partNumber)
    rw [hevent] at hmention
    cases hmention
    rw [h.keys_eq before]
    exact hfresh before _ partNumber after rfl

/-- The register shows the reports exactly if the calls are fine. -/
theorem showsReports_iff (h : Implements change Tracks) {Shows : α → Report → Prop}
    (hshows : ∀ {entry report}, Tracks entry report →
      (Shows entry report ↔ report.progress ≠ .finished .loadPartNumberOrDownloadFileFailed))
    (events : List EntryEvent) :
    ShowsReports key Shows events (Register.run [] (events.map change)) ↔ Fine events := by
  constructor
  · intro hall
    -- the entries have the names in order, so no name has two of them
    have hkeys : (Register.run [] (events.map change)).map key = mentioned events := by
      unfold ShowsReports at hall
      generalize Register.run [] (events.map change) = entries at hall
      generalize mentioned events = names at hall
      induction hall with
      | nil => rfl
      | cons hfirst _ ih => rw [List.map_cons, ih, hfirst.1]
    have hfresh : Register.Fresh (events.map change) := by
      rw [← Register.nodup_run_iff, hkeys, ← h.keys_eq events]
      exact Register.nodup_keys _
    rw [ShowsReports, ← h.keys_eq, Register.forall₂_run_iff hfresh] at hall
    refine ⟨(h.fresh_iff events).mp hfresh, fun name report hreport => ?_⟩
    obtain ⟨entry, hentry, htracks⟩ := h.entry_of_report hreport
    have hname : name ∈ Register.keys (events.map change) := by
      by_contra hnot
      rw [(Register.latest?_of_mem name).2 hnot] at hentry
      cases hentry
    obtain ⟨-, report', hreport', hshow⟩ := hall name hname entry hentry
    cases hreport.symm.trans hreport'
    exact (hshows htracks).mp hshow
  · intro hfine
    have hfresh := (h.fresh_iff events).mpr hfine.fresh
    rw [ShowsReports, ← h.keys_eq, Register.forall₂_run_iff hfresh]
    intro name hname entry hentry
    obtain ⟨report, hreport, htracks⟩ := h.report_of_entry hentry
    obtain ⟨entry', hentry', hkey⟩ := (Register.latest?_of_mem name).1 hname
    cases hentry.symm.trans hentry'
    exact ⟨hkey, report, hreport, (hshows htracks).mpr (hfine.known name report hreport)⟩

end Implements

theorem updateFirst_eq {α : Type} (key : α → Text) (k : Text) (new : α) (f : α → α)
    (entries : List α) :
    updateFirst (fun entry => key entry == k) new f entries =
      Register.updateFirst key k new f entries := by
  induction entries with
  | nil => rfl
  | cons entry entries ih => simp only [updateFirst, Register.updateFirst, beq_iff_eq, ih]

namespace AnyStatus

/-- The loads or files are those that the calls have led to. -/
def Holds (events : List EntryEvent) : AnyStatus → Prop
  | .information _ => events = []
  | .upload status => status.loads = Register.run [] (events.map loadChange)
  | .mediaDefinedDownload status | .operatorDefinedDownload status =>
    status.files = Register.run [] (events.map fileChange)

theorem holds_ofKind (kind : OperationType) : (AnyStatus.ofKind kind).Holds [] := by
  cases kind <;> rfl

theorem holds_modify {events : List EntryEvent} {statusV : AnyStatus} (f : Status → Status)
    (h : statusV.Holds events) : (statusV.modify f).Holds events := by
  cases statusV <;> exact h

theorem stable_holds (events : List EntryEvent) : Stable (AnyStatus.Holds events) where
  set _ _ _ _ _ h := holds_modify _ h
  accept _ h := holds_modify _ h
  count _ h := holds_modify _ h

/-- A call on the entries makes its change. -/
theorem holds_edit {events : List EntryEvent} {statusV statusV' : AnyStatus} {call : Call}
    (h : statusV.Holds events) (hedit : statusV.edit call = some statusV') :
    statusV'.Holds (events ++ call.entryEvent.toList) := by
  have hsame : ∀ statusV : AnyStatus, statusV.Holds events → statusV.Holds (events ++ []) :=
    fun statusV h => (List.append_nil events).symm ▸ h
  have hload : ∀ {status : UploadStatus} {event : EntryEvent},
      status.loads = (loadChange event).apply (Register.run [] (events.map loadChange)) →
        (AnyStatus.upload status).Holds (events ++ [event]) := by
    intro status event hloads
    rw [Holds, List.map_append, List.map_singleton, Register.run_append_singleton, hloads]
  have hfile : ∀ {files : List DownloadFileStatus} {event : EntryEvent},
      files = (fileChange event).apply (Register.run [] (events.map fileChange)) →
        files = Register.run [] ((events ++ [event]).map fileChange) := by
    intro files event hfiles
    rw [List.map_append, List.map_singleton, Register.run_append_singleton, hfiles]
  cases call with
  | inProgressRatio order immediateTransmission estimatedTime description listRatio =>
    cases statusV <;> cases hedit <;> exact hsame _ h
  | loadAccepted headerFilename partNumber =>
    cases statusV <;> cases hedit
    exact hload (congrArg (· ++ _) h)
  | loadInProgress order headerFilename ratio description =>
    cases statusV <;> cases hedit
    exact hload ((updateFirst_eq ..).trans (congrArg _ h))
  | loadFinished headerFilename finalStatus description =>
    cases statusV <;> cases hedit
    exact hload ((updateFirst_eq ..).trans (congrArg _ h))
  | loadsFinished finalStatus description =>
    cases statusV <;> cases hedit
    exact hload (congrArg (List.map _) h)
  | fileAccepted filename =>
    cases statusV <;> cases hedit <;> exact hfile (congrArg (· ++ _) h)
  | fileInProgress order filename description =>
    cases statusV <;> cases hedit <;> exact hfile ((updateFirst_eq ..).trans (congrArg _ h))
  | fileFinished filename finalStatus description =>
    cases statusV <;> cases hedit <;> exact hfile ((updateFirst_eq ..).trans (congrArg _ h))
  | filesFinished finalStatus description =>
    cases statusV <;> cases hedit <;> exact hfile (congrArg (List.map _) h)
  | accepted | inProgress | finished | targetInformation | downloadingList => cases hedit

/-- The status shows the reports exactly if the calls are fine. -/
theorem reports_iff {events : List EntryEvent} {statusV : AnyStatus} (h : statusV.Holds events) :
    statusV.Reports events ↔ Fine events := by
  have hload : ∀ {load : UploadLoadStatus} {report : Report}, TracksLoad load report →
      (ShowsLoad load report ↔ report.progress ≠ .finished .loadPartNumberOrDownloadFileFailed) :=
    fun htracks => by
      rw [ShowsLoad, Progress.hasCode_iff htracks.1]
      exact and_iff_left htracks.2
  have hfile : ∀ {file : DownloadFileStatus} {report : Report}, TracksFile file report →
      (ShowsFile file report ↔ report.progress ≠ .finished .loadPartNumberOrDownloadFileFailed) :=
    fun htracks => by
      rw [ShowsFile, Progress.hasCode_iff htracks.1]
      exact and_iff_left htracks.2
  cases statusV with
  | information status =>
    cases h
    exact iff_of_true trivial ⟨by simp, by simp [report?]⟩
  | upload status =>
    rw [Reports, show status.loads = _ from h]
    exact implements_loadChange.showsReports_iff hload events
  | mediaDefinedDownload status | operatorDefinedDownload status =>
    rw [Reports, show status.files = _ from h]
    exact implements_fileChange.showsReports_iff hfile events

end AnyStatus

/-! ## Runs -/

theorem Operation.holds_call {lib : Library} {op : Operation} {call : Call} {r : Reaction}
    {events : List EntryEvent} (h : op.statusV.Holds events) (hcall : op.call lib call = some r) :
    Tells (AnyStatus.Holds (events ++ call.entryEvent.toList)) r := by
  have hstable := AnyStatus.stable_holds (events ++ call.entryEvent.toList)
  have hsame : call.entryEvent = none → op.statusV.Holds (events ++ call.entryEvent.toList) := by
    intro hnone
    rw [hnone]
    exact (List.append_nil events).symm ▸ h
  cases called_of_call hcall with
  | accepted =>
    exact tells_forceStatusTransmission hstable (AnyStatus.holds_modify _ (hsame rfl))
  | inProgress => exact tells_inProgress hstable (AnyStatus.holds_modify _ (hsame rfl))
  | finished => exact tells_finished hstable (hsame rfl) _ _
  | targetInformation hlist | downloadingList hlist =>
    cases hlist with
    | thrown | sent => exact .emit (hsame rfl) rfl
  | ratio hedit => exact .emit (AnyStatus.holds_edit h hedit) rfl
  | edit hedit => exact .none (AnyStatus.holds_edit h hedit)

theorem entryEvents_append (events events' : List Event) :
    entryEvents (events ++ events') = entryEvents events ++ entryEvents events' :=
  List.filterMap_append

/-- A step makes the change of its call, and sends the entries as they are. -/
theorem World.holds_step {lib : Library} {w w' : World} {event : Event} {out : List Observation}
    {events : List EntryEvent} (h : w.operation.statusV.Holds events)
    (hstep : w.step lib event = some (w', out)) :
    w'.operation.statusV.Holds (events ++ entryEvents [event]) ∧
      ∀ sent data, (sent, data) ∈ statusFilesSent out →
        sent.Holds (events ++ entryEvents [event]) := by
  cases event with
  | call call =>
    -- only here the entries change, and what holds before the call is not what holds behind it
    obtain ⟨reaction, hreaction, heq⟩ := Option.map_eq_some_iff.mp hstep
    have hentry : entryEvents [.call call] = call.entryEvent.toList := by
      cases hevent : call.entryEvent <;> simp [entryEvents, hevent]
    rw [hentry]
    exact Tells.react (Operation.holds_call h hreaction) heq
  | start | tftpRequest | completed | timerElapses | timerHandler =>
    have hkept := World.tells_step (AnyStatus.stable_holds events) h (by trivial) hstep
    simpa [entryEvents] using hkept

theorem World.holds_run {lib : Library} {w w' : World} {events : List Event}
    {out : List Observation} {past : List EntryEvent} (h : w.operation.statusV.Holds past)
    (hrun : (system lib).run w events = some (w', out)) :
    w'.operation.statusV.Holds (past ++ entryEvents events) := by
  induction events generalizing w past out with
  | nil =>
    cases hrun
    simpa [entryEvents] using h
  | cons event events ih =>
    obtain ⟨w₁, out₁, out₂, hstep, hrest, -⟩ := (system lib).run_cons hrun
    have hnext := ih (World.holds_step h hstep).1 hrest
    rwa [List.append_assoc, ← entryEvents_append, List.singleton_append] at hnext

/-- A status file is sent in the last step of a run. -/
def Transmits (lib : Library) (w : World) (pre : List Event) (event : Event) (sent : AnyStatus)
    (data : Bytes) : Prop :=
  ∃ w₁ out₁ w₂ out₂, (system lib).run w pre = some (w₁, out₁) ∧
    w₁.step lib event = some (w₂, out₂) ∧ (sent, data) ∈ statusFilesSent out₂

/-- A status file that is transmitted is the encoding of a status that shows the reports of the
handler exactly if the calls before it are fine. -/
theorem targetOperation_entries_iff (lib : Library) {kind : OperationType} {w : World}
    (hnew : w.operation.statusV = .ofKind kind) {pre : List Event} {event : Event}
    {sent : AnyStatus} {data : Bytes} (htransmits : Transmits lib w pre event sent data) :
    sent.encode lib.raw w.operation.protocolVersion = .ok data ∧
      (sent.Reports (entryEvents (pre ++ [event])) ↔ Fine (entryEvents (pre ++ [event]))) := by
  obtain ⟨w₁, out₁, w₂, out₂, hrun, hstep, hsent⟩ := htransmits
  have hbefore := World.holds_run (hnew ▸ AnyStatus.holds_ofKind kind) hrun
  have hholds := (World.holds_step hbefore hstep).2 sent data hsent
  rw [List.nil_append, ← entryEvents_append] at hholds
  have hencoded := World.encoded_step hstep hsent
  rw [World.protocolVersion_run hrun] at hencoded
  exact ⟨hencoded, AnyStatus.reports_iff hholds⟩

/-- A load that is accepted, in progress and completed, in a status file with one entry. -/
theorem targetOperation_entries_completed :
    ∃ pre event sent data,
      Transmits { raw := .bigEndian, generateCheckValue := fun _ _ => {} }
          (.ofOperation .upload (.ofText (text "ABCD_1")) .arinc615a34 1 59) pre event sent data ∧
        sent.encode .bigEndian .arinc615a34 = .ok data ∧
        (sent.Reports (entryEvents (pre ++ [event])) ↔ Fine (entryEvents (pre ++ [event]))) := by
  have htransmits : ∃ sent data, Transmits { raw := .bigEndian, generateCheckValue := fun _ _ => {} }
      (.ofOperation .upload (.ofText (text "ABCD_1")) .arinc615a34 1 59)
      [.call (.loadAccepted (text "LOAD.LUH") (text "PN")),
        .call (.loadInProgress .codeFirst (text "LOAD.LUH") .zero (text "Erasing")),
        .call (.loadFinished (text "LOAD.LUH") .completed []),
        .call .accepted, .timerElapses .expired]
      (.timerHandler .expired) sent data :=
    ⟨_, _, _, _, _, _, rfl, rfl, List.mem_singleton.mpr rfl⟩
  obtain ⟨sent, data, htransmits⟩ := htransmits
  have hnew : (World.ofOperation .upload (.ofText (text "ABCD_1")) .arinc615a34 1
      59).operation.statusV = .ofKind .upload := rfl
  exact ⟨_, _, sent, data, htransmits, targetOperation_entries_iff _ hnew htransmits⟩

/-- A load that fails by its part number is shown as aborted by the target hardware. -/
theorem targetOperation_entries_failed :
    ∃ pre event sent data,
      Transmits { raw := .bigEndian, generateCheckValue := fun _ _ => {} }
          (.ofOperation .upload (.ofText (text "ABCD_1")) .arinc615a34 1 59) pre event sent data ∧
        ¬sent.Reports (entryEvents (pre ++ [event])) := by
  refine ⟨[.call (.loadAccepted (text "LOAD.LUH") (text "PN")),
    .call (.loadFinished (text "LOAD.LUH") .loadPartNumberOrDownloadFileFailed []),
    .call .accepted, .timerElapses .expired], .timerHandler .expired, _, _,
    ⟨_, _, _, _, rfl, rfl, List.mem_singleton.mpr rfl⟩, ?_⟩
  intro hreports
  cases hreports with
  | cons hfirst _ =>
    obtain ⟨-, report, hreport, hcode, -⟩ := hfirst
    cases hreport
    exact absurd hcode.2 (by decide)

end Arinc615a.Target
