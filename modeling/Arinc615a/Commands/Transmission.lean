import Arinc615a.Commands.Handlers

/-!
# The request that starts the transfers

An upload sends its list of loads, and a media defined download its list of files, on the status
that accepts the operation.  The commands send it again on later ones until it has been taken, and
then never again.
-/

open Reasoning

namespace Arinc615a.Commands

open Files Information Tftp Host

section

variable (accepts : Output → Bool) (request : Operation.Request)

/-- Observations that have nothing to do with the request. -/
def Command.Observation.aside : Command.Observation → Bool
  | .call _ o => !accepts o
  | .send .. => false
  | _ => true

/-- What is seen while the request becomes one that has been transmitted, or stays one that has
not. -/
inductive Transmits : Bool → List Command.Observation → Bool → Prop
  | nil (transmitted : Bool) : Transmits transmitted [] transmitted
  | aside {transmitted transmitted' : Bool} {out : List Command.Observation}
      {o : Command.Observation} (ho : o.aside accepts = true)
      (hrest : Transmits transmitted out transmitted') :
    Transmits transmitted (o :: out) transmitted'
  | late {transmitted' : Bool} {out : List Command.Observation} (now : Nat) {o : Output}
      (ho : accepts o = true) (hrest : Transmits true out transmitted') :
    Transmits true (.call now o :: out) transmitted'
  | refused {transmitted' : Bool} {out : List Command.Observation} (now : Nat) {o : Output}
      (ho : accepts o = true) (hrest : Transmits false out transmitted') :
    Transmits false (.call now o :: .send request false :: out) transmitted'
  | taken {transmitted' : Bool} {out : List Command.Observation} (now : Nat) {o : Output}
      (ho : accepts o = true) (hrest : Transmits true out transmitted') :
    Transmits false (.call now o :: .send request true :: out) transmitted'

end

namespace Transmits

variable {accepts : Output → Bool} {request : Operation.Request} {t t' t'' : Bool}
  {out out' : List Command.Observation}

theorem append (h : Transmits accepts request t out t')
    (h' : Transmits accepts request t' out' t'') :
    Transmits accepts request t (out ++ out') t'' := by
  induction h with
  | nil => exact h'
  | aside ho _ ih => exact .aside ho (ih h')
  | late now ho _ ih => exact .late now ho (ih h')
  | refused now ho _ ih => exact .refused now ho (ih h')
  | taken now ho _ ih => exact .taken now ho (ih h')

theorem of_aside (h : ∀ o ∈ out, o.aside accepts = true) : Transmits accepts request t out t := by
  induction out with
  | nil => exact .nil t
  | cons o out ih =>
    obtain ⟨ho, hrest⟩ := List.forall_mem_cons.mp h
    exact .aside ho (ih hrest)

/-- The request is taken once at most, and then the flag is set. -/
theorem count_taken (h : Transmits accepts request t out t') :
    t.toNat + out.count (.send request true) = t'.toNat := by
  induction h with
  | nil => rfl
  | aside ho _ ih =>
    rwa [List.count_cons_of_ne]
    rintro rfl
    cases ho
  | late now ho _ ih => rwa [List.count_cons_of_ne (by simp)]
  | refused now ho _ ih =>
    rwa [List.count_cons_of_ne (by simp), List.count_cons_of_ne (by simp)]
  | taken now ho _ ih =>
    rw [List.count_cons_of_ne (by simp), List.count_cons_self, ← ih]
    simp [Nat.add_comm]

end Transmits

/-! ## Handlers that send one request -/

/-- A handler whose flag says whether its request has been transmitted. -/
structure Transmitting {μ : Type} (h : CommandHandler μ) (kind : OperationType)
    (accepts : Output → Bool) (transmitted : μ → Bool) (request : Operation.Request) : Prop where
  /-- Operations of the class have such a request. -/
  sends : ∀ lib op, Operation.kind op = kind → op.send lib request ≠ none
  status : ∀ o, accepts o = true →
    (∃ status, o = .uploadStatus status) ∨ ∃ status, o = .downloadStatus status
  demanded : ∀ now members o, (h.called now members o).2 =
    if accepts o = true ∧ transmitted members = false then .send request else .nothing
  called : ∀ now members o, transmitted (h.called now members o).1 = transmitted members
  sent : ∀ members, transmitted (h.sent members) = true
  fileStarted : ∀ now members operation partNumber checkValue,
    transmitted (h.fileStarted now members operation partNumber checkValue) = transmitted members
  fileCompleted : ∀ now members operation result,
    transmitted (h.fileCompleted now members operation result) = transmitted members

namespace Transmitting

open Arinc615a.Commands.Command

variable {μ : Type} {lib : Library} {h : CommandHandler μ} {kind : OperationType}
  {accepts : Output → Bool} {transmitted : μ → Bool} {request : Operation.Request}
  {command : Command μ} {now : Nat} (law : Transmitting h kind accepts transmitted request)

include law

theorem aside_of_unheard {o : Output} (ho : heard o = false) :
    (Command.Observation.call now o).aside accepts = true := by
  cases haccepts : accepts o with
  | false => simp [Command.Observation.aside, haccepts]
  | true =>
    rcases law.status o haccepts with ⟨status, rfl⟩ | ⟨status, rfl⟩
    · cases ho
    · cases ho

theorem aside_calls (now : Nat) {out : List Output} (hout : Unheard out) :
    ∀ o ∈ out.map (Command.Observation.call now), o.aside accepts = true := by
  intro o ho
  obtain ⟨output, houtput, rfl⟩ := List.mem_map.mp ho
  exact law.aside_of_unheard (hout output houtput)

/-- The status that accepts the operation. -/
theorem accepted (hkind : command.operation.operation.kind = kind) {o : Output}
    (ho : accepts o = true) :
    Follows (fun command => command.operation.operation.kind = kind)
      (fun command => transmitted command.members) (Transmits accepts request) command
      (.call now o :: (handler lib h now command o).out) (handler lib h now command o).command := by
  have hhandler : handler lib h now command o =
      Command.demand lib h now { command with members := (h.called now command.members o).1 }
        (h.called now command.members o).2 := by
    rcases law.status o ho with ⟨status, rfl⟩ | ⟨status, rfl⟩
    · rfl
    · rfl
  have hcalled := law.called now command.members o
  rw [hhandler, law.demanded]
  cases hflag : transmitted command.members with
  | true =>
    rw [if_neg (by simp)]
    refine ⟨hkind, ?_⟩
    show Transmits accepts request (transmitted command.members) [.call now o]
      (transmitted (h.called now command.members o).1)
    rw [hcalled, hflag]
    exact .late now ho (.nil true)
  | false =>
    rw [if_pos ⟨ho, rfl⟩]
    rcases demand_send lib h now
        { command with members := (h.called now command.members o).1 } request with
      ⟨hnone, -⟩ | ⟨taken, out, hout, heq, hframed⟩
    · exact absurd hnone (law.sends lib _ hkind)
    · refine ⟨hframed.kind.trans hkind, ?_⟩
      have haside := law.aside_calls now hout
      dsimp only
      rw [heq, hframed.members, hflag]
      cases taken with
      | true =>
        rw [if_pos rfl, law.sent]
        exact .taken now ho (.of_aside haside)
      | false =>
        rw [if_neg (by simp), hcalled, hflag]
        exact .refused now ho (.of_aside haside)

/-- All other calls leave the flag as it is. -/
theorem unaccepted (hkind : command.operation.operation.kind = kind) {o : Output}
    (ho : accepts o = false) :
    Follows (fun command => command.operation.operation.kind = kind)
      (fun command => transmitted command.members) (Transmits accepts request) command
      (.call now o :: (handler lib h now command o).out) (handler lib h now command o).command := by
  have hcall : (Command.Observation.call now o).aside accepts = true := by
    simp [Command.Observation.aside, ho]
  have hnothing : (h.called now command.members o).2 = .nothing := by
    rw [law.demanded, if_neg (by simp [ho])]
  have hquiet : (handler lib h now command o).command.operation = command.operation ∧
      transmitted (handler lib h now command o).command.members = transmitted command.members ∧
      ∀ seen ∈ (handler lib h now command o).out, seen.aside accepts = true := by
    cases o with
    | fileRequest remote filename partNumber checkValue =>
      unfold handler fileRequest
      dsimp only
      split
      · exact ⟨rfl, rfl, List.forall_mem_singleton.mpr rfl⟩
      · exact ⟨rfl, law.fileStarted .., List.forall_mem_singleton.mpr rfl⟩
    | finished code description =>
      unfold handler
      dsimp only
      rw [hnothing]
      exact ⟨rfl, law.called .., List.forall_mem_singleton.mpr rfl⟩
    | _ =>
      unfold handler
      dsimp only
      rw [hnothing]
      exact ⟨rfl, law.called .., List.forall_mem_nil _⟩
  obtain ⟨hoperation, hflag, hout⟩ := hquiet
  refine ⟨(congrArg (·.operation.kind) hoperation).trans hkind, ?_⟩
  show Transmits accepts request (transmitted command.members) _
    (transmitted (handler lib h now command o).command.members)
  rw [hflag]
  exact .aside hcall (.of_aside hout)

theorem rule :
    Rule lib h (fun command => command.operation.operation.kind = kind)
      (fun command => transmitted command.members) (Transmits accepts request) where
  composable := ⟨.nil, .append⟩
  framed hframed hkind :=
    ⟨hframed.kind.trans hkind, congrArg transmitted hframed.members⟩
  unheard _ _ _ ho := .aside (law.aside_of_unheard ho) (.nil _)
  handler _ o hkind := by
    cases ho : accepts o with
    | true => exact law.accepted hkind ho
    | false => exact law.unaccepted hkind ho
  fileCompleted now result hkind _ := by
    unfold Command.fileCompleted
    dsimp only
    split
    · refine ⟨(framed_abort now .protocol).kind.trans hkind, ?_⟩
      show Transmits accepts request _ _ (transmitted (h.fileCompleted _ _ _ _))
      rw [law.fileCompleted]
      exact .aside rfl (.aside rfl (.of_aside (law.aside_calls now (unheard_doAbort _ _))))
    · refine ⟨hkind, ?_⟩
      show Transmits accepts request _ _ (transmitted (h.fileCompleted _ _ _ _))
      rw [law.fileCompleted]
      exact .aside rfl (.nil _)

end Transmitting

/-! ## The commands -/

def acceptsUpload : Output → Bool
  | .uploadStatus status => decide (status.code = .operationAccepted)
  | _ => false

def acceptsDownload : Output → Bool
  | .downloadStatus status => decide (status.code = .operationAccepted)
  | _ => false

theorem transmitting_upload
    (filePath : List UploadLoad → Text → Text → CheckValue → Option Text)
    (loads : List UploadLoad) :
    Transmitting (uploadHandler filePath loads) .upload acceptsUpload id (.loadList loads) where
  sends lib op hkind := by
    unfold Operation.send
    rw [hkind]
    simp
  status o ho := by
    cases o with
    | uploadStatus status => exact .inl ⟨status, rfl⟩
    | _ => cases ho
  demanded now members o := by
    cases o with
    | uploadStatus status => simp [uploadHandler, acceptsUpload]
    | _ => simp [uploadHandler, acceptsUpload]
  called now members o := by
    cases o <;> rfl
  sent _ := rfl
  fileStarted _ _ _ _ _ := rfl
  fileCompleted _ _ _ _ := rfl

theorem transmitting_mediaDefinedDownload (paths : PathLibrary) (downloadDataPath : Text)
    (requestedFiles : List Text) (userDefinedData : Bytes) :
    Transmitting
      (mediaDefinedDownloadHandler paths downloadDataPath requestedFiles userDefinedData)
      .mediaDefinedDownload acceptsDownload (·.listTransmitted)
      (.request requestedFiles userDefinedData) where
  sends lib op hkind := by
    unfold Operation.send
    rw [hkind]
    simp
  status o ho := by
    cases o with
    | downloadStatus status => exact .inr ⟨status, rfl⟩
    | _ => cases ho
  demanded now members o := by
    cases o with
    | downloadStatus status =>
      simp only [mediaDefinedDownloadHandler, acceptsDownload, decide_eq_true_eq]
      split
      · rfl
      · rfl
    | _ => simp [mediaDefinedDownloadHandler, acceptsDownload]
  called now members o := by
    cases o with
    | downloadStatus status =>
      simp only [mediaDefinedDownloadHandler]
      split
      · rfl
      · rfl
    | _ => rfl
  sent _ := rfl
  fileStarted _ _ _ _ _ := rfl
  fileCompleted _ _ _ _ := rfl

/-- The upload commands and the one for media defined downloads send their request on the status
that accepts the operation, and again as long as it is refused; it is taken once at most. -/
theorem commands_transmit {lib : Library} {targetId : TargetId} {dlpTimeout : Nat}
    {portOption : Bool} {events : List (Nat × Command.Event)} {out : List Command.Observation} :
    (∀ {filePath loads after},
      (commandSystem lib (uploadHandler filePath loads)).run
          (.created false .upload targetId dlpTimeout portOption) events = some (after, out) →
        Transmits acceptsUpload (.loadList loads) false out after.members ∧
          out.count (.send (.loadList loads) true) = after.members.toNat) ∧
      ∀ {paths downloadDataPath requestedFiles userDefinedData after},
        (commandSystem lib (mediaDefinedDownloadHandler paths downloadDataPath requestedFiles
            userDefinedData)).run
            (.created {} .mediaDefinedDownload targetId dlpTimeout portOption) events =
          some (after, out) →
        Transmits acceptsDownload (.request requestedFiles userDefinedData) false out
            after.members.listTransmitted ∧
          out.count (.send (.request requestedFiles userDefinedData) true) =
            after.members.listTransmitted.toNat := by
  refine ⟨fun {filePath loads after} hrun => ?_,
    fun {paths downloadDataPath requestedFiles userDefinedData after} hrun => ?_⟩
  · have htransmits := (transmitting_upload filePath loads).rule.runs rfl hrun
    have hcount := htransmits.count_taken
    exact ⟨htransmits, by simpa [Command.created] using hcount⟩
  · have htransmits := (transmitting_mediaDefinedDownload paths downloadDataPath requestedFiles
      userDefinedData).rule.runs rfl hrun
    have hcount := htransmits.count_taken
    exact ⟨htransmits, by simpa [Command.created] using hcount⟩

/-- An upload that is accepted by two statuses sends its list once. -/
theorem commands_transmit_upload :
    let paths : PathLibrary :=
      { append := (· ++ ·), lexicallyNormal := id, isRegularFile := fun _ => false
        normaliseFilename := id }
    let media : MediaLibrary Text Nat :=
      { loadsFile := fun _ filename _ _ => some filename, mediaSet := fun _ => 0
        effectiveMediumNumber := fun _ => 1, relativePath := id }
    let handler := UploadOperationCommand.handler paths media id [⟨text "A.LUH", text "PN"⟩]
    let accepted : Bytes := [0, 0, 0, 20, 0x41, 0x34, 0, 1, 0, 0, 0, 0, 0, 0, 0, 0x30, 0x30, 0x30,
      0, 0]
    ∃ after out,
      (commandSystem { raw := .bigEndian, generateCheckValue := fun _ _ => {} } handler).run
          (.created false .upload (.ofText (text "ABCD_1")) 10 false)
          [(0, .execute .started),
            (1, .operation (.tftpRequest ⟨1, 2⟩ .write (text "ABCD_1.LUS") {})),
            (2, .operation (.completed (.status 0) .successful accepted)),
            (3, .operation (.tftpRequest ⟨1, 2⟩ .write (text "ABCD_1.LUS") {})),
            (4, .operation (.completed (.status 1) .successful accepted))] =
        some (after, out) ∧
      after.members = true ∧
      Transmits acceptsUpload (.loadList [⟨text "A.LUH", text "PN"⟩]) false out true := by
  intro paths media handler accepted
  obtain ⟨after, out, hrun, hmembers⟩ : ∃ after out,
      (commandSystem { raw := .bigEndian, generateCheckValue := fun _ _ => {} } handler).run
          (.created false .upload (.ofText (text "ABCD_1")) 10 false)
          [(0, .execute .started),
            (1, .operation (.tftpRequest ⟨1, 2⟩ .write (text "ABCD_1.LUS") {})),
            (2, .operation (.completed (.status 0) .successful accepted)),
            (3, .operation (.tftpRequest ⟨1, 2⟩ .write (text "ABCD_1.LUS") {})),
            (4, .operation (.completed (.status 1) .successful accepted))] =
        some (after, out) ∧ after.members = true :=
    Reactive.exists_run_of_any _ (P := fun (after : Command Bool) _ => after.members = true)
      (by decide +kernel)
  have htransmits := (commands_transmit.1 hrun).1
  rw [hmembers] at htransmits
  exact ⟨after, out, hrun, hmembers, htransmits⟩

end Arinc615a.Commands
