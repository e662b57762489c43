import Arinc615a.Target.Origins

/-!
# Codes in progress

The calls that report progress choose the code by whether there is a description, and move the
description in the same argument list.  Which comes first is left to the compiler.
-/

open Reasoning

namespace Arinc615a.Target

open Files Information Tftp

def ProperLoads (status : UploadStatus) : Prop :=
  ∀ load ∈ status.loads, ProperCode load.code load.description

def ProperFiles (status : DownloadStatus) : Prop :=
  ∀ file ∈ status.files, ProperCode file.code file.description

namespace AnyStatus

/-- The codes of the operation and of all its loads or files fit their descriptions. -/
def Proper (statusV : AnyStatus) : Prop :=
  ProperCode statusV.status.code statusV.status.description ∧
    match statusV with
    | .information _ => True
    | .upload status => ProperLoads status
    | .mediaDefinedDownload status | .operatorDefinedDownload status => ProperFiles status

/-- The common part of the status can be set, and the loads and files stay as they are. -/
theorem proper_modify {statusV : AnyStatus} (f : Status → Status) (h : statusV.Proper)
    (hf : ProperCode (f statusV.status).code (f statusV.status).description) :
    (statusV.modify f).Proper := by
  refine ⟨by rw [status_modify]; exact hf, ?_⟩
  cases statusV with
  | information status => trivial
  | upload status | mediaDefinedDownload status | operatorDefinedDownload status => exact h.2

theorem stable_proper : Stable AnyStatus.Proper where
  set _ _ _ _ hcode h := proper_modify _ h hcode
  accept _ h := proper_modify _ h ⟨nofun, nofun⟩
  count _ h := proper_modify _ h h.1

end AnyStatus

/-- Unless there is no description, the code is chosen before it is moved. -/
def Operation.ArgumentOrder.Fits (order : ArgumentOrder) (description : Text) : Prop :=
  description ≠ [] → order = .codeFirst

/-- The condition on a call that reports progress. -/
def Event.CodeFits : Event → Prop
  | .call (.inProgress order _ _ description) | .call (.inProgressRatio order _ _ description _)
  | .call (.loadInProgress order _ _ description) | .call (.fileInProgress order _ description) =>
    order.Fits description
  | _ => True

instance (order : Operation.ArgumentOrder) (description : Text) :
    Decidable (order.Fits description) :=
  inferInstanceAs (Decidable (_ → _))

theorem properCode_iff (order : Operation.ArgumentOrder) (description : Text) :
    ProperCode (Operation.inProgressCode order description) description ↔
      order.Fits description := by
  unfold Operation.ArgumentOrder.Fits
  cases order with
  | codeFirst => exact iff_of_true (properCode_codeFirst description) fun _ => rfl
  | moveFirst => simp [ProperCode, Operation.inProgressCode]

/-! ## Loads and files -/

/-- An update keeps what holds of all elements exactly if what it writes has the property. -/
theorem forall_updateFirst_iff {α : Type} {p : α → Bool} {new : α} {f : α → α} {P : α → Prop}
    {c : Prop} (hf : ∀ a, P (f a) ↔ c) {as : List α} (h : ∀ a ∈ as, P a) :
    (∀ a ∈ updateFirst p new f as, P a) ↔ c := by
  induction as with
  | nil => simp [updateFirst, hf]
  | cons a as ih =>
    obtain ⟨hfirst, hrest⟩ := List.forall_mem_cons.mp h
    unfold updateFirst
    split
    · rw [List.forall_mem_cons, hf]
      exact and_iff_left hrest
    · rw [List.forall_mem_cons, ih hrest]
      exact and_iff_right hfirst

theorem forall_updateFirst {α : Type} {p : α → Bool} {new : α} {f : α → α} {P : α → Prop}
    (hf : ∀ a, P (f a)) {as : List α} (h : ∀ a ∈ as, P a) : ∀ a ∈ updateFirst p new f as, P a := by
  rw [forall_updateFirst_iff (c := True) (fun a => iff_of_true (hf a) trivial) h]
  trivial

/-- A change of all elements but some keeps what it writes and what it leaves. -/
theorem forall_map_unless {α : Type} {p : α → Bool} {f : α → α} {P : α → Prop}
    (hf : ∀ a, P (f a)) {as : List α} (h : ∀ a ∈ as, P a) :
    ∀ a ∈ as.map fun a => if p a then a else f a, P a := by
  refine List.forall_mem_map.mpr fun a ha => ?_
  split
  · exact h a ha
  · exact hf a

section

variable {status : UploadStatus} (h : ProperLoads status)

include h

theorem properLoads_accepted (headerFilename partNumber : Text) :
    ProperLoads (UploadOperation.loadAccepted headerFilename partNumber status) := by
  refine List.forall_mem_append.mpr ⟨h, List.forall_mem_singleton.mpr ?_⟩
  exact ⟨nofun, nofun⟩

theorem properLoads_inProgress_iff (order : Operation.ArgumentOrder) (headerFilename : Text)
    (ratio : Ratio) (description : Text) :
    ProperLoads (UploadOperation.loadInProgress order headerFilename ratio description status) ↔
      order.Fits description := by
  rw [← properCode_iff]
  refine forall_updateFirst_iff (fun _ => ?_) h
  exact Iff.rfl

theorem properLoads_finished (headerFilename : Text) (finalStatus : FinalStatus)
    (description : Text) :
    ProperLoads (UploadOperation.loadFinished headerFilename finalStatus description status) := by
  refine forall_updateFirst (fun _ => ?_) h
  exact properCode_statusCode finalStatus description

theorem properLoads_allFinished (finalStatus : FinalStatus) (description : Text) :
    ProperLoads (UploadOperation.loadsFinished finalStatus description status) := by
  refine forall_map_unless (fun _ => ?_) h
  exact properCode_statusCode finalStatus description

end

section

variable {status : DownloadStatus} (h : ProperFiles status)

include h

theorem properFiles_accepted (filename : Text) :
    ProperFiles (DownloadOperation.fileAccepted filename status) := by
  refine List.forall_mem_append.mpr ⟨h, List.forall_mem_singleton.mpr ?_⟩
  exact ⟨nofun, nofun⟩

theorem properFiles_inProgress_iff (order : Operation.ArgumentOrder) (filename description : Text) :
    ProperFiles (DownloadOperation.fileInProgress order filename description status) ↔
      order.Fits description := by
  rw [← properCode_iff]
  refine forall_updateFirst_iff (fun _ => ?_) h
  exact Iff.rfl

theorem properFiles_finished (filename : Text) (finalStatus : FinalStatus) (description : Text) :
    ProperFiles (DownloadOperation.fileFinished filename finalStatus description status) := by
  refine forall_updateFirst (fun _ => ?_) h
  exact properCode_statusCode finalStatus description

theorem properFiles_allFinished (finalStatus : FinalStatus) (description : Text) :
    ProperFiles (DownloadOperation.filesFinished finalStatus description status) := by
  refine forall_map_unless (fun _ => ?_) h
  exact properCode_statusCode finalStatus description

end

namespace AnyStatus

/-- A call on the loads or files, or on the list ratio, leaves fitting codes exactly if its own one
fits. -/
theorem proper_edit_iff {statusV statusV' : AnyStatus} {call : Call} (h : statusV.Proper)
    (hedit : statusV.edit call = some statusV') :
    statusV'.Proper ↔ (Event.call call).CodeFits := by
  obtain ⟨hcode, hentries⟩ := h
  cases call with
  | inProgressRatio order immediateTransmission estimatedTime description listRatio =>
    rw [Event.CodeFits, ← properCode_iff]
    cases statusV <;> cases hedit <;> exact and_iff_left hentries
  | loadAccepted headerFilename partNumber =>
    cases statusV <;> cases hedit
    exact iff_of_true ⟨hcode, properLoads_accepted hentries _ _⟩ trivial
  | loadInProgress order headerFilename ratio description =>
    cases statusV <;> cases hedit
    exact (and_iff_right hcode).trans (properLoads_inProgress_iff hentries ..)
  | loadFinished headerFilename finalStatus description =>
    cases statusV <;> cases hedit
    exact iff_of_true ⟨hcode, properLoads_finished hentries _ _ _⟩ trivial
  | loadsFinished finalStatus description =>
    cases statusV <;> cases hedit
    exact iff_of_true ⟨hcode, properLoads_allFinished hentries _ _⟩ trivial
  | fileAccepted filename =>
    cases statusV <;> cases hedit <;>
      exact iff_of_true ⟨hcode, properFiles_accepted hentries _⟩ trivial
  | fileInProgress order filename description =>
    cases statusV <;> cases hedit <;>
      exact (and_iff_right hcode).trans (properFiles_inProgress_iff hentries ..)
  | fileFinished filename finalStatus description =>
    cases statusV <;> cases hedit <;>
      exact iff_of_true ⟨hcode, properFiles_finished hentries _ _ _⟩ trivial
  | filesFinished finalStatus description =>
    cases statusV <;> cases hedit <;>
      exact iff_of_true ⟨hcode, properFiles_allFinished hentries _ _⟩ trivial
  | accepted | inProgress | finished | targetInformation | downloadingList => cases hedit

end AnyStatus

/-! ## Calls -/

namespace Operation

variable {lib : Library} {op : Operation}

/-- A status that has been set is sent as it is. -/
theorem status_forceStatusTransmission (hcode : op.statusV.status.code ≠ .invalid) :
    (op.forceStatusTransmission lib).1.statusV.status.code = op.statusV.status.code ∧
      (op.forceStatusTransmission lib).1.statusV.status.description =
        op.statusV.status.description := by
  have hforce : op.forceAccepted = op := if_neg hcode
  unfold forceStatusTransmission
  split
  · unfold statusFile
    rw [hforce]
    dsimp only
    split
    · exact ⟨rfl, rfl⟩
    · simp [Reaction.andThen, protocolFileOperation, emit, incrementCounter,
        triggerStatusTransmissionTimer]
  · exact ⟨rfl, rfl⟩

theorem properCode_inProgress (order : ArgumentOrder) (immediateTransmission : Bool)
    (estimatedTime : Int16) (description : Text) :
    ProperCode
        (op.inProgress lib order immediateTransmission estimatedTime description).1.statusV.status.code
        (op.inProgress lib order immediateTransmission estimatedTime
          description).1.statusV.status.description ↔
      order.Fits description := by
  have hset : (op.status (inProgressCode order description) description
      estimatedTime).statusV.status = { op.statusV.status.set (inProgressCode order description)
        description with estimatedTime := estimatedTime } := AnyStatus.status_modify ..
  have hvalid : inProgressCode order description ≠ .invalid := by
    unfold inProgressCode
    split
    · split <;> decide
    · decide
  rw [← properCode_iff]
  unfold inProgress
  dsimp only
  split
  · have hcode : (op.status (inProgressCode order description) description
        estimatedTime).statusV.status.code ≠ .invalid := by
      rw [hset]
      exact hvalid
    rw [(status_forceStatusTransmission hcode).1, (status_forceStatusTransmission hcode).2, hset]
    exact Iff.rfl
  · rw [hset]
    exact Iff.rfl

theorem tells_call_proper {call : Call} {r : Reaction} (h : op.statusV.Proper)
    (hfits : (Event.call call).CodeFits) (hcall : op.call lib call = some r) :
    Tells AnyStatus.Proper r := by
  have hstable := AnyStatus.stable_proper
  cases called_of_call hcall with
  | accepted => exact tells_forceStatusTransmission hstable (hstable.set _ _ _ _ ⟨nofun, nofun⟩ h)
  | inProgress =>
    exact tells_inProgress hstable (hstable.set _ _ _ _ ((properCode_iff _ _).mpr hfits) h)
  | finished => exact tells_finished hstable h _ _
  | targetInformation hlist | downloadingList hlist =>
    cases hlist with
    | thrown | sent => exact .emit h rfl
  | ratio hedit => exact .emit ((AnyStatus.proper_edit_iff h hedit).mpr hfits) rfl
  | edit hedit => exact .none ((AnyStatus.proper_edit_iff h hedit).mpr hfits)

/-- A call that leaves a fitting status fits itself. -/
theorem codeFits_of_call {call : Call} {r : Reaction} (h : op.statusV.Proper)
    (hcall : op.call lib call = some r) (hproper : r.1.statusV.Proper) :
    (Event.call call).CodeFits := by
  cases called_of_call hcall with
  | accepted | finished | targetInformation | downloadingList => trivial
  | inProgress => exact (properCode_inProgress _ _ _ _).mp hproper.1
  | ratio hedit | edit hedit => exact (AnyStatus.proper_edit_iff h hedit).mp hproper

end Operation

/-! ## Runs -/

theorem World.proper_step {lib : Library} {w w' : World} {event : Event}
    {out : List Observation} (h : w.operation.statusV.Proper) (hfits : event.CodeFits)
    (hstep : w.step lib event = some (w', out)) :
    w'.operation.statusV.Proper ∧
      ∀ sent data, (sent, data) ∈ statusFilesSent out → sent.Proper := by
  refine World.tells_step AnyStatus.stable_proper h ?_ hstep
  cases event with
  | call call => exact fun r hcall => Operation.tells_call_proper h hfits hcall
  | _ => trivial

/-- One step leaves fitting codes exactly if the call it makes fits. -/
theorem World.proper_step_iff {lib : Library} {w w' : World} {event : Event}
    {out : List Observation} (h : w.operation.statusV.Proper)
    (hstep : w.step lib event = some (w', out)) :
    w'.operation.statusV.Proper ↔ event.CodeFits := by
  refine ⟨fun hproper => ?_, fun hfits => (World.proper_step h hfits hstep).1⟩
  cases event with
  | call call =>
    obtain ⟨reaction, hreaction, heq⟩ := Option.map_eq_some_iff.mp hstep
    cases heq
    exact Operation.codeFits_of_call h hreaction hproper
  | _ => trivial

/-- The status of a new operation has no code in progress. -/
theorem AnyStatus.proper_ofKind (kind : OperationType) : (AnyStatus.ofKind kind).Proper := by
  cases kind <;> exact ⟨⟨nofun, nofun⟩, by simp [AnyStatus.ofKind, ProperLoads, ProperFiles]⟩

/-- The codes in progress fit their descriptions in every state exactly if every call fits; then
they do so in every status file that is transmitted. -/
theorem targetOperation_properCodes_iff (lib : Library) {kind : OperationType} {w w' : World}
    {events : List Event} {out : List Observation} (hnew : w.operation.statusV = .ofKind kind)
    (hrun : (system lib).run w events = some (w', out)) :
    ((∀ pre post w₁ out₁, events = pre ++ post → (system lib).run w pre = some (w₁, out₁) →
        w₁.operation.statusV.Proper) ↔
      (system lib).Throughout (fun _ event => event.CodeFits) w events) ∧
    ((system lib).Throughout (fun _ event => event.CodeFits) w events →
      ∀ sent data, (sent, data) ∈ statusFilesSent out →
        sent.Proper ∧ sent.encode lib.raw w.operation.protocolVersion = .ok data) := by
  have hproper : w.operation.statusV.Proper := hnew ▸ AnyStatus.proper_ofKind kind
  refine ⟨(system lib).reached_iff (P := fun w => w.operation.statusV.Proper)
    (fun w event w' out h hstep => World.proper_step_iff h hstep) hproper hrun, fun hfits => ?_⟩
  -- what each step sends, from a status that fits
  have hstep (w : World) (event : Event) (w' : World) (out : List Observation)
      (h : w.operation.statusV.Proper) (hfits : event.CodeFits)
      (hstep : w.step lib event = some (w', out)) : w'.operation.statusV.Proper ∧
        ∀ o ∈ out, ∀ sent data, (sent, data) ∈ statusFilesSent [o] → sent.Proper := by
    rw [← forall_statusFilesSent]
    exact World.proper_step h hfits hstep
  intro sent data hsent
  have hsentProper := forall_statusFilesSent.mpr
    ((system lib).forall_run hstep hproper hfits hrun) sent data hsent
  exact ⟨hsentProper, World.encoded_run hrun hsent⟩

/-- An upload whose codes are chosen before the descriptions are moved. -/
theorem targetOperation_properCodes_codeFirst :
    ∃ w' out,
      (system { raw := .bigEndian, generateCheckValue := fun _ _ => {} }).run
          (.ofOperation .upload (.ofText (text "ABCD_1")) .arinc615a34 1 59)
          [.call (.inProgress .codeFirst true 0 (text "Erasing")),
            .call (.loadInProgress .codeFirst (text "LOAD.LUH") .zero (text "Erasing")),
            .timerElapses .expired, .timerHandler .expired] = some (w', out) ∧
        ∀ sent data, (sent, data) ∈ statusFilesSent out →
          sent.Proper ∧ sent.encode .bigEndian .arinc615a34 = .ok data := by
  have hnew : (World.ofOperation .upload (.ofText (text "ABCD_1")) .arinc615a34 1
      59).operation.statusV = .ofKind .upload := rfl
  obtain ⟨⟨w', out⟩, hrun⟩ : ∃ r, (system
      { raw := .bigEndian, generateCheckValue := fun _ _ => {} }).run
      (.ofOperation .upload (.ofText (text "ABCD_1")) .arinc615a34 1 59)
      [.call (.inProgress .codeFirst true 0 (text "Erasing")),
        .call (.loadInProgress .codeFirst (text "LOAD.LUH") .zero (text "Erasing")),
        .timerElapses .expired, .timerHandler .expired] = some r := ⟨_, rfl⟩
  refine ⟨w', out, hrun, (targetOperation_properCodes_iff _ hnew hrun).2 ?_⟩
  rintro pre event post w₁ out₁ hevents -
  have hmem : event ∈ pre ++ event :: post := by simp
  rw [← hevents] at hmem
  simp only [List.mem_cons, List.not_mem_nil, or_false] at hmem
  rcases hmem with rfl | rfl | rfl | rfl
  · exact fun _ => rfl
  · exact fun _ => rfl
  · trivial
  · trivial

/-- The description is moved before it is asked whether it is empty. -/
theorem targetOperation_properCodes_moveFirst :
    ∃ w' out,
      (system { raw := .bigEndian, generateCheckValue := fun _ _ => {} }).run
          (.ofOperation .upload (.ofText (text "ABCD_1")) .arinc615a34 1 59)
          [.call (.inProgress .moveFirst true 0 (text "Erasing")), .timerElapses .expired,
            .timerHandler .expired] = some (w', out) ∧
        ∃ sent data, (sent, data) ∈ statusFilesSent out ∧ ¬sent.Proper := by
  refine ⟨_, _, rfl, _, _, List.mem_singleton.mpr rfl, ?_⟩
  exact fun h => absurd (h.1.1 rfl) (by decide)

end Arinc615a.Target
