import Arinc615a.Host.Frame
import Arinc615a.Reasoning.Replacement

/-!
# Lists that take the place of each other

`listFileOperationV` holds the transfer of a list.  A new request for the list aborts the transfer
that is held and stores the new one.  The transfer that was replaced reports that it was aborted,
before `gracefulAbort` returns or at any time later, to a completion handler that cannot tell the
two apart.
-/

open Reasoning

namespace Arinc615a.Host

open Files Information Tftp

namespace Operation

variable (lib : Library) (op : Operation)

/-- The calls in front of `listFileRequest`, and the check value of the new transfer.  `none` is a
request that is not for a list. -/
def listRequest? (remote : Endpoint) (requestType : RequestType) (filename : Text)
    (options : Arinc615aOptions) : Option (List Output × CheckValue) :=
  if (op.checkRequest filename remote).isSome then none
  else match op.kind, (ProtocolFilename.ofText filename).fileTypeV with
    | .information, .loadConfigurationList =>
      let first : List Output :=
        if requestType ≠ .write then
          [.errorOperation remote .illegalTftpOperation "Only WRQ allowed"]
        else []
      some (first, options.checksum)
    | .operatorDefinedDownload, .operatorDefinedDownloadList =>
      if requestType = .write then some ([], {}) else none
    | _, _ => none

/-- `listFileRequest` of the two operations that receive a list. -/
def listFileRequest (checkValue : CheckValue) : Reaction :=
  ({ op with listFileOperation := true },
    (if op.listFileOperation then
      [.gracefulAbort (.list checkValue) "New list file received"] else []) ++
      [.transferStart (.list checkValue)])

/-- A request for a list is handled by `listFileRequest`, behind the calls in front of it. -/
theorem tftpRequest_of_listRequest {remote : Endpoint} {requestType : RequestType}
    {filename : Text} {options : Arinc615aOptions} {first : List Output} {checkValue : CheckValue}
    (h : op.listRequest? remote requestType filename options = some (first, checkValue)) :
    op.tftpRequest remote requestType filename options =
      Reaction.andThen (op, first) fun op => op.listFileRequest checkValue := by
  unfold listRequest? at h
  split at h
  · cases h
  case isFalse hcheck =>
    have hnone : op.checkRequest filename remote = none := Option.not_isSome_iff_eq_none.mp hcheck
    rw [tftpRequest_unchecked hnone, readAnswer]
    split at h
    case h_1 hkind htype =>
      cases h
      simp only [hkind, htype, handling, true_and]
      rfl
    case h_2 hkind htype =>
      split at h
      case isTrue hwrite =>
        cases h
        simp only [hkind, htype, hwrite, handling, ne_eq, not_true_eq_false, and_false, if_false]
        rfl
      case isFalse => cases h
    case h_3 => cases h

/-- In front of `listFileRequest` there is at most the answer to a read request. -/
theorem listRequest?_first {remote : Endpoint} {requestType : RequestType}
    {filename : Text} {options : Arinc615aOptions} {first : List Output} {checkValue : CheckValue}
    (h : op.listRequest? remote requestType filename options = some (first, checkValue))
    {o : Output} (ho : o ∈ first) :
    ∃ remote code message, o = .errorOperation remote code message := by
  unfold listRequest? at h
  split at h
  · cases h
  · split at h
    · cases h
      split at ho
      · exact ⟨_, _, _, List.mem_singleton.mp ho⟩
      · cases ho
    · split at h
      · cases h
        cases ho
      · cases h
    · cases h

/-- What the report of a replaced transfer comes to. -/
theorem listFileCompleted_aborted
    (hkind : op.kind = .information ∨ op.kind = .operatorDefinedDownload)
    (checkValue : CheckValue) (data : Bytes) :
    op.listFileCompleted lib checkValue .aborted data =
      if op.kind = .information ∧ op.waitForFinalStatus = false then
        finished { op with listFileOperation := false } .operationAbortedByDlp
          (text "Invalid Protocol file")
      else doAbort { op with listFileOperation := false } .protocol := by
  obtain ⟨kind, targetId, dlpTimeout, portOption, version, reason, initialisation, statuses, next,
    list, wait, sent⟩ := op
  rcases hkind with hkind | hkind
  · cases hkind
    cases wait with
    | false => rfl
    | true => rfl
  · cases hkind
    rfl

/-- An abort is pending already, and the information operation waits for its final status. -/
def AbortPending : Prop :=
  op.abortReason ≠ .noAbort ∧ (op.kind = .information → op.waitForFinalStatus = true)

end Operation

namespace World

/-- `listFileRequest` when the transfer that is held reports before `gracefulAbort` returns. -/
def listReporting (lib : Library) (w : World) (event : Event) (replaced : CheckValue) :
    Option (World × List Observation × List Observation × List Observation) :=
  match event with
  | .tftpRequest remote requestType filename options =>
    if w.serverRunning && w.operation.listFileOperation then
      match w.operation.listRequest? remote requestType filename options with
      | none => none
      | some (first, checkValue) =>
        let (aborting, front) := w.react fun op =>
          (op, first ++ [.gracefulAbort (.list checkValue) "New list file received"])
        (aborting.loop.complete (.list replaced)).map fun loop =>
          let (reported, report) := { aborting with loop := loop }.react fun op =>
            op.listFileCompleted lib replaced .aborted []
          let (w', behind) := reported.react fun op =>
            ({ op with listFileOperation := true }, [.transferStart (.list checkValue)])
          (w', front, report, behind)
    else none
  | _ => none

/-- The operation goes on as before: it is neither aborted nor finished. -/
def Alone (w w' : World) (out : List Observation) : Prop :=
  w'.operation.abortReason = w.operation.abortReason ∧
    ∀ o ∈ out, o.mark ≠ .finish

end World

/-- The transfers of lists, which `listFileOperationV` holds. -/
def listTransfers (lib : Library) : Replacements World Event Observation CheckValue where
  sys := system lib
  starts
    | .call (.transferStart (.list checkValue)) => some checkValue
    | _ => none
  completes
    | .completed (.list checkValue) _ _ => some checkValue
    | _ => none
  aborted
    | .completed _ .aborted _ => true
    | _ => false
  reporting := World.listReporting lib

namespace Operation

variable (lib : Library) (op : Operation) (checkValue : CheckValue) (data : Bytes)

/-- A report leaves the operation alone exactly when an abort is pending. -/
theorem report_spec (hkind : op.kind = .information ∨ op.kind = .operatorDefinedDownload) :
    (op.listFileCompleted lib checkValue .aborted data).1.kind = op.kind ∧
      ((op.listFileCompleted lib checkValue .aborted data).2.map Observation.call).filterMap
        (listTransfers lib).starts = [] ∧
      ((op.listFileCompleted lib checkValue .aborted data).1.abortReason = op.abortReason ∧
        (∀ o ∈ (op.listFileCompleted lib checkValue .aborted data).2, o.mark ≠ .finish) ↔
          op.AbortPending) := by
  rw [op.listFileCompleted_aborted lib hkind]
  unfold AbortPending
  split
  case isTrue hfinishes =>
    -- the information operation has not received a status file before
    refine ⟨rfl, rfl, iff_of_false (fun h => ?_) fun h => ?_⟩
    · exact h.2 _ (List.mem_cons_self ..) rfl
    · exact absurd ((h.2 hfinishes.1).symm.trans hfinishes.2) (by decide)
  case isFalse hwaits =>
    have hwait : op.kind = .information → op.waitForFinalStatus = true := fun hinformation =>
      eq_true_of_ne_false fun h => hwaits ⟨hinformation, h⟩
    unfold doAbort
    split
    case isTrue hpending =>
      exact ⟨rfl, rfl, iff_of_true ⟨rfl, List.forall_mem_nil _⟩ ⟨hpending, hwait⟩⟩
    case isFalse hnone =>
      have hnoAbort : op.abortReason = .noAbort := not_not.mp hnone
      have hafter := apart_abortInitialisation
        { op with listFileOperation := false, abortReason := .protocol }
      refine ⟨hafter.kept.kind, ?_, iff_of_false (fun h => ?_) fun h => h.1 hnoAbort⟩
      · unfold abortInitialisation
        split <;> rfl
      · have hreason := h.1
        rw [hnoAbort] at hreason
        unfold abortInitialisation at hreason
        split at hreason <;> cases hreason

end Operation

namespace World

variable {lib : Library} {w w' : World}

/-- The parts of a request in the middle of which the replaced transfer reports. -/
theorem listReporting_cases {event : Event} {replaced : CheckValue}
    {front report behind : List Observation}
    (h : listReporting lib w event replaced = some (w', front, report, behind)) :
    ∃ (first : List Output) (checkValue : CheckValue),
      w'.operation =
        { (w.operation.listFileCompleted lib replaced .aborted []).1 with
          listFileOperation := true } ∧
      front = first.map .call ∧
      (∀ o ∈ first, o.mark = .neutral ∧ ∀ transfer, o ≠ .transferStart transfer) ∧
      report = (w.operation.listFileCompleted lib replaced .aborted []).2.map .call ∧
      behind = [.call (.transferStart (.list checkValue))] := by
  cases event with
  | tftpRequest remote requestType filename options =>
    simp only [listReporting] at h
    split at h
    · split at h
      · cases h
      case h_2 first checkValue hrequest =>
        obtain ⟨loop, -, heq⟩ := Option.map_eq_some_iff.mp h
        cases heq
        refine ⟨first ++ [.gracefulAbort (.list checkValue) "New list file received"], checkValue,
          rfl, rfl, fun o ho => ?_, rfl, rfl⟩
        rcases List.mem_append.mp ho with ho | ho
        · obtain ⟨remote, code, message, rfl⟩ := w.operation.listRequest?_first hrequest ho
          exact ⟨rfl, fun _ => nofun⟩
        · rw [List.mem_singleton.mp ho]
          exact ⟨rfl, fun _ => nofun⟩
    · cases h
  | _ => cases h

/-- The request without the report is the one that the operation handles. -/
theorem step_of_listReporting {event : Event} {replaced : CheckValue}
    {front report behind : List Observation}
    (h : listReporting lib w event replaced = some (w', front, report, behind)) :
    ∃ w'', step lib w event = some (w'', front ++ behind) := by
  cases event with
  | tftpRequest remote requestType filename options =>
    simp only [listReporting] at h
    split at h
    case isTrue hheld =>
      obtain ⟨hrunning, hheld⟩ := Bool.and_eq_true_iff.mp hheld
      split at h
      · cases h
      case h_2 first checkValue hrequest =>
        obtain ⟨loop, -, heq⟩ := Option.map_eq_some_iff.mp h
        cases heq
        have hreaction := w.operation.tftpRequest_of_listRequest hrequest
        have hcalls : (w.operation.tftpRequest remote requestType filename options).2 =
            first ++ [.gracefulAbort (.list checkValue) "New list file received",
              .transferStart (.list checkValue)] := by
          rw [hreaction, Reaction.andThen, Operation.listFileRequest, if_pos hheld]
          rfl
        refine ⟨(w.react fun op => op.tftpRequest remote requestType filename options).1, ?_⟩
        rw [step, if_pos hrunning]
        refine congrArg some (Prod.ext rfl ?_)
        show (w.operation.tftpRequest remote requestType filename options).2.map Observation.call = _
        rw [hcalls]
        simp only [react, List.map_append, List.append_assoc]
        rfl
    · cases h
  | _ => cases h

/-- The reports of the operations that receive lists. -/
theorem reports (lib : Library) :
    (listTransfers lib).Reports
      (fun w => w.operation.kind = .information ∨ w.operation.kind = .operatorDefinedDownload)
      Alone (fun w => w.operation.AbortPending) where
  uninterrupted w event replaced w' front report behind hreporting :=
    step_of_listReporting hreporting
  later w event w' out hkind hcompletes haborted hstep := by
    cases event with
    | completed transfer status data =>
      cases transfer with
      | list checkValue =>
        cases status with
        | aborted =>
          obtain ⟨hoperation, hout⟩ := completed_eq hstep
          obtain ⟨-, hstarts, halone⟩ := w.operation.report_spec lib checkValue data hkind
          subst hout
          refine ⟨hstarts, ?_⟩
          rw [← halone, Alone, hoperation, List.forall_mem_map]
          rfl
        | _ => cases haborted
      | _ => exact absurd rfl hcompletes
    | _ => exact absurd rfl hcompletes
  within w event replaced w' front report behind hkind hreporting := by
    obtain ⟨first, checkValue, hoperation, rfl, hfirst, rfl, rfl⟩ := listReporting_cases hreporting
    obtain ⟨-, hstarts, halone⟩ := w.operation.report_spec lib replaced [] hkind
    have hfront : ∀ o ∈ first, (Observation.call o).mark ≠ .finish := by
      intro o ho heq
      exact absurd ((hfirst o ho).1.symm.trans heq) (by decide)
    rw [← halone, Alone, hoperation]
    simp only [List.forall_mem_append, List.forall_mem_map, List.forall_mem_singleton]
    -- what comes before and behind the report does not finish
    refine and_congr_right fun _ => ⟨fun h => h.2.1, fun h => ⟨hfront, h, ?_⟩⟩
    exact fun heq => nomatch heq
  before w event replaced w' front report behind hkind hunheeding hreporting := by
    obtain ⟨first, checkValue, hoperation, rfl, hfirst, rfl, rfl⟩ := listReporting_cases hreporting
    obtain ⟨-, hstarts, -⟩ := w.operation.report_spec lib replaced [] hkind
    refine ⟨?_, checkValue, ?_⟩
    · rw [List.filterMap_map, List.filterMap_eq_nil_iff]
      intro o ho
      have hplain := (hfirst o ho).2
      cases o with
      | transferStart transfer => exact absurd rfl (hplain transfer)
      | _ => rfl
    · rw [List.filterMap_append, hstarts]
      rfl
  inv w event w' out hkind hstep := by
    rwa [(configured_step hstep).kind]
  invWithin w event replaced w' front report behind hkind hreporting := by
    obtain ⟨first, checkValue, hoperation, -, -, -, -⟩ := listReporting_cases hreporting
    obtain ⟨hreport, -, -⟩ := w.operation.report_spec lib replaced [] hkind
    rw [hoperation]
    show (w.operation.listFileCompleted lib replaced .aborted []).1.kind = _ ∨
      (w.operation.listFileCompleted lib replaced .aborted []).1.kind = _
    rwa [hreport]

end World

end Arinc615a.Host
