import Arinc615a.Reasoning.Replacement
import Arinc615a.Target.Frame

/-!
# Request files that take the place of each other

`requestFileOperation` holds the transfer of a request file.  It is overwritten by the next request
for the file.  The transfer that was replaced is not aborted, but destroyed when the new one has
been stored; whatever it reports goes to the completion handler of both.
-/

open Reasoning

namespace Arinc615a.Target

open Files Information Tftp

namespace World

/-- `requestFileRequest` when the transfer that was held reports as it is destroyed. -/
def requestReporting (lib : Library) (w : World) (event : Event) (_replaced : Unit) :
    Option (World × List Observation × List Observation × List Observation) :=
  match event with
  | .tftpRequest remote requestType filename =>
    let (stored, front) := w.react fun op => op.tftpRequest remote requestType filename
    if .call (.receiveFile remote) ∈ front then
      (stored.loop.complete .request).map fun loop =>
        let (w', report) := { stored with loop := loop }.react fun op =>
          op.requestCompleted lib .aborted []
        (w', front, report, [])
    else none
  | _ => none

/-- The operation goes on as before: its status is the same, no status file is asked for, and it is
not finished. -/
def Alone (w w' : World) (out : List Observation) : Prop :=
  w'.operation.statusV = w.operation.statusV ∧
    ∀ o ∈ out, ∀ finalStatus description seconds,
      o ≠ .call (.finished finalStatus description) ∧ o ≠ .call (.timerStart seconds)

/-- No target operation passes over the report of a replaced transfer. -/
def Unheeding (_ : World) : Prop := False

end World

/-- The transfers of request files, which `requestFileOperation` or `answerFileOperation` holds. -/
def requestTransfers (lib : Library) : Replacements World Event Observation Unit where
  sys := system lib
  starts
    | .call (.receiveFile _) => some ()
    | _ => none
  completes
    | .completed .request _ _ => some ()
    | _ => none
  aborted
    | .completed _ .aborted _ => true
    | _ => false
  reporting := World.requestReporting lib

namespace Operation

/-- What the report of a replaced transfer comes to. -/
theorem requestCompleted_aborted (lib : Library) (op : Operation)
    (hkind : op.statusV.kind ≠ .information) (data : Bytes) :
    ∃ description : String,
      op.requestCompleted lib .aborted data =
        ((op.status .operationAbortedByTargetHw (text description)), [.timerStart 0]) := by
  have hfinished : ∀ description : String,
      op.finished lib .abortedByTargetHardware (text description) =
        ((op.status .operationAbortedByTargetHw (text description)), [.timerStart 0]) := by
    intro description
    unfold finished forceStatusTransmission
    rw [if_neg (by rwa [(op.fixed_status _ _ _).kind])]
    rfl
  unfold requestCompleted
  cases hclass : op.statusV.kind with
  | information => exact absurd hclass hkind
  | upload | mediaDefinedDownload | operatorDefinedDownload => exact ⟨_, hfinished _⟩

end Operation

namespace World

variable {lib : Library} {w w' : World}

/-- The report finishes the operation, and a status file is asked for. -/
theorem not_alone_of_timerStart {out : List Observation}
    (h : .call (.timerStart 0) ∈ out) : ¬Alone w w' out :=
  fun halone => (halone.2 _ h .completed [] 0).2 rfl

theorem requestReporting_cases {event : Event} {front report behind : List Observation}
    (h : requestReporting lib w event () = some (w', front, report, behind)) :
    behind = [] ∧ ∃ loop, ({ operation := w.operation, loop := loop } : World).react
      (fun op => op.requestCompleted lib .aborted []) = (w', report) := by
  cases event with
  | tftpRequest remote requestType filename =>
    simp only [requestReporting] at h
    split at h
    · obtain ⟨loop, -, heq⟩ := Option.map_eq_some_iff.mp h
      cases heq
      refine ⟨rfl, loop, ?_⟩
      -- a request does not change the operation
      rw [← w.operation.tftpRequest_same remote requestType filename]
      rfl
    · cases h
  | _ => cases h

/-- What a report calls, from the reaction that it comes to. -/
theorem report_spec {op op' : Operation} {data : Bytes} {out : List Observation}
    (hkind : op.statusV.kind ≠ .information)
    (hoperation : op' = (op.requestCompleted lib .aborted data).1)
    (hout : out = (op.requestCompleted lib .aborted data).2.map .call) :
    .call (.timerStart 0) ∈ out ∧ out.filterMap (requestTransfers lib).starts = [] ∧
      Fixed op op' := by
  obtain ⟨description, hreport⟩ := op.requestCompleted_aborted lib hkind data
  rw [hreport] at hoperation hout
  subst hoperation hout
  exact ⟨List.mem_singleton_self _, rfl, op.fixed_status _ _ _⟩

/-- The reports of the operations that receive request files. -/
theorem reports (lib : Library) :
    (requestTransfers lib).Reports (fun w => w.operation.statusV.kind ≠ .information) Alone
      Unheeding where
  uninterrupted w event replaced w' front report behind hreporting := by
    cases event with
    | tftpRequest remote requestType filename =>
      simp only [requestTransfers, requestReporting] at hreporting
      split at hreporting
      · obtain ⟨loop, -, heq⟩ := Option.map_eq_some_iff.mp hreporting
        cases heq
        exact ⟨_, by rw [List.append_nil]; rfl⟩
      · cases hreporting
    | _ => cases hreporting
  later w event w' out hkind hcompletes haborted hstep := by
    cases event with
    | completed transfer status data =>
      cases transfer with
      | request =>
        cases status with
        | aborted =>
          obtain ⟨loop, -, heq⟩ := Option.map_eq_some_iff.mp hstep
          obtain ⟨hoperation, hout⟩ := react_eq heq
          obtain ⟨hmem, hstarts, -⟩ := report_spec hkind hoperation hout
          exact ⟨hstarts, iff_of_false (not_alone_of_timerStart hmem) id⟩
        | _ => cases haborted
      | _ => exact absurd rfl hcompletes
    | _ => exact absurd rfl hcompletes
  within w event replaced w' front report behind hkind hreporting := by
    obtain ⟨rfl, loop, hreact⟩ := requestReporting_cases hreporting
    obtain ⟨hoperation, hout⟩ := react_eq hreact
    obtain ⟨hmem, -, -⟩ := report_spec hkind hoperation hout
    refine iff_of_false (not_alone_of_timerStart ?_) id
    exact List.mem_append_right _ (List.mem_append_left _ hmem)
  before _ _ _ _ _ _ _ _ hunheeding := hunheeding.elim
  inv w event w' out hkind hstep := by
    rwa [(fixed_step hstep).kind]
  invWithin w event replaced w' front report behind hkind hreporting := by
    obtain ⟨-, loop, hreact⟩ := requestReporting_cases hreporting
    obtain ⟨hoperation, hout⟩ := react_eq hreact
    obtain ⟨-, -, hfixed⟩ := report_spec hkind hoperation hout
    rwa [hfixed.kind]

end World

end Arinc615a.Target
