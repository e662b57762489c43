import Arinc615a.Host.Frame
import Arinc615a.Reasoning.Law
import Arinc615a.Reasoning.Member

/-!
# Request files on their way

`loadList`, `request` and `answer` look at a flag that the completion of a successful transmission
sets, and store the transmission in one member.  A call that comes while a transmission is active
passes the flag and takes its place.
-/

open Reasoning

namespace Arinc615a.Host

open Files Information Tftp

/-- The transmissions of request files, which `loadListOperationV`, `requestOperationV` or
`answerOperationV` holds. -/
def requestTransfers (lib : Library) : Transfers World Event Observation Unit where
  sys := system lib
  starts
    | .call (.transferStart .request) => some ()
    | _ => none
  completes
    | .completed .request _ _ => some ()
    | _ => none
  aborted
    | .completed _ .aborted _ => true
    | _ => false

/-- What has become of the request file since the last start. -/
inductive Progress where
  | idle
  | sending (number : Nat)
  | failed
  | sent
  deriving DecidableEq, Repr

/-- A request file is transmitted successfully once from start to start, one transmission at a
time, and again only after the one before has failed. -/
def transmissionLaw : Law Progress (Seen Event Observation) where
  next
    | _, .output .started => .idle
    | progress, .output (.call _) => progress
    | _, .started number _ => .sending number
    | progress, .completed number _ (.completed _ status _) =>
      if status = .successful then .sent
      else if progress = .sending number then .failed
      else progress
    | progress, .completed .. => progress
  Allowed
    | progress, .started _ active => active = [] ∧ (progress = .idle ∨ progress = .failed)
    | progress, .completed _ _ (.completed _ status _) => status = .successful → progress ≠ .sent
    | _, _ => True

/-- The flag and the member of an operation, and the progress seen from outside. -/
def Progress.Fits (sent : Bool) (m : Member Unit) : Progress → Prop
  | .idle => True
  | .sending number => sent = false ∧ m.held = some number
  | .failed => sent = false ∧ m.active = []
  | .sent => sent = true

structure TransmissionFits (s : World × Member Unit) (progress : Progress) : Prop where
  exclusive : s.2.Exclusive
  vacant : s.1.operation.sent = true → s.2.active = []
  information : s.1.operation.kind = .information → s.2.active = []
  progress : progress.Fits s.1.operation.sent s.2

/-- Where no transmission is active and none was successful, another one may come. -/
theorem TransmissionFits.free {s : World × Member Unit} {progress : Progress}
    (h : TransmissionFits s progress) (hsent : s.1.operation.sent = false)
    (hactive : s.2.active = []) : progress = .idle ∨ progress = .failed := by
  have hprogress := h.progress
  cases progress with
  | idle => exact .inl rfl
  | failed => exact .inr rfl
  | sending number =>
    have hheld : s.2.held.toList = [] := by
      rw [← h.exclusive, hactive]
      rfl
    rw [hprogress.2] at hheld
    cases hheld
  | sent => exact absurd (hprogress.symm.trans hsent) (by decide)

/-- The outputs of an event obey the law as they are stored in the member, and leave the operation
and the member fitting the progress. -/
structure StoresLawfully (lib : Library) (progress : Progress) (w' : World) (m : Member Unit)
    (out : List Observation) : Prop where
  obeyed : transmissionLaw.Obeyed progress ((requestTransfers lib).store m out).2
  fits : TransmissionFits (w', ((requestTransfers lib).store m out).1)
    (transmissionLaw.after progress ((requestTransfers lib).store m out).2)

namespace World

variable {lib : Library} {w w' : World} {m : Member Unit} {progress : Progress} {event : Event}
  {out : List Observation}

/-- Calls that do not transmit a request file leave the member and the progress as they are. -/
theorem store_noRequest (lib : Library) {calls : List Output} (h : NoRequest calls)
    (m : Member Unit) (progress : Progress) :
    ((requestTransfers lib).store m (calls.map .call)).1 = m ∧
      transmissionLaw.Obeyed progress ((requestTransfers lib).store m (calls.map .call)).2 ∧
      transmissionLaw.after progress ((requestTransfers lib).store m (calls.map .call)).2 =
        progress := by
  have hstarts : (calls.map Observation.call).filterMap (requestTransfers lib).starts = [] := by
    rw [List.filterMap_map, List.filterMap_eq_nil_iff]
    intro o ho
    have hplain := h o ho
    cases o with
    | transferStart transfer =>
      cases transfer with
      | request => cases hplain
      | _ => rfl
    | _ => rfl
  rw [(requestTransfers lib).store_none hstarts]
  refine ⟨rfl, transmissionLaw.obeyed_of_forall fun x hx => ?_⟩
  rw [List.map_map] at hx
  obtain ⟨o, -, rfl⟩ := List.mem_map.mp hx
  exact ⟨trivial, rfl⟩

/-- A callback that stays apart. -/
theorem transmission_apart {r : Reaction} (hfits : TransmissionFits (w, m) progress)
    (hkind : r.1.kind = w.operation.kind) (hsent : r.1.sent = w.operation.sent)
    (hrequest : NoRequest r.2) (hw' : w'.operation = r.1) (hout : out = r.2.map .call) :
    StoresLawfully lib progress w' m out := by
  obtain ⟨hmember, hobeyed, hafter⟩ := store_noRequest lib hrequest m progress
  subst hout
  refine ⟨hobeyed, ?_⟩
  rw [hmember, hafter]
  obtain ⟨hexclusive, hvacant, hinformation, hprogress⟩ := hfits
  refine ⟨hexclusive, ?_, ?_, ?_⟩
  · rw [hw', hsent]
    exact hvacant
  · rw [hw', hkind]
    exact hinformation
  · rw [hw', hsent]
    exact hprogress

/-- A start forgets the flag and opens a new run. -/
theorem transmission_start {result : Operation.StartResult}
    (hfits : TransmissionFits (w, m) progress)
    (hstep : w.step lib (.start result) = some (w', out)) :
    StoresLawfully lib progress w' m out := by
  have hkind := w.operation.start_kind result
  have hsent : (w.operation.start result).1.sent = true → w.operation.sent = true := fun h => by
    rw [Operation.start_sent, Bool.and_eq_true] at h
    exact h.1
  have hstep' : ((w.react fun op => op.start result).1,
      Observation.started :: (w.operation.start result).2.map .call) = (w', out) :=
    Option.some.inj hstep
  obtain ⟨rfl, rfl⟩ := Prod.mk.inj hstep'
  obtain ⟨hmember, hobeyed, hafter⟩ :=
    store_noRequest lib (w.operation.noRequest_start result) m .idle
  refine ⟨⟨trivial, hobeyed⟩, ?_⟩
  -- the start itself is no transmission
  show TransmissionFits
    (_, ((requestTransfers lib).store m ((w.operation.start result).2.map .call)).1)
    (transmissionLaw.after .idle
      ((requestTransfers lib).store m ((w.operation.start result).2.map .call)).2)
  rw [hmember, hafter]
  obtain ⟨hexclusive, hvacant, hinformation, -⟩ := hfits
  exact ⟨hexclusive, fun h => hvacant (hsent h), fun h => hinformation (hkind.symm.trans h),
    trivial⟩

/-- A call transmits a request file lawfully exactly when no transmission is active. -/
theorem transmission_send {request : Operation.Request} (hfits : TransmissionFits (w, m) progress)
    (hstep : w.step lib (.send request) = some (w', out)) :
    (transmissionLaw.Obeyed progress ((requestTransfers lib).store m out).2 ↔
        (SendsRequest lib w (.send request) → m.active = [])) ∧
      ((SendsRequest lib w (.send request) → m.active = []) →
        TransmissionFits (w', ((requestTransfers lib).store m out).1)
          (transmissionLaw.after progress ((requestTransfers lib).store m out).2)) := by
  have hsame : TransmissionFits (w', m) progress := by
    obtain ⟨hexclusive, hvacant, hinformation, hprogress⟩ := hfits
    obtain ⟨hoperation, -⟩ := step_send hstep
    refine ⟨hexclusive, ?_, ?_, ?_⟩
    · rwa [hoperation]
    · rwa [hoperation]
    · rwa [hoperation]
  obtain ⟨hoperation, ⟨hnone, rfl⟩ | ⟨hsent, fileType, filename, file, hsend, rfl⟩⟩ :=
    step_send hstep
  · exact ⟨iff_of_true trivial fun h => absurd h hnone, fun _ => hsame⟩
  · have hsends : SendsRequest lib w (.send request) := ⟨hsent, _, hsend⟩
    -- the transmission takes the place of the one that the member held
    show ((True ∧ True ∧ (m.active.map Prod.fst = [] ∧ (progress = .idle ∨ progress = .failed)) ∧
        True) ↔ _) ∧ (_ → TransmissionFits (w', m.start ()) (.sending m.next))
    have hsent' : w'.operation.sent = false := by rw [hoperation, hsent]
    refine ⟨⟨fun h _ => List.map_eq_nil_iff.mp h.2.2.1.1, fun h => ?_⟩, fun h => ?_⟩
    · have hactive := h hsends
      exact ⟨trivial, trivial, ⟨List.map_eq_nil_iff.mpr hactive, hfits.free hsent hactive⟩, trivial⟩
    · refine ⟨Member.exclusive_start (h hsends) (), fun hs => ?_, fun hk => ?_, hsent', rfl⟩
      · exact absurd (hs.symm.trans hsent') (by decide)
      · -- an information operation has no call to transmit a file
        have hk' : w.operation.kind = .information := by rw [← hoperation, hk]
        unfold Operation.send at hsend
        rw [hk'] at hsend
        cases hsend

/-- The completion of the only transmission: the progress is what the flag says. -/
theorem transmission_completed {number : Nat} {status : TransferStatus} {data : Bytes}
    (hfits : TransmissionFits (w, m) progress) (hmem : (number, ()) ∈ m.active)
    (hstep : w.step lib (.completed .request status data) = some (w', out)) :
    progress ≠ .sent ∧
      StoresLawfully lib
        (transmissionLaw.next progress (.completed number m.held (.completed .request status data)))
        w' (m.reset number) out := by
  obtain ⟨hexclusive, hvacant, hinformation, hprogress⟩ := hfits
  have hheld : m.held = some number := hexclusive.held_of_mem hmem
  have hactive : m.active ≠ [] := List.ne_nil_of_mem hmem
  have hreset : (m.reset number).active = [] := hexclusive.reset_active hheld
  have hkind : w.operation.kind ≠ .information := fun h => hactive (hinformation h)
  have hsent : w.operation.sent = false := eq_false_of_ne_true fun h => hactive (hvacant h)
  obtain ⟨hapart, hflag⟩ := w.operation.apart_requestCompleted status
  obtain ⟨hoperation, hout⟩ := completed_eq hstep
  obtain rfl : out = (w.operation.requestCompleted status).2.map .call := hout
  obtain ⟨hmember, hobeyed, hafter⟩ := store_noRequest lib hapart.noRequest (m.reset number)
    (transmissionLaw.next progress (.completed number m.held (.completed .request status data)))
  -- the flag has not been set before, as a transmission is active
  have hprogress' : progress ≠ .sent := fun h => by
    rw [h] at hprogress
    exact absurd (hprogress.symm.trans hsent) (by decide)
  refine ⟨hprogress', hobeyed, ?_⟩
  rw [hafter, hmember]
  refine ⟨Member.exclusive_reset hreset, fun _ => hreset, fun _ => hreset, ?_⟩
  show Progress.Fits w'.operation.sent (m.reset number) _
  rw [show w'.operation = (w.operation.requestCompleted status).1 from hoperation]
  have hflag := hflag hkind
  simp only [hsent, Bool.false_eq_true, or_false] at hflag
  simp only [transmissionLaw]
  by_cases hstatus : status = .successful
  · rw [if_pos hstatus]
    exact hflag.mpr hstatus
  · have hunset : (w.operation.requestCompleted status).1.sent = false :=
      eq_false_of_ne_true fun h => hstatus (hflag.mp h)
    rw [if_neg hstatus]
    split
    · exact ⟨hunset, hreset⟩
    · cases progress with
      | idle => trivial
      | sending other =>
        -- the transmission that is held is the one that has completed
        have hsame : other = number := Option.some.inj (hprogress.2.symm.trans hheld)
        exact absurd (congrArg Progress.sending hsame) ‹_›
      | failed => exact absurd hprogress.2 hactive
      | sent => exact absurd rfl hprogress'

/-- One step under the law, from a state that fits the progress. -/
theorem transmission_step {s s' : World × Member Unit} {e : Numbered Event}
    {seen : List (Seen Event Observation)} (hfits : TransmissionFits s progress)
    (hstep : (requestTransfers lib).step s e = some (s', seen)) :
    (transmissionLaw.Obeyed progress seen ↔ Transfers.Vacant (SendsRequest lib) s e) ∧
      (Transfers.Vacant (SendsRequest lib) s e →
        TransmissionFits s' (transmissionLaw.after progress seen)) := by
  obtain ⟨w, m⟩ := s
  cases e with
  | event event =>
    obtain ⟨v, o, hnone, hv, rfl, rfl⟩ := (requestTransfers lib).step_event hstep
    have hlawful : ¬SendsRequest lib w event → StoresLawfully lib progress v m o →
        (transmissionLaw.Obeyed progress ((requestTransfers lib).store m o).2 ↔
            Transfers.Vacant (SendsRequest lib) (w, m) (.event event)) ∧
          (Transfers.Vacant (SendsRequest lib) (w, m) (.event event) →
            TransmissionFits (v, ((requestTransfers lib).store m o).1)
              (transmissionLaw.after progress ((requestTransfers lib).store m o).2)) :=
      fun hsends h => ⟨iff_of_true h.obeyed fun hs => absurd hs hsends, fun _ => h.fits⟩
    by_cases hcentral : event.Central
    · cases event with
      | start result => exact hlawful id (transmission_start hfits hv)
      | send request => exact transmission_send hfits hv
      | completed transfer status data =>
        cases transfer with
        | initialisation =>
          obtain ⟨loop, -, heq⟩ := Option.map_eq_some_iff.mp hv
          obtain ⟨hoperation, hout⟩ := react_eq heq
          have hapart := w.operation.apart_initialisationFileCompleted lib status data
          exact hlawful id (transmission_apart hfits hapart.kept.kind hapart.kept.sent
            hapart.noRequest hoperation hout)
        | request => cases hnone
        | status | list => exact absurd hcentral id
      | _ => exact absurd hcentral id
    · obtain ⟨r, hapart, hoperation, hout⟩ := step_apart hcentral hv
      have hsends : ¬SendsRequest lib w event := by
        cases event with
        | send request => exact absurd trivial hcentral
        | _ => exact id
      exact hlawful hsends (transmission_apart hfits hapart.kept.kind hapart.kept.sent
        hapart.noRequest hoperation hout)
  | completion number event =>
    obtain ⟨v, o, hmay, hv, rfl, rfl⟩ := (requestTransfers lib).step_completion hstep
    obtain ⟨⟨transfer, hcompletes, hmem⟩, -⟩ := hmay
    have hcompleted : ∃ status data, event = .completed .request status data := by
      cases event with
      | completed transfer status data =>
        cases transfer with
        | request => exact ⟨status, data, rfl⟩
        | _ => cases hcompletes
      | _ => cases hcompletes
    obtain ⟨status, data, rfl⟩ := hcompleted
    obtain ⟨hunsent, hobeyed, hnext⟩ := transmission_completed hfits hmem hv
    exact ⟨iff_of_true ⟨fun _ => hunsent, hobeyed⟩ trivial, fun _ => hnext⟩

end World

/-- From an operation that has just been created: the request file is transmitted at most once
from start to start, no transmission takes the place of another one, and one comes again only when
the one before has failed, exactly when no call transmits a file while a transmission is active. -/
theorem hostOperation_transmission_iff (lib : Library) {kind : OperationType}
    {targetId : TargetId} {dlpTimeout : Nat} {portOption : Bool} {events : List (Numbered Event)}
    {s' : World × Member Unit} {out : List (Seen Event Observation)}
    (hrun : (requestTransfers lib).numbered.run
      (World.ofOperation kind targetId dlpTimeout portOption, {}) events = some (s', out)) :
    transmissionLaw.Obeyed .idle out ↔
      (requestTransfers lib).numbered.Throughout (Transfers.Vacant (SendsRequest lib))
        (World.ofOperation kind targetId dlpTimeout portOption, {}) events := by
  have hfits : TransmissionFits (World.ofOperation kind targetId dlpTimeout portOption, {}) .idle :=
    ⟨rfl, fun _ => rfl, fun _ => rfl, trivial⟩
  have hobeyed : ∀ s progress e s' seen, TransmissionFits s progress →
      (requestTransfers lib).numbered.step s e = some (s', seen) →
        (transmissionLaw.Obeyed progress seen ↔ Transfers.Vacant (SendsRequest lib) s e) :=
    fun _ _ _ _ _ h hstep => (World.transmission_step h hstep).1
  have hnext : ∀ s progress e s' seen, TransmissionFits s progress →
      Transfers.Vacant (SendsRequest lib) s e →
        (requestTransfers lib).numbered.step s e = some (s', seen) →
          TransmissionFits s' (transmissionLaw.after progress seen) :=
    fun _ _ _ _ _ h hcond hstep => (World.transmission_step h hstep).2 hcond
  exact transmissionLaw.obeyed_run_iff hobeyed hnext hfits hrun

/-- The load list of an upload is transmitted at the second attempt. -/
theorem hostOperation_transmission_upload :
    ∃ s' out,
      (requestTransfers { raw := .bigEndian, generateCheckValue := fun _ _ => {} }).numbered.run
          (World.ofOperation .upload (.ofText (text "ABCD_1")) 10 false, {})
          [.event (.start .started),
            .event (.completed .initialisation .successful [0, 0, 0, 9, 0x41, 0x34, 0, 1, 0]),
            .event (.send (.loadList [])),
            .completion 0 (.completed .request .communicationError []),
            .event (.send (.loadList [])),
            .completion 1 (.completed .request .successful [])] = some (s', out) ∧
        (transmissionLaw.Obeyed .idle out ↔
          (requestTransfers
              { raw := .bigEndian, generateCheckValue := fun _ _ => {} }).numbered.Throughout
            (Transfers.Vacant
              (SendsRequest { raw := .bigEndian, generateCheckValue := fun _ _ => {} }))
            (World.ofOperation .upload (.ofText (text "ABCD_1")) 10 false, {})
            [.event (.start .started),
              .event (.completed .initialisation .successful [0, 0, 0, 9, 0x41, 0x34, 0, 1, 0]),
              .event (.send (.loadList [])),
              .completion 0 (.completed .request .communicationError []),
              .event (.send (.loadList [])),
              .completion 1 (.completed .request .successful [])]) :=
  ⟨_, _, rfl, hostOperation_transmission_iff _ rfl⟩

/-- The transmission of the load list is active when the timer finishes an upload.  The operation
is started again, and the load list of the second run takes its place. -/
theorem hostUpload_transmission_replaced :
    ∃ s' out,
      (requestTransfers { raw := .bigEndian, generateCheckValue := fun _ _ => {} }).numbered.run
          (World.ofOperation .upload (.ofText (text "ABCD_1")) 10 false, {})
          [.event (.start .started),
            .event (.completed .initialisation .successful [0, 0, 0, 9, 0x41, 0x34, 0, 1, 0]),
            .event (.send (.loadList [])),
            .event (.timerElapses .expired), .event (.timerHandler .expired),
            .event (.start .started),
            .event (.completed .initialisation .successful [0, 0, 0, 9, 0x41, 0x34, 0, 1, 0]),
            .event (.send (.loadList []))] = some (s', out) ∧
        .started 1 [0] ∈ out ∧ ¬transmissionLaw.Obeyed .idle out := by
  have hseen : ((requestTransfers
      { raw := .bigEndian, generateCheckValue := fun _ _ => {} }).numbered.run
      (World.ofOperation .upload (.ofText (text "ABCD_1")) 10 false, {})
      [.event (.start .started),
        .event (.completed .initialisation .successful [0, 0, 0, 9, 0x41, 0x34, 0, 1, 0]),
        .event (.send (.loadList [])),
        .event (.timerElapses .expired), .event (.timerHandler .expired),
        .event (.start .started),
        .event (.completed .initialisation .successful [0, 0, 0, 9, 0x41, 0x34, 0, 1, 0]),
        .event (.send (.loadList []))]).map (fun r => decide (.started 1 [0] ∈ r.2)) =
      some true := by
    decide +kernel
  obtain ⟨⟨s', out⟩, hrun, hmem⟩ := Option.map_eq_some_iff.mp hseen
  have hreplaces : .started 1 [0] ∈ out := of_decide_eq_true hmem
  refine ⟨s', out, hrun, hreplaces, fun h => ?_⟩
  obtain ⟨progress, hactive, -⟩ := transmissionLaw.allowed_of_mem h hreplaces
  cases hactive

end Arinc615a.Host
