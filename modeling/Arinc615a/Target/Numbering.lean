import Arinc615a.Reasoning.Counting
import Arinc615a.Target.StatusFiles

/-!
# The counter of the status files

Every status file carries the next value of a counter of 16 bits, whatever has it sent: the timer,
the handler, or a list that has been sent.  A status that cannot be encoded uses up no value.
-/

open Reasoning

namespace Arinc615a.Target

open Files Information Tftp

def Operation.counter (op : Operation) : UInt16 := op.statusV.status.counter

/-- The counters of the status files that a callback sends. -/
def counters (out : List Output) : List UInt16 :=
  (statusFiles out).map fun file => file.1.status.counter

theorem counters_append (out out' : List Output) :
    counters (out ++ out') = counters out ++ counters out' := by
  rw [counters, statusFiles, List.filterMap_append, List.map_append]
  rfl

/-- The status files that are sent are numbered on, and so will be those that follow. -/
def Continues (op : Operation) (r : Reaction) : Prop :=
  Counts (· + 1) op.counter (counters r.2) r.1.counter

namespace Continues

variable {op op' : Operation}

theorem still {out : List Output} (hcounter : op'.counter = op.counter)
    (hout : statusFiles out = []) : Continues op (op', out) := by
  rw [Continues, counters, hout, hcounter]
  exact .nil

theorem emit (hcounter : op'.counter = op.counter) {o : Output} (ho : o.statusFile? = .none) :
    Continues op (op'.emit o) :=
  still hcounter (by simp [statusFiles, ho])

/-- A change before that leaves the counter alone does not matter. -/
theorem of_eq {r : Reaction} (h : Continues op' r) (hcounter : op'.counter = op.counter) :
    Continues op r := by
  rw [Continues, ← hcounter]
  exact h

theorem andThen {r : Reaction} {f : Operation → Reaction} (h : Continues op r)
    (h' : Continues r.1 (f r.1)) : Continues op (r.andThen f) := by
  rw [Continues, show (r.andThen f).2 = r.2 ++ (f r.1).2 from rfl, counters_append]
  exact h.append h'

end Continues

namespace AnyStatus

/-- The calls on loads, files and the ratio leave the counter alone. -/
theorem counter_edit {statusV statusV' : AnyStatus} {call : Call}
    (h : statusV.edit call = some statusV') :
    statusV'.status.counter = statusV.status.counter := by
  cases call <;> cases statusV <;> cases h <;> rfl

end AnyStatus

namespace Operation

variable {lib : Library} {op : Operation}

theorem counter_status (code : StatusCode) (description : Text) (estimatedTime : Int16) :
    (op.status code description estimatedTime).counter = op.counter := by
  rw [counter, status, AnyStatus.status_modify]
  rfl

theorem counter_forceAccepted : op.forceAccepted.counter = op.counter := by
  unfold forceAccepted
  split
  · rw [counter, AnyStatus.status_modify]
    rfl
  · rfl

theorem counter_incrementCounter : op.incrementCounter.counter = op.counter + 1 := by
  rw [counter, incrementCounter, AnyStatus.status_modify]
  rfl

/-- The one place where the counter goes on. -/
theorem continues_statusFile : Continues op (op.statusFile lib) := by
  refine Continues.of_eq ?_ counter_forceAccepted
  unfold statusFile
  dsimp only
  cases op.forceAccepted.statusV.encode lib.raw op.forceAccepted.protocolVersion with
  | error exception => exact .emit rfl rfl
  | ok file =>
    show Counts _ _ [op.forceAccepted.counter] op.forceAccepted.incrementCounter.counter
    rw [counter_incrementCounter]
    exact .single

theorem continues_forceStatusTransmission : Continues op (op.forceStatusTransmission lib) := by
  unfold forceStatusTransmission
  split
  · exact continues_statusFile
  · exact .emit rfl rfl

theorem continues_inProgress (order : ArgumentOrder) (immediateTransmission : Bool)
    (estimatedTime : Int16) (description : Text) :
    Continues op (op.inProgress lib order immediateTransmission estimatedTime description) := by
  unfold inProgress
  dsimp only
  split
  · exact continues_forceStatusTransmission.of_eq (counter_status ..)
  · exact .still (counter_status ..) rfl

theorem continues_finished (finalStatus : FinalStatus) (description : Text) :
    Continues op (op.finished lib finalStatus description) :=
  continues_forceStatusTransmission.of_eq (counter_status ..)

theorem continues_statusSent (sentStatus : Status) :
    Continues op (op.statusSent lib sentStatus) := by
  unfold statusSent
  split
  · split
    · exact continues_inProgress ..
    · exact .emit rfl rfl
  · exact .emit rfl rfl
  · exact .emit rfl rfl
  · exact .still rfl rfl

theorem continues_call {call : Call} {r : Reaction} (h : op.call lib call = some r) :
    Continues op r := by
  cases called_of_call h with
  | accepted => exact continues_forceStatusTransmission.of_eq (counter_status ..)
  | inProgress => exact continues_inProgress ..
  | finished => exact continues_finished ..
  | targetInformation hlist | downloadingList hlist =>
    cases hlist with
    | thrown | sent => exact .emit rfl rfl
  | ratio hedit => exact .emit (AnyStatus.counter_edit hedit) rfl
  | edit hedit => exact .still (AnyStatus.counter_edit hedit) rfl

theorem continues_complete (transfer : Transfer) (status : TransferStatus) (data : Bytes) :
    Continues op (World.complete lib transfer status data op) := by
  cases transfer with
  | initialisation =>
    dsimp only [World.complete, sendInitFileComplete]
    split
    · exact .still rfl rfl
    · exact .still rfl rfl
  | status sent =>
    dsimp only [World.complete, statusFileCompleted]
    split
    · exact Continues.andThen (.emit rfl rfl) (continues_statusSent _)
    · exact .emit rfl rfl
    · exact .emit rfl rfl
    · exact .still rfl rfl
  | list =>
    exact listCompleted_elim (continues_finished _) (.still rfl rfl)
      (continues_statusFile.of_eq (counter_status ..)) (.still rfl rfl)
  | request =>
    exact requestCompleted_elim (fun _ => continues_finished _) (fun _ => .emit rfl rfl)
      (fun _ _ => .emit rfl rfl) (fun _ => .emit rfl rfl) (.still rfl rfl)

theorem continues_tftpRequest (remote : Endpoint) (requestType : RequestType) (filename : Text) :
    Continues op (op.tftpRequest remote requestType filename) :=
  tftpRequest_elim (fun _ _ => .emit rfl rfl) (.emit rfl rfl)

theorem continues_start (hostAddress : Endpoint) (port : Option UInt16) (result : StartResult) :
    Continues op (op.start lib hostAddress port result) := by
  refine start_elim (fun hostPort => ?_) fun hostPort data => ?_
  · exact .still rfl rfl
  · exact .emit rfl rfl

end Operation

/-! ## Runs -/

/-- The counters of the status files that are sent in a run. -/
def countersSent (out : List Observation) : List UInt16 :=
  (statusFilesSent out).map fun file => file.1.status.counter

theorem countersSent_append (out out' : List Observation) :
    countersSent (out ++ out') = countersSent out ++ countersSent out' := by
  rw [countersSent, statusFilesSent_append, List.map_append]
  rfl

theorem countersSent_map (out : List Output) : countersSent (out.map .call) = counters out := by
  rw [countersSent, statusFilesSent_map, counters]

namespace World

variable {lib : Library}

theorem continues_step {w w' : World} {event : Event} {out : List Observation}
    (hstep : w.step lib event = some (w', out)) :
    Counts (· + 1) w.operation.counter (countersSent out) w'.operation.counter := by
  rcases step_cases hstep with ⟨hostAddress, port, result, rfl⟩ | ⟨v, r, hruns, heq⟩
  · simp only [step, Option.some.injEq, Prod.mk.injEq] at hstep
    obtain ⟨rfl, rfl⟩ := hstep
    exact countersSent_map _ ▸ Operation.continues_start hostAddress port result
  · have hcontinues : Continues w.operation r := by
      cases hruns with
      | call call reaction hcall => exact Operation.continues_call hcall
      | tftpRequest remote requestType filename => exact Operation.continues_tftpRequest ..
      | completed transfer status data => exact Operation.continues_complete ..
      | timerElapses => exact .still rfl rfl
      | timerHandler result =>
        cases result with
        | operationAborted => exact .still rfl rfl
        | expired | error => exact Operation.continues_statusFile
    cases heq
    exact countersSent_map _ ▸ hcontinues

theorem continues_run {w w' : World} {events : List Event} {out : List Observation}
    (hrun : (system lib).run w events = some (w', out)) :
    Counts (· + 1) w.operation.counter (countersSent out) w'.operation.counter := by
  induction events generalizing w out with
  | nil =>
    cases hrun
    exact .nil
  | cons event events ih =>
    obtain ⟨w₁, out₁, out₂, hstep, hrest, rfl⟩ := (system lib).run_cons hrun
    exact countersSent_append _ _ ▸ (continues_step hstep).append (ih hrest)

end World

/-- The status files of an operation are numbered from zero on, without a gap. -/
theorem countersSent_eq_range {lib : Library} {kind : OperationType} {targetId : TargetId}
    {version : Arinc615aVersion} {rate : Nat} {port : UInt16} {events : List Event} {w : World}
    {out : List Observation}
    (hrun : (system lib).run (.ofOperation kind targetId version rate port) events =
      some (w, out)) :
    countersSent out = (List.range (countersSent out).length).map UInt16.ofNat := by
  have hzero : (AnyStatus.ofKind kind).status.counter = 0 := by cases kind <;> rfl
  have hcounts := World.continues_run hrun
  rw [World.ofOperation, Operation.counter, hzero] at hcounts
  exact hcounts.eq_range

/-- Two status files of an information operation, the second one behind a list. -/
theorem countersSent_eq_range_two :
    ∃ w out,
      (system { raw := .bigEndian, generateCheckValue := fun _ _ => {} }).run
        (.ofOperation .information (.ofText (text "ABCD_1")) .arinc615a34 1 59)
        [.start ⟨1, 2⟩ none .started, .completed .initialisation .successful [], .call .accepted,
          .call (.targetInformation [] .notUsed), .completed .list .successful []] =
        some (w, out) ∧
      (countersSent out).length = 2 ∧
      countersSent out = (List.range (countersSent out).length).map UInt16.ofNat := by
  have hseen : ((system { raw := .bigEndian, generateCheckValue := fun _ _ => {} }).run
      (.ofOperation .information (.ofText (text "ABCD_1")) .arinc615a34 1 59)
      [.start ⟨1, 2⟩ none .started, .completed .initialisation .successful [], .call .accepted,
        .call (.targetInformation [] .notUsed), .completed .list .successful []]).map
      (fun r => (countersSent r.2).length) = some 2 := by
    decide +kernel
  obtain ⟨⟨w, out⟩, hrun, hlength⟩ := Option.map_eq_some_iff.mp hseen
  exact ⟨w, out, hrun, hlength, countersSent_eq_range hrun⟩

end Arinc615a.Target
