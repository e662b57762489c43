import Arinc615a.Reasoning.Member
import Arinc615a.Target.Sending

/-!
# Status files on their way

`statusOperation` holds the transfer of a status file.  It is overwritten by each `statusFile` and
reset by each completion, and only a warning is logged when it is not empty.
-/

open Reasoning

namespace Arinc615a.Target

open Files Information Tftp

/-- The status transfers of an operation, which `statusOperation` holds. -/
def statusTransfers (lib : Library) : Transfers World Event Observation AnyStatus where
  sys := system lib
  starts
    | .started => none
    | .call output => output.statusFile?.map Prod.fst
  completes
    | .completed (.status sent) _ _ => some sent
    | _ => none
  aborted
    | .completed _ .aborted _ => true
    | _ => false

namespace World

/-- An event that starts the transfer of a status file. -/
def SendsStatus (lib : Library) (w : World) : Event → Prop
  | .call call => Operation.SendsAtOnce w.operation.statusV.kind call
  | .completed (.status sent) transferStatus _ =>
    transferStatus = .successful ∧ w.operation.statusV.kind = .information ∧
      sent.status.code = .operationAccepted
  | .completed .list transferStatus _ =>
    w.operation.statusV.kind = .information ∧
      (transferStatus = .successful → w.operation.statusV.status.code ≠ .invalid)
  | .timerHandler result => result ≠ .operationAborted ∧ ¬StatusThrows lib w.operation
  | .start .. | .tftpRequest .. | .completed .. | .timerElapses _ => False

variable {lib : Library} {w w' : World} {event : Event} {out : List Observation}

theorem starts_map (out : List Output) :
    (out.map Observation.call).filterMap (statusTransfers lib).starts =
      (statusFiles out).map Prod.fst := by
  rw [List.filterMap_map, statusFiles, List.map_filterMap]
  rfl

/-- What a step sends, from what its callback sends. -/
theorem step_sends (hstep : w.step lib event = some (w', out)) :
    ∃ r : Reaction, Sends (SendsStatus lib w event) r ∧
      out.filterMap (statusTransfers lib).starts = (statusFiles r.2).map Prod.fst := by
  rcases step_cases hstep with ⟨hostAddress, port, result, rfl⟩ | ⟨v, r, hruns, hreact⟩
  · cases hstep
    exact ⟨_, w.operation.sends_start lib hostAddress port result, starts_map _⟩
  cases hreact
  refine ⟨r, ?_, starts_map _⟩
  cases hruns with
  | call call reaction hcall => exact w.operation.sends_call lib hcall
  | tftpRequest remote requestType filename =>
    exact w.operation.sends_tftpRequest remote requestType filename
  | completed transfer status data =>
    cases transfer with
    | initialisation => exact w.operation.sends_sendInitFileComplete status
    | status sent => exact Operation.sends_statusFileCompleted lib w.operation sent status
    | list => exact Operation.sends_listCompleted lib w.operation status
    | request => exact Operation.sends_requestCompleted lib w.operation status data
  | timerElapses => exact .still
  | timerHandler result => exact w.operation.sends_statusTransmissionTimerHandler lib result

theorem startsOne (lib : Library) : (statusTransfers lib).StartsOne (SendsStatus lib) where
  one w event w' out hstep hsends := by
    obtain ⟨r, hr, hout⟩ := step_sends hstep
    obtain ⟨file, hfile⟩ := hr.one hsends
    exact ⟨file.1, by rw [hout, hfile]; rfl⟩
  none w event w' out hstep hsends := by
    obtain ⟨r, hr, hout⟩ := step_sends hstep
    rw [hout, hr.none hsends]
    rfl

end World

/-- From an operation that has no status file on its way: in a run a status file is sent only when
no earlier one is on its way, and the handle of a status file is reset only by its own completion,
exactly when each timer handler, call and completion that sends a status file finds none on its
way. -/
theorem targetOperation_statusAlone_iff (lib : Library) {operation : Operation}
    {events : List (Numbered Event)} {s' : World × Member AnyStatus}
    {out : List (Seen Event Observation)}
    (hrun : (statusTransfers lib).numbered.run ({ operation := operation }, {}) events =
      some (s', out)) :
    (∀ o ∈ out, o.Alone) ↔
      (statusTransfers lib).numbered.Throughout (Transfers.Vacant (World.SendsStatus lib))
        ({ operation := operation }, {}) events :=
  (World.startsOne lib).alone_run_iff rfl hrun

/-- The first status file of an upload is sent and has arrived when the next one is due. -/
theorem targetOperation_statusAlone_upload :
    ∃ s' out,
      (statusTransfers { raw := .bigEndian, generateCheckValue := fun _ _ => {} }).numbered.run
          ({ operation := { targetId := .ofText (text "ABCD_1"), protocolVersion := .arinc615a34,
                            statusTransmissionRate := 1, hostPort := 59, statusV := .upload {} } },
            {})
          [.event (.start ⟨1, 2⟩ none .started),
            .event (.completed .initialisation .successful []),
            .event (.timerElapses .expired), .event (.timerHandler .expired),
            .completion 0 (.completed (.status (.upload { code := .operationAccepted }))
              .successful [])] = some (s', out) ∧
        ((∀ o ∈ out, o.Alone) ↔
          (statusTransfers
              { raw := .bigEndian, generateCheckValue := fun _ _ => {} }).numbered.Throughout
            (Transfers.Vacant (World.SendsStatus
              { raw := .bigEndian, generateCheckValue := fun _ _ => {} }))
            ({ operation := { targetId := .ofText (text "ABCD_1"), protocolVersion := .arinc615a34,
                              statusTransmissionRate := 1, hostPort := 59,
                              statusV := .upload {} } }, {})
            [.event (.start ⟨1, 2⟩ none .started),
              .event (.completed .initialisation .successful []),
              .event (.timerElapses .expired), .event (.timerHandler .expired),
              .completion 0 (.completed (.status (.upload { code := .operationAccepted }))
                .successful [])]) :=
  ⟨_, _, rfl, targetOperation_statusAlone_iff _ rfl⟩

/-- The timer expires while the first status file of an upload is on its way.  The second one takes
its place, and the completion of the first one resets the handle of the second. -/
theorem targetUpload_status_replaced :
    ∃ s' out,
      (statusTransfers { raw := .bigEndian, generateCheckValue := fun _ _ => {} }).numbered.run
          ({ operation := { targetId := .ofText (text "ABCD_1"), protocolVersion := .arinc615a34,
                            statusTransmissionRate := 1, hostPort := 59, statusV := .upload {} } },
            {})
          [.event (.start ⟨1, 2⟩ none .started),
            .event (.completed .initialisation .successful []),
            .event (.timerElapses .expired), .event (.timerHandler .expired),
            .event (.timerElapses .expired), .event (.timerHandler .expired),
            .completion 0 (.completed (.status (.upload { code := .operationAccepted }))
              .aborted [])] = some (s', out) ∧
        .started 1 [0] ∈ out ∧
        .completed 0 (some 1) (.completed (.status (.upload { code := .operationAccepted }))
          .aborted []) ∈ out ∧
        ¬∀ o ∈ out, o.Alone := by
  have hseen : ((statusTransfers
      { raw := .bigEndian, generateCheckValue := fun _ _ => {} }).numbered.run
      ({ operation := { targetId := .ofText (text "ABCD_1"), protocolVersion := .arinc615a34,
                        statusTransmissionRate := 1, hostPort := 59, statusV := .upload {} } }, {})
      [.event (.start ⟨1, 2⟩ none .started),
        .event (.completed .initialisation .successful []),
        .event (.timerElapses .expired), .event (.timerHandler .expired),
        .event (.timerElapses .expired), .event (.timerHandler .expired),
        .completion 0 (.completed (.status (.upload { code := .operationAccepted }))
          .aborted [])]).map (fun r => (decide (.started 1 [0] ∈ r.2),
            decide (.completed 0 (some 1) (.completed (.status (.upload
              { code := .operationAccepted })) .aborted []) ∈ r.2))) = some (true, true) := by
    decide +kernel
  obtain ⟨⟨s', out⟩, hrun, hmem⟩ := Option.map_eq_some_iff.mp hseen
  obtain ⟨hstarted, hcompleted⟩ := Prod.mk.inj hmem
  have hreplaces : .started 1 [0] ∈ out := of_decide_eq_true hstarted
  refine ⟨s', out, hrun, hreplaces, of_decide_eq_true hcompleted, fun h => ?_⟩
  exact absurd (h _ hreplaces) (by simp [Seen.Alone])

end Arinc615a.Target
