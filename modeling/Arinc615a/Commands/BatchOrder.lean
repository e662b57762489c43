import Arinc615a.Commands.BatchRuns

/-!
# The order of the targets of a batch

The targets are taken one by one from the front of the map.  The next one is started from inside
`finished`, which an operation calls before it stops its server: a second operation is never
started behind the server of the first.
-/

open Reasoning

namespace Arinc615a.Commands

open Files Information Tftp Host

/-- The targets whose operations were started. -/
def startedTargets (out : List Observation) : List Text :=
  (out.filterMap Observation.started?).map Prod.fst

/-- A batch takes one target after the other, each with the port of the TFTP server to itself. -/
structure InOrder (batch : BatchInformation) (out : List Observation) : Prop where
  serverStopped : ∀ pre number target post, out = pre ++ .started (number + 1) target :: post →
    .call number .serverStop ∈ pre
  ofBatch : startedTargets out <+: batch.targets.map Prod.fst
  ascending : (startedTargets out).Pairwise (· < ·)
  successful : ∀ pre number target post, out = pre ++ .started number target :: post →
    ∀ n code description, .call n (.finished code description) ∈ pre → code = .operationCompleted
  doneOnce : out.count .done ≤ 1
  done : (∀ number target, .started number target ∈ out → Finished out number) →
    out.count .done = 1

namespace Fits

variable {batch : BatchInformation} {command : BatchUpload} {out : List Observation}

theorem startedTargets_eq (h : Fits batch command out) :
    startedTargets out = (batch.targets.map Prod.fst).take command.operations.length := by
  unfold startedTargets
  rw [h.starts]
  exact List.zipIdx_map_fst ..

theorem inOrder_iff (h : Fits batch command out) (hexecuted : command.executed = true) :
    InOrder batch out ↔ ∀ number description,
      .call number (.finished .operationCompleted description) ∈ out →
        number + 1 = batch.targets.length := by
  constructor
  · intro hinOrder number description hmem
    by_contra hne
    -- the next operation has been started, and the server was still running
    have hlt := (h.onward number description hmem).resolve_right hne
    obtain ⟨target, hstarted⟩ := (h.exists_started_iff _).mpr hlt
    obtain ⟨pre, post, heq⟩ := List.append_of_mem hstarted
    have hahead := h.order pre _ target post heq
    exact Nat.lt_irrefl _ (hahead.serverStop number (hinOrder.serverStopped pre _ target post heq))
  · intro hlast
    refine ⟨fun pre number target post heq => ?_, ?_, ?_, fun pre number target post heq => ?_, ?_, ?_⟩
    · -- no second operation is started at all
      have hstarted : number + 1 < command.operations.length :=
        (h.exists_started_iff _).mp ⟨target, by simp [heq]⟩
      obtain ⟨description, hmem⟩ := h.succeeded number hstarted
      have hnumber := hlast number description hmem
      have hcount := h.count_le
      omega
    · rw [h.startedTargets_eq]
      exact List.take_prefix ..
    · rw [h.startedTargets_eq]
      exact (List.pairwise_map.mpr batch.ascending).sublist (List.take_sublist ..)
    · exact (h.order pre number target post heq).completed
    · rw [h.done]
      split <;> omega
    · intro hfinished
      have hidle : command.operation = none := by
        refine Option.eq_none_iff_forall_ne_some.mpr fun number hactive => ?_
        obtain ⟨hnumber, hunfinished⟩ := (h.active number).mp hactive
        obtain ⟨target, hstarted⟩ := (h.exists_started_iff number).mpr (by omega)
        exact hunfinished (hfinished number target hstarted)
      rw [h.done, if_pos ⟨hexecuted, hidle⟩]

end Fits

/-- The execution starts an operation, or the batch is done. -/
theorem executed_of_run {lib : Library} {media : MediaSet} {batch : BatchInformation}
    {command command' : BatchUpload} {next : Operation.StartResult} {events : List Event}
    {out : List Observation} (hfits : Fits batch command' out)
    (hrun : (batchSystem lib media).run command (.execute next :: events) = some (command', out)) :
    command'.executed = true := by
  by_contra hwaiting
  have hwaiting' : command'.executed = false := Bool.eq_false_of_not_eq_true hwaiting
  have hnone : out.filterMap Observation.started? = [] := by
    rw [hfits.starts, hfits.waiting hwaiting']
    rfl
  have hdone : out.count .done = 0 := by
    rw [hfits.done, hwaiting']
    rfl
  obtain ⟨command₁, out₁, out₂, hstep, -, rfl⟩ := (batchSystem lib media).run_cons hrun
  have hexecute : command.step lib media (.execute next) = some (command₁, out₁) := hstep
  obtain ⟨-, -, rfl⟩ := BatchUpload.step_execute hexecute
  rw [List.filterMap_append] at hnone
  rw [List.count_append] at hdone
  obtain ⟨x, rest, hout, hx⟩ :=
    BatchUpload.nextBatchTarget_out { command with executed := true } next
  rw [hout] at hnone hdone
  rcases hx with rfl | ⟨number, target, rfl⟩
  · simp at hdone
  · simp [Observation.started?] at hnone

/-- As long as no operation finishes twice: the targets are taken one after the other, each started
behind the end of the server of the one in front of it, exactly if no operation but that of the last
target completes. -/
theorem batchUpload_inOrder_iff (lib : Library) (media : MediaSet) {batch : BatchInformation}
    {dlpTimeout : Nat} {next : Operation.StartResult} {events : List Event} {command : BatchUpload}
    {out : List Observation}
    (hrun : (batchSystem lib media).run (.ofBatch batch dlpTimeout false)
      (.execute next :: events) = some (command, out)) (honce : FinishedOnce out) :
    InOrder batch out ↔ ∀ number description,
      .call number (.finished .operationCompleted description) ∈ out →
        number + 1 = batch.targets.length := by
  have hfits := (fitting_run hrun).2 honce
  exact hfits.inOrder_iff (executed_of_run hfits hrun)

/-- Two targets, and the operation of the first is terminated. -/
theorem batchUpload_inOrder_terminated :
    ∃ command out,
      plainSystem.run (.ofBatch twoTargets 10 false) [.execute .started, .terminateSignal] =
          some (command, out) ∧
        (InOrder twoTargets out ↔ ∀ number description,
          .call number (.finished .operationCompleted description) ∈ out →
            number + 1 = twoTargets.targets.length) := by
  obtain ⟨command, out, hrun, honce⟩ : ∃ command out,
      plainSystem.run (.ofBatch twoTargets 10 false) [.execute .started, .terminateSignal] =
        some (command, out) ∧ FinishedOnce out :=
    plainSystem.exists_run_of_any (P := fun _ out => FinishedOnce out) (by decide +kernel)
  exact ⟨command, out, hrun, batchUpload_inOrder_iff _ _ hrun honce⟩

/-- Two targets, and the operation of the first completes: the second is started while the server
of the first still runs. -/
theorem batchUpload_starts_beforeServerStop :
    ∃ command out,
      plainSystem.run (.ofBatch twoTargets 10 false)
          [.execute .started,
            .operation 0 (.tftpRequest ⟨0, 0⟩ .write (text "ABCD_1.LUS") {}) .started,
            .operation 0 (.completed (.status 0) .successful
              [0, 0, 0, 20, 0x41, 0x34, 0, 3, 0, 0, 0, 0, 0, 0, 0, 0x30, 0x30, 0x30, 0, 0])
              .started] = some (command, out) ∧
        FinishedOnce out ∧ ¬InOrder twoTargets out := by
  obtain ⟨command, out, hrun, honce, hstarted, hrunning⟩ : ∃ command out,
      plainSystem.run (.ofBatch twoTargets 10 false)
          [.execute .started,
            .operation 0 (.tftpRequest ⟨0, 0⟩ .write (text "ABCD_1.LUS") {}) .started,
            .operation 0 (.completed (.status 0) .successful
              [0, 0, 0, 20, 0x41, 0x34, 0, 3, 0, 0, 0, 0, 0, 0, 0, 0x30, 0x30, 0x30, 0, 0])
              .started] = some (command, out) ∧
        FinishedOnce out ∧ out[7]? = some (.started 1 (text "ABCD_2")) ∧
          .call 0 .serverStop ∉ out.take 7 :=
    plainSystem.exists_run_of_any (P := fun _ out => FinishedOnce out ∧
      out[7]? = some (.started 1 (text "ABCD_2")) ∧ .call 0 .serverStop ∉ out.take 7)
      (by decide +kernel)
  refine ⟨command, out, hrun, honce, fun hinOrder => hrunning ?_⟩
  obtain ⟨hlt, hget⟩ := List.getElem?_eq_some_iff.mp hstarted
  refine hinOrder.serverStopped (out.take 7) 0 (text "ABCD_2") (out.drop 8) ?_
  rw [← hget, ← List.drop_eq_getElem_cons hlt, List.take_append_drop]

end Arinc615a.Commands
