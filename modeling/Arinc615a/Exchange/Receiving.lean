import Arinc615a.Host.ListTransfers
import Arinc615a.Target.RequestTransfers

/-!
# Replaced transfers on both sides

All operations that receive a protocol file through one member, the host for lists and the target
for request files, and what the report of a replaced transfer does to them.
-/

open Reasoning

namespace Arinc615a.Exchange

open Files Tftp

/-- From any state of an operation that receives a list, and of one that receives a request file:
no report of a replaced transfer aborts or finishes the operation or clears the member of the new
transfer, exactly when host operations get such reports only with an abort pending, in the middle of
the replacement or while the member is empty, and target operations get none. -/
theorem replacedTransfers_undisturbed_iff (lib : Library)
    {host host' : Host.World × Member CheckValue} {hostEvents : List (Replacing Host.Event)}
    {hostSeen : List (Seen Host.Event Host.Observation)}
    (hhost : host.1.operation.kind = .information ∨
      host.1.operation.kind = .operatorDefinedDownload)
    (hhostRun : (Host.listTransfers lib).system.run host hostEvents = some (host', hostSeen))
    {target target' : Target.World × Member Unit} {targetEvents : List (Replacing Target.Event)}
    {targetSeen : List (Seen Target.Event Target.Observation)}
    (htarget : target.1.operation.statusV.kind ≠ .information)
    (htargetRun : (Target.requestTransfers lib).system.run target targetEvents =
      some (target', targetSeen)) :
    ((Host.listTransfers lib).system.EachStep (Replacements.Undisturbed Host.World.Alone) host
          hostEvents ↔
        (Host.listTransfers lib).system.Throughout
          (Replacements.ReportsUnheeded fun w => w.operation.AbortPending) host hostEvents) ∧
      ((Target.requestTransfers lib).system.EachStep
          (Replacements.Undisturbed Target.World.Alone) target targetEvents ↔
        (Target.requestTransfers lib).system.Throughout
          (Replacements.ReportsUnheeded Target.World.Unheeding) target targetEvents) :=
  ⟨(Host.World.reports lib).run_iff hhost hhostRun,
    (Target.World.reports lib).run_iff htarget htargetRun⟩

/-- A list that is replaced while an abort is pending reports in the middle of the replacement, and
a request file is received once. -/
theorem replacedTransfers_undisturbed_sample :
    ∃ host' hostSeen target' targetSeen,
      (Host.listTransfers { raw := .bigEndian, generateCheckValue := fun _ _ => {} }).system.run
          (Host.World.ofOperation .operatorDefinedDownload (.ofText (text "ABCD_1")) 10 false, {})
          [.numbered (.event (.start .started)),
            .numbered (.event (.tftpRequest ⟨1, 2⟩ .write (text "ABCD_1.LNL") {})),
            .numbered (.event (.abort .operator)),
            .reporting 0 (.tftpRequest ⟨1, 2⟩ .write (text "ABCD_1.LNL") {})] =
        some (host', hostSeen) ∧
      (Target.requestTransfers { raw := .bigEndian, generateCheckValue := fun _ _ => {} }).system.run
          ({ operation := { targetId := .ofText (text "ABCD_1"), protocolVersion := .arinc615a34,
                            statusTransmissionRate := 1, hostAddress := 1, hostPort := 59,
                            statusV := .upload {} } }, {})
          [.numbered (.event (.tftpRequest ⟨1, 2⟩ .write (text "ABCD_1.LUR"))),
            .numbered (.completion 0 (.completed .request .successful []))] =
        some (target', targetSeen) ∧
      ((Host.listTransfers { raw := .bigEndian, generateCheckValue := fun _ _ => {} }).system.EachStep
            (Replacements.Undisturbed Host.World.Alone)
            (Host.World.ofOperation .operatorDefinedDownload (.ofText (text "ABCD_1")) 10 false, {})
            [.numbered (.event (.start .started)),
              .numbered (.event (.tftpRequest ⟨1, 2⟩ .write (text "ABCD_1.LNL") {})),
              .numbered (.event (.abort .operator)),
              .reporting 0 (.tftpRequest ⟨1, 2⟩ .write (text "ABCD_1.LNL") {})] ↔
          (Host.listTransfers
              { raw := .bigEndian, generateCheckValue := fun _ _ => {} }).system.Throughout
            (Replacements.ReportsUnheeded fun w => w.operation.AbortPending)
            (Host.World.ofOperation .operatorDefinedDownload (.ofText (text "ABCD_1")) 10 false, {})
            [.numbered (.event (.start .started)),
              .numbered (.event (.tftpRequest ⟨1, 2⟩ .write (text "ABCD_1.LNL") {})),
              .numbered (.event (.abort .operator)),
              .reporting 0 (.tftpRequest ⟨1, 2⟩ .write (text "ABCD_1.LNL") {})]) := by
  have hupload : (Target.AnyStatus.upload {}).kind ≠ .information := by decide
  have htargetRun : ∃ target' targetSeen,
      (Target.requestTransfers { raw := .bigEndian, generateCheckValue := fun _ _ => {} }).system.run
          ({ operation := { targetId := .ofText (text "ABCD_1"), protocolVersion := .arinc615a34,
                            statusTransmissionRate := 1, hostAddress := 1, hostPort := 59,
                            statusV := .upload {} } }, {})
          [.numbered (.event (.tftpRequest ⟨1, 2⟩ .write (text "ABCD_1.LUR"))),
            .numbered (.completion 0 (.completed .request .successful []))] =
        some (target', targetSeen) := ⟨_, _, rfl⟩
  obtain ⟨target', targetSeen, htargetRun⟩ := htargetRun
  exact ⟨_, _, target', targetSeen, rfl, htargetRun,
    (replacedTransfers_undisturbed_iff _ (.inr rfl) rfl hupload htargetRun).1⟩

/-- A second list of an operator defined download arrives while the first one is being received.
The first one reports that it was aborted: the operation is aborted, and the member is cleared while
the second transfer is active. -/
theorem replacedList_disturbs :
    ∃ w m w' m' seen,
      (Host.listTransfers { raw := .bigEndian, generateCheckValue := fun _ _ => {} }).system.run
          (Host.World.ofOperation .operatorDefinedDownload (.ofText (text "ABCD_1")) 10 false, {})
          [.numbered (.event (.start .started)),
            .numbered (.event (.tftpRequest ⟨1, 2⟩ .write (text "ABCD_1.LNL") {})),
            .numbered (.event (.tftpRequest ⟨1, 2⟩ .write (text "ABCD_1.LNL") {}))] =
        some ((w, m), seen) ∧
      m.held = some 1 ∧ w.operation.abortReason = .noAbort ∧
      (Host.listTransfers { raw := .bigEndian, generateCheckValue := fun _ _ => {} }).system.run
          (w, m) [.numbered (.completion 0 (.completed (.list {}) .aborted []))] =
        some ((w', m'), [.completed 0 (some 1) (.completed (.list {}) .aborted []),
          .output (.call (.gracefulAbort .initialisation "Abort"))]) ∧
      m'.held = none ∧ m'.active = [(1, {})] ∧ w'.operation.abortReason = .protocol ∧
      ¬(Host.listTransfers { raw := .bigEndian, generateCheckValue := fun _ _ => {} }).system.EachStep
        (Replacements.Undisturbed Host.World.Alone) (w, m)
        [.numbered (.completion 0 (.completed (.list {}) .aborted []))] := by
  refine ⟨_, _, _, _, _, rfl, rfl, rfl, rfl, rfl, rfl, rfl, fun h => ?_⟩
  have hstep := h [] _ [] _ _ rfl rfl _ _ rfl (by decide)
  exact absurd hstep.2 (by decide)

end Arinc615a.Exchange
