import Arinc615a.Commands.Handlers
import Mathlib.Data.List.Nodup

/-!
# The files that a command transfers

An abstract model of what a command does with the requests for files, and that the commands keep to
it: each request is answered at once, with the file that is looked up or with an error, and a
transfer that ends has been started before.
-/

open Reasoning

namespace Arinc615a.Commands

open Files Information Tftp Host

/-- The transfers under way, and the number of the next one. -/
structure FileService where
  active : List FileOperation := []
  next : Nat := 0
  deriving DecidableEq

/-- Observations that have nothing to do with files. -/
def Command.Observation.plain : Command.Observation → Bool
  | .call _ (.fileRequest ..) | .errorOperation .. | .fileTransfer .. | .fileCompleted ..
  | .abort .protocol => false
  | _ => true

/-- What is seen while the service goes from one state to another. -/
inductive FileService.Serves (filePath : Text → Text → CheckValue → Option Text) :
    FileService → List Command.Observation → FileService → Prop
  | nil (service : FileService) : Serves filePath service [] service
  | plain {service service' : FileService} {out : List Command.Observation}
      {o : Command.Observation} (ho : o.plain = true)
      (hrest : Serves filePath service out service') : Serves filePath service (o :: out) service'
  | missing {service service' : FileService} {out : List Command.Observation} (now : Nat)
      (remote : Endpoint) {filename partNumber : Text} {checkValue : CheckValue}
      (hpath : filePath filename partNumber checkValue = none)
      (hrest : Serves filePath service out service') :
    Serves filePath service (.call now (.fileRequest remote filename partNumber checkValue) ::
      .errorOperation remote .fileNotFound (text "File '" ++ filename ++ text "' was not found.") ::
        out) service'
  | transferred {service service' : FileService} {out : List Command.Observation} (now : Nat)
      (remote : Endpoint) {filename partNumber path : Text} {checkValue : CheckValue}
      (hpath : filePath filename partNumber checkValue = some path)
      (hrest : Serves filePath
        ⟨⟨service.next, filename, path⟩ :: service.active, service.next + 1⟩ out service') :
    Serves filePath service (.call now (.fileRequest remote filename partNumber checkValue) ::
      .fileTransfer now remote ⟨service.next, filename, path⟩ partNumber checkValue :: out) service'
  | completed {service service' : FileService} {out : List Command.Observation} (now : Nat)
      {operation : FileOperation} (result : FileResult) (hactive : operation ∈ service.active)
      (hrest : Serves filePath { service with active := service.active.erase operation } out
        service') :
    Serves filePath service (.fileCompleted now operation result :: out) service'

namespace FileService.Serves

variable {filePath : Text → Text → CheckValue → Option Text} {s s' s'' : FileService}
  {out out' : List Command.Observation}

theorem append (h : Serves filePath s out s') (h' : Serves filePath s' out' s'') :
    Serves filePath s (out ++ out') s'' := by
  induction h with
  | nil => exact h'
  | plain ho _ ih => exact .plain ho (ih h')
  | missing now remote hpath _ ih => exact .missing now remote hpath (ih h')
  | transferred now remote hpath _ ih => exact .transferred now remote hpath (ih h')
  | completed now result hactive _ ih => exact .completed now result hactive (ih h')

theorem of_plain (h : ∀ o ∈ out, o.plain = true) : Serves filePath s out s := by
  induction out with
  | nil => exact .nil s
  | cons o out ih =>
    obtain ⟨ho, hrest⟩ := List.forall_mem_cons.mp h
    exact .plain ho (ih hrest)

end FileService.Serves

namespace Command

variable {μ : Type} {lib : Library} {h : CommandHandler μ} {now : Nat}
  {command command' : Command μ}

theorem plain_of_unheard {out : List Output} (h : Unheard out) :
    ∀ o ∈ out.map (Observation.call now), o.plain = true := by
  intro o ho
  obtain ⟨output, houtput, rfl⟩ := List.mem_map.mp ho
  cases output with
  | fileRequest => cases h _ houtput
  | _ => rfl

/-! ## The service of a command -/

def service (command : Command μ) : FileService where
  active := command.transfers
  next := command.nextFileOperation

/-- The operations that are noted are those of the transfers under way. -/
structure Bookkept (command : Command μ) : Prop where
  noted : command.fileOperations = command.transfers.map (·.operation)
  once : (command.transfers.map (·.operation)).Nodup
  fresh : ∀ operation ∈ command.transfers, operation.operation < command.nextFileOperation

/-- A part of a command that keeps its books, with what it does for the files. -/
abbrev Serving (h : CommandHandler μ) (command : Command μ) (out : List Observation)
    (command' : Command μ) : Prop :=
  Follows Bookkept service (FileService.Serves h.filePath) command out command'

theorem Bookkept.same (hcommand : command.Bookkept)
    (hoperations : command'.fileOperations = command.fileOperations)
    (htransfers : command'.transfers = command.transfers)
    (hnext : command'.nextFileOperation = command.nextFileOperation) :
    command'.Bookkept ∧ command'.service = command.service := by
  obtain ⟨hnoted, honce, hfresh⟩ := hcommand
  refine ⟨⟨?_, ?_, ?_⟩, ?_⟩
  · rw [hoperations, htransfers, hnoted]
  · rw [htransfers]
    exact honce
  · rw [htransfers, hnext]
    exact hfresh
  · rw [service, service, htransfers, hnext]

/-- Nothing that is noted changes, and nothing is seen of files. -/
theorem serving_still (hcommand : command.Bookkept)
    (hoperations : command'.fileOperations = command.fileOperations)
    (htransfers : command'.transfers = command.transfers)
    (hnext : command'.nextFileOperation = command.nextFileOperation) {out : List Observation}
    (hplain : ∀ o ∈ out, o.plain = true) : Serving h command out command' := by
  obtain ⟨hbookkept, hservice⟩ := hcommand.same hoperations htransfers hnext
  refine ⟨hbookkept, ?_⟩
  rw [hservice]
  exact .of_plain hplain

theorem serving_demand (hcommand : command.Bookkept) (d : Demand) :
    Serving h command (demand lib h now command d).out (demand lib h now command d).command := by
  cases d with
  | nothing => exact serving_still hcommand rfl rfl rfl (List.forall_mem_nil _)
  | abort =>
    have hframed : Framed command (command.abort now .operator).command := framed_abort ..
    exact serving_still hcommand hframed.fileOperations hframed.transfers
      hframed.nextFileOperation
      (List.forall_mem_cons.mpr ⟨rfl, plain_of_unheard (unheard_doAbort _ _)⟩)
  | send request =>
    rcases demand_send lib h now command request with
      ⟨-, hnothing⟩ | ⟨accepted, out, hout, heq, hframed⟩
    · rw [hnothing]
      exact serving_still hcommand rfl rfl rfl (List.forall_mem_nil _)
    · rw [heq]
      exact serving_still hcommand hframed.fileOperations hframed.transfers
        hframed.nextFileOperation (List.forall_mem_cons.mpr ⟨rfl, plain_of_unheard hout⟩)

theorem serving_fileRequest (hcommand : command.Bookkept) (remote : Endpoint)
    (filename partNumber : Text) (checkValue : CheckValue) :
    Serving h command (.call now (.fileRequest remote filename partNumber checkValue) ::
        (command.fileRequest h now remote filename partNumber checkValue).out)
      (command.fileRequest h now remote filename partNumber checkValue).command := by
  unfold fileRequest
  split
  next hpath => exact ⟨hcommand, .missing now remote hpath (.nil _)⟩
  next path hpath =>
    refine ⟨⟨?_, ?_, ?_⟩, .transferred now remote hpath (.nil _)⟩
    · exact congrArg (command.nextFileOperation :: ·) hcommand.noted
    · refine List.nodup_cons.mpr ⟨fun hmem => ?_, hcommand.once⟩
      obtain ⟨operation, hoperation, heq⟩ := List.mem_map.mp hmem
      exact absurd (hcommand.fresh operation hoperation) (by rw [heq]; exact Nat.lt_irrefl _)
    · refine List.forall_mem_cons.mpr ⟨Nat.lt_succ_self _, fun operation hoperation => ?_⟩
      exact Nat.lt_succ_of_lt (hcommand.fresh operation hoperation)

/-- One call, with what the handler function for it does. -/
theorem serving_handler (hcommand : command.Bookkept) (o : Output) :
    Serving h command (.call now o :: (handler lib h now command o).out)
      (handler lib h now command o).command := by
  have hdemand : ∀ members d,
      Serving h command (demand lib h now { command with members := members } d).out
        (demand lib h now { command with members := members } d).command := by
    intro members d
    have hmembers : Bookkept { command with members := members } :=
      ⟨hcommand.noted, hcommand.once, hcommand.fresh⟩
    exact serving_demand hmembers d
  cases o with
  | fileRequest remote filename partNumber checkValue =>
    exact serving_fileRequest hcommand remote filename partNumber checkValue
  | finished code description =>
    obtain ⟨hbookkept, hserves⟩ := hdemand (h.called now command.members
      (.finished code description)).1 (h.called now command.members (.finished code description)).2
    exact ⟨hbookkept,
      .plain rfl (hserves.append (.of_plain (List.forall_mem_singleton.mpr rfl)))⟩
  | _ =>
    obtain ⟨hbookkept, hserves⟩ := hdemand _ _
    exact ⟨hbookkept, .plain rfl hserves⟩

/-- The numbers that are left when a transfer has ended. -/
theorem map_erase_eq_filter {transfers : List FileOperation} {operation : FileOperation}
    (hnodup : (transfers.map (·.operation)).Nodup) (hmem : operation ∈ transfers) :
    (transfers.erase operation).map (·.operation) =
      (transfers.map (·.operation)).filter (· ≠ operation.operation) := by
  induction transfers with
  | nil => cases hmem
  | cons first transfers ih =>
    obtain ⟨hfirst, hrest⟩ := List.nodup_cons.mp hnodup
    by_cases heq : first = operation
    · subst heq
      have hall : (transfers.map (·.operation)).filter (· ≠ first.operation) =
          transfers.map (·.operation) :=
        List.filter_eq_self.mpr fun n hn => decide_eq_true fun h => by
          subst h
          exact hfirst hn
      rw [List.erase_cons_head, List.map_cons, List.filter_cons_of_neg (by simp), hall]
    · have hlater : operation ∈ transfers := (List.mem_cons.mp hmem).resolve_left (Ne.symm heq)
      have hne : first.operation ≠ operation.operation := by
        intro h
        have hagain := List.mem_map_of_mem (f := (·.operation)) hlater
        rw [← h] at hagain
        exact hfirst hagain
      rw [List.erase_cons_tail (by simpa using heq), List.map_cons, List.map_cons,
        List.filter_cons_of_pos (by simpa using hne), ih hrest hlater]

theorem serving_fileCompleted (hcommand : command.Bookkept) {operation : FileOperation}
    (hmem : operation ∈ command.transfers) (result : FileResult) :
    let r := fileCompleted h now
      { command with transfers := command.transfers.erase operation } operation result
    Serving h command r.out r.command := by
  have hone : command.fileOperations.count operation.operation = 1 := by
    rw [hcommand.noted]
    exact List.count_eq_one_of_mem hcommand.once (List.mem_map_of_mem hmem)
  unfold fileCompleted
  simp only [hone, ne_eq, not_true_eq_false, if_false]
  refine ⟨⟨?_, ?_, fun other hother => ?_⟩, .completed now result hmem (.nil _)⟩
  · show command.fileOperations.filter _ = _
    rw [hcommand.noted, map_erase_eq_filter hcommand.once hmem]
  · exact hcommand.once.sublist (List.erase_sublist.map _)
  · exact hcommand.fresh other (List.mem_of_mem_erase hother)

theorem rule_serving :
    Rule lib h Bookkept service (FileService.Serves h.filePath) where
  composable := ⟨.nil, .append⟩
  framed hframed hcommand :=
    hcommand.same hframed.fileOperations hframed.transfers hframed.nextFileOperation
  unheard _ _ _ ho := .of_plain (plain_of_unheard (List.forall_mem_singleton.mpr ho))
  handler _ o hcommand := serving_handler hcommand o
  fileCompleted _ result hcommand hmem := serving_fileCompleted hcommand hmem result

theorem bookkept_created {members : μ} {kind : OperationType} {targetId : TargetId}
    {dlpTimeout : Nat} {portOption : Bool} :
    (created members kind targetId dlpTimeout portOption).Bookkept :=
  ⟨rfl, List.nodup_nil, List.forall_mem_nil _⟩

end Command

/-- Over any run, a command does with the files what the service does: no request is left without
its answer, and the command never aborts the operation because of its own transfers. -/
theorem command_serves_files {μ : Type} {lib : Library} {h : CommandHandler μ} {members : μ}
    {kind : OperationType} {targetId : TargetId} {dlpTimeout : Nat} {portOption : Bool}
    {events : List (Nat × Command.Event)} {after : Command μ} {out : List Command.Observation}
    (hrun : (commandSystem lib h).run (.created members kind targetId dlpTimeout portOption)
      events = some (after, out)) :
    FileService.Serves h.filePath {} out ⟨after.transfers, after.nextFileOperation⟩ :=
  Command.rule_serving.runs Command.bookkept_created hrun

/-- An upload from a medium, of a file that is there and of one that is not. -/
theorem command_serves_files_adhoc :
    let paths : PathLibrary :=
      { append := fun a b => a ++ text "/" ++ b, lexicallyNormal := id,
        isRegularFile := fun path => path = text "/media/1/A.LUH", normaliseFilename := id }
    let media : MediaLibrary Text Nat :=
      { loadsFile := fun _ filename _ _ => some filename, mediaSet := fun _ => 0,
        effectiveMediumNumber := fun _ => 1, relativePath := id }
    let handler := AdhocUploadOperationCommand.handler paths media [(1, text "/media/1")]
      [⟨text "A.LUH", text "PN"⟩]
    ∃ after out,
      (commandSystem { raw := .bigEndian, generateCheckValue := fun _ _ => {} } handler).run
          (.created false .upload (.ofText (text "ABCD_1")) 10 false)
          [(0, .execute .started),
            (1, .operation (.tftpRequest ⟨1, 2⟩ .read (text "A.LUH") {})),
            (2, .operation (.tftpRequest ⟨1, 2⟩ .read (text "B.LUP") {})),
            (3, .fileCompleted ⟨0, text "A.LUH", text "/media/1/A.LUH"⟩ .failed)] =
        some (after, out) ∧
      .errorOperation ⟨1, 2⟩ .fileNotFound (text "File 'B.LUP' was not found.") ∈ out ∧
      FileService.Serves handler.filePath {} out ⟨after.transfers, after.nextFileOperation⟩ := by
  intro paths media handler
  have hseen : ((commandSystem { raw := .bigEndian, generateCheckValue := fun _ _ => {} }
      handler).run (.created false .upload (.ofText (text "ABCD_1")) 10 false)
      [(0, .execute .started), (1, .operation (.tftpRequest ⟨1, 2⟩ .read (text "A.LUH") {})),
        (2, .operation (.tftpRequest ⟨1, 2⟩ .read (text "B.LUP") {})),
        (3, .fileCompleted ⟨0, text "A.LUH", text "/media/1/A.LUH"⟩ .failed)]).map
      (fun r => decide (.errorOperation ⟨1, 2⟩ .fileNotFound
        (text "File 'B.LUP' was not found.") ∈ r.2)) = some true := by
    decide +kernel
  obtain ⟨⟨after, out⟩, hrun, hmem⟩ := Option.map_eq_some_iff.mp hseen
  exact ⟨after, out, hrun, of_decide_eq_true hmem, command_serves_files hrun⟩

end Arinc615a.Commands
