import Arinc615a.Commands.BatchCalls

/-!
# The operations of a batch

The calls of an operation are performed one by one, and the command goes on from inside them.  All
through that every operation knows its status file transfers, and the command its file transfers.
-/

open Reasoning

namespace Arinc615a.Commands

open Files Information Tftp Host

/-! ## One operation -/

/-- An upload that has still to make the calls `rest`. -/
structure Tracks (w : World) (rest : List Output) : Prop where
  kind : w.operation.kind = .upload
  tracking : Tracking w.operation w.loop.pending rest

namespace Tracks

variable {w : World} {rest : List Output}

theorem perform {o : Output} (h : Tracks w (o :: rest)) : Tracks (w.perform o) rest :=
  ⟨h.kind, h.tracking.perform⟩

theorem count_of_plain {out : List Output} (hout : ∀ o ∈ out, o.plain = true) (id : Nat) :
    out.count (.transferStart (.status id)) = 0 :=
  List.count_eq_zero.mpr fun hmem => absurd (hout _ hmem) (by simp [Output.plain])

/-- Calls that start no status file transfer make no difference. -/
theorem append {out : List Output} (h : Tracks w rest) (hout : ∀ o ∈ out, o.plain = true) :
    Tracks w (out ++ rest) where
  kind := h.kind
  tracking :=
    { h.tracking with
      counted := fun id => by
        rw [List.count_append, count_of_plain hout, Nat.zero_add]
        exact h.tracking.counted id }

theorem drop (h : Tracks w rest) (hrest : ∀ o ∈ rest, o.plain = true) : Tracks w [] where
  kind := h.kind
  tracking :=
    { h.tracking with
      counted := fun id => by
        rw [List.count_nil, ← count_of_plain hrest id]
        exact h.tracking.counted id }

theorem performAll {out : List Output} (h : Tracks w (out ++ rest)) :
    Tracks (out.foldl World.perform w) rest := by
  induction out generalizing w with
  | nil => exact h
  | cons o out ih => exact ih h.perform

/-- A part of the operation runs, and has still to make its calls. -/
theorem notes {r : Host.Reaction} (h : Tracks w []) (hnotes : Notes w.operation r)
    (hkind : r.1.kind = w.operation.kind) : Tracks { w with operation := r.1 } r.2 where
  kind := hkind.trans h.kind
  tracking :=
    { counted := fun id => by
        have htransfers := h.tracking.counted id
        have hcounted := hnotes.counted id
        rw [List.count_nil] at htransfers
        dsimp only
        omega
      once := fun id => by
        have honce := h.tracking.once id
        have hnew := hnotes.once id
        have hcounted := hnotes.counted id
        have hfresh := h.tracking.fresh id
        have hnewFresh := hnotes.fresh id
        dsimp only
        omega
      fresh := fun id hpos => by
        have hcounted := hnotes.counted id
        have hfresh := h.tracking.fresh id
        have hnewFresh := hnotes.fresh id
        have hlater := hnotes.later
        dsimp only at hpos ⊢
        omega }

theorem tracked (h : Tracks w []) : World.Tracked w.operation w.loop.pending :=
  h.tracking.tracked (List.forall_mem_nil _)

theorem ofTracked (hkind : w.operation.kind = .upload)
    (h : World.Tracked w.operation w.loop.pending) : Tracks w [] :=
  ⟨hkind, ⟨h.counted, h.once, h.fresh⟩⟩

theorem closing_callback {lib : Library} {v : World} {event : Host.Event} {r : Host.Reaction}
    (h : Tracks w []) (hcallback : w.callback lib event = some (v, r)) : Closing r.2 :=
  (World.concluding_callback h.kind h.tracked hcallback).elim Concluding.closing
    Operation.Answering.closing

end Tracks

/-! ## All operations -/

/-- The operation `number` has still to make the calls `rest`, and the others have made theirs. -/
structure Sound (number : Nat) (rest : List Output) (command : BatchUpload) : Prop where
  operations : ∀ n w, command.operations[n]? = some w → Tracks w (if n = number then rest else [])
  noted : command.fileOperations = command.transfers
  once : command.transfers.Nodup
  fresh : ∀ operation ∈ command.transfers, operation < command.nextFileOperation

/-- No operation has a call to make. -/
abbrev Settled : BatchUpload → Prop := Sound 0 []

namespace Sound

variable {lib : Library} {media : MediaSet} {command : BatchUpload} {number : Nat}
  {rest : List Output}

theorem tracks (h : Settled command) {w : World} (hw : command.operations[number]? = some w) :
    Tracks w [] := by
  have htracks := h.operations number w hw
  rwa [ite_self] at htracks

theorem settled (h : Sound number [] command) : Settled command :=
  { h with operations := fun n w hw => by simpa using h.operations n w hw }

theorem drop (h : Sound number rest command) (hrest : ∀ o ∈ rest, o.plain = true) :
    Settled command :=
  { h with
    operations := fun n w hw => by
      have htracks := h.operations n w hw
      split at htracks
      · simpa using htracks.drop hrest
      · simpa using htracks }

/-- One operation is changed, and what it has still to call. -/
theorem modify {rest' : List Output} {f : World → World} {n : Nat} (h : Sound number rest command)
    (hf : ∀ w, command.operations[n]? = some w → Tracks w (if n = number then rest else []) →
      Tracks (f w) (if n = number then rest' else []))
    (hothers : n ≠ number → rest' = rest) :
    Sound number rest' { command with operations := command.operations.modify n f } where
  operations m w hw := by
    rw [List.getElem?_modify] at hw
    obtain ⟨v, hv, rfl⟩ := Option.map_eq_some_iff.mp hw
    have htracks := h.operations m v hv
    split
    next heq =>
      subst heq
      exact hf v hv htracks
    next hne =>
      by_cases hm : m = number
      · rw [if_pos hm] at htracks ⊢
        rwa [hothers fun hn => hne (hn.trans hm.symm)]
      · rwa [if_neg hm] at htracks ⊢
  noted := h.noted
  once := h.once
  fresh := h.fresh

theorem perform {o : Output} (h : Sound number (o :: rest) command) :
    Sound number rest (command.perform number o) :=
  h.modify (fun w _ htracks => by
    rw [if_pos rfl] at htracks ⊢
    exact htracks.perform) (absurd rfl)

/-- The command calls a part of an operation that has nothing to note. -/
theorem react {n : Nat} {r : Host.Reaction} (h : Sound number rest command)
    (hop : ∀ w, command.operations[n]? = some w → r.1 = w.operation)
    (hout : ∀ o ∈ r.2, o.plain = true) : Sound number rest (command.react n r).command :=
  h.modify (fun w hw htracks => by
    rw [hop w hw]
    exact (htracks.append hout).performAll) fun _ => rfl

/-- The command calls a part of an operation that has made its calls. -/
theorem reactNotes {n : Nat} {r : Host.Reaction} (h : Sound number rest command)
    (hrest : n = number → rest = [])
    (hnotes : ∀ w, command.operations[n]? = some w → Notes w.operation r)
    (hkind : ∀ w, command.operations[n]? = some w → r.1.kind = w.operation.kind) :
    Sound number rest (command.react n r).command := by
  have hnone : (if n = number then rest else []) = [] := by
    split
    next heq => exact hrest heq
    next => rfl
  refine h.modify (fun w hw htracks => ?_) fun _ => rfl
  rw [hnone] at htracks ⊢
  have hcalls := htracks.notes (hnotes w hw) (hkind w hw)
  rw [← List.append_nil r.2] at hcalls
  exact hcalls.performAll

theorem nextBatchTarget (h : Sound number rest command)
    (hrest : command.operations.length = number → rest = []) (next : Operation.StartResult) :
    Sound number rest (command.nextBatchTarget next).command := by
  unfold BatchUpload.nextBatchTarget
  split
  next => exact h
  next target loads others hcons =>
    let w := World.ofOperation .upload (.ofText target) command.dlpTimeout command.portOption
    have hw : Tracks w [] :=
      .ofTracked rfl (World.tracked_ofOperation .upload _ command.dlpTimeout command.portOption)
    have hcreated : Sound number rest { command with
        batchTargets := ⟨others, (List.pairwise_cons.mp (hcons ▸ command.batchTargets.ascending)).2⟩
        loads := loads
        loadListTransmitted := false
        operations := command.operations ++ [w]
        operation := some command.operations.length } :=
      { h with
        operations := fun n v hv => by
          rcases Nat.lt_trichotomy n command.operations.length with hlt | rfl | hgt
          · rw [List.getElem?_append_left hlt] at hv
            exact h.operations n v hv
          · rw [List.getElem?_concat_length] at hv
            cases hv
            split
            next heq =>
              rw [hrest heq]
              exact hw
            next => exact hw
          · rw [List.getElem?_eq_none (by rw [List.length_append]; exact hgt)] at hv
            cases hv }
    have hlast (v : World)
        (hv : (command.operations ++ [w])[command.operations.length]? = some v) : w = v := by
      rw [List.getElem?_concat_length] at hv
      exact Option.some.inj hv
    refine hcreated.reactNotes hrest (fun v hv => ?_) fun v hv => ?_
    · rw [← hlast v hv]
      exact (w.operation.behaves_start next).notes
    · rw [← hlast v hv]
      cases next <;> rfl

/-! ## The handler -/

theorem status (h : Sound number rest command) (status : UploadStatus) :
    Sound number rest (command.status lib status).command := by
  unfold BatchUpload.status
  split
  next => exact h
  next active hactive =>
    split
    · split
      next => exact h
      next w hw =>
        split
        next => exact h
        next reaction hload =>
          obtain ⟨hop, hmodest⟩ := w.operation.modest_loadList lib hload
          have hcalls : Sound number rest (command.react active reaction).command := by
            refine h.react (fun v hv => ?_) fun o ho => (hmodest o ho).2.2
            rw [hw] at hv
            cases hv
            exact hop
          exact { hcalls with }
    · exact h

theorem fileRequest (h : Sound number rest command) (remote : Endpoint)
    (filename loadPartNumber : Text) (checkValue : CheckValue) :
    Sound number rest
      (command.fileRequest media remote filename loadPartNumber checkValue).command := by
  unfold BatchUpload.fileRequest
  split
  next => exact h
  next active hactive =>
    dsimp only
    split
    next => exact h
    next realFilename hpath =>
      split
      · exact h
      · -- the new file transfer is none of those under way
        have hnew : command.nextFileOperation ∉ command.transfers := fun hmem =>
          Nat.lt_irrefl _ (h.fresh _ hmem)
        exact
          { operations := h.operations
            noted := by rw [h.noted]
            once := List.nodup_cons.mpr ⟨hnew, h.once⟩
            fresh := List.forall_mem_cons.mpr
              ⟨Nat.lt_succ_self _, fun x hx => Nat.lt_succ_of_lt (h.fresh x hx)⟩ }

/-! ## Calls one by one -/

theorem deliver {next : Operation.StartResult} {o : Output} (h : Sound number (o :: rest) command)
    (hnumber : number < command.operations.length) :
    Sound number rest (command.deliver lib media number next o).command := by
  have hperform : Sound number rest (command.perform number o) := h.perform
  unfold BatchUpload.deliver
  dsimp only
  split
  · exact hperform
  · unfold BatchUpload.handler
    split
    next code description _ =>
      unfold BatchUpload.finished
      have hreset : Sound number rest
          { command.perform number (.finished code description) with operation := none } :=
        { hperform with }
      dsimp only
      split
      · exact hreset
      · refine hreset.nextBatchTarget (fun heq => absurd heq (Nat.ne_of_gt ?_)) next
        exact hnumber.trans_eq (SameCourse.perform command number _).count.symm
    · exact hperform.status _
    · exact hperform.fileRequest _ _ _ _
    · exact hperform

/-- Only a handler that goes on with the batch or with the load list throws. -/
theorem thrown_deliver {next : Operation.StartResult} {o : Output}
    (hfinish : o.mark ≠ .finish) (hstatus : ∀ status, o ≠ .uploadStatus status) :
    (command.deliver lib media number next o).thrown = false := by
  unfold BatchUpload.deliver
  dsimp only
  split
  · rfl
  · unfold BatchUpload.handler
    split
    · exact absurd rfl hfinish
    · exact absurd rfl (hstatus _)
    · unfold BatchUpload.fileRequest
      split
      · rfl
      · dsimp only
        split
        · rfl
        · split <;> rfl
    · rfl

/-- An operation makes its calls.  Where a handler throws, those that are left out start no status
file transfer. -/
theorem deliverAll {next : Operation.StartResult} (h : Sound number rest command)
    (hnumber : number < command.operations.length)
    (hrest : (∀ o ∈ rest, o.plain = true) ∨ Operation.Answering rest) :
    Settled (BatchUpload.deliverAll lib media number next rest command).command := by
  induction rest generalizing command with
  | nil => exact h.settled
  | cons o rest ih =>
    have hfirst : Sound number rest (command.deliver lib media number next o).command :=
      h.deliver hnumber
    unfold BatchUpload.deliverAll Reaction.andThen
    split
    next hthrown =>
      -- answers to requests throw nothing, so this is not one of them
      rcases hrest with hplain | hanswering
      · exact hfirst.drop fun x hx => hplain x (List.mem_cons_of_mem _ hx)
      · obtain ⟨hfinish, -, hstatus⟩ := hanswering o (List.mem_cons_self ..)
        rw [thrown_deliver hfinish hstatus] at hthrown
        cases hthrown
    next =>
      exact ih hfirst (hnumber.trans_le (BatchUpload.count_le_deliver lib media command number next o))
        (hrest.imp (fun hplain x hx => hplain x (List.mem_cons_of_mem _ hx))
          fun hanswering x hx => hanswering x (List.mem_cons_of_mem _ hx))

/-! ## Steps -/

theorem set {w : World} (h : Settled command) (hw : Tracks w rest) :
    Sound number rest { command with operations := command.operations.set number w } where
  operations n v hv := by
    by_cases hn : n = number
    · subst hn
      rw [if_pos rfl]
      rw [List.getElem?_set_self'] at hv
      obtain ⟨_, -, rfl⟩ := Option.map_eq_some_iff.mp hv
      exact hw
    · rw [if_neg hn]
      rw [List.getElem?_set_ne (Ne.symm hn)] at hv
      exact h.tracks hv
  noted := h.noted
  once := h.once
  fresh := h.fresh

theorem run {next : Operation.StartResult} {w : World} {r : Host.Reaction} (h : Settled command)
    (hnumber : number < command.operations.length)
    (hw : Tracks { w with operation := r.1 } r.2)
    (hcalls : (∀ o ∈ r.2, o.plain = true) ∨ Operation.Answering r.2) :
    Settled (command.run lib media number next w r).command :=
  (h.set hw).deliverAll (hnumber.trans_eq (List.length_set ..).symm) hcalls

/-- A signal calls a part of each operation. -/
theorem signal {seen : Nat → Observation} {slot : Operation → Host.Reaction}
    (hnotes : ∀ op, Notes op (slot op)) (hkind : ∀ op, (slot op).1.kind = op.kind)
    (hplain : ∀ op, ∀ o ∈ (slot op).2, o.plain = true) {numbers : List Nat} (h : Settled command) :
    Settled (BatchUpload.signal lib media seen slot numbers command).command := by
  induction numbers generalizing command with
  | nil => exact h
  | cons number numbers ih =>
    have hfirst : Settled (command.reach lib media seen slot number).command := by
      unfold BatchUpload.reach
      split
      next => exact h
      next w hw =>
        obtain ⟨hnumber, -⟩ := List.getElem?_eq_some_iff.mp hw
        exact h.run hnumber ((h.tracks hw).notes (hnotes _) (hkind _)) (.inl (hplain _))
    unfold BatchUpload.signal Reaction.andThen
    split
    · exact hfirst
    · exact ih hfirst

/-- A file transfer that completes is one of those noted, and is noted no more. -/
theorem fileCompleted (h : Settled command) {operation : Nat} (hmem : operation ∈ command.transfers) :
    let r := { command with
      transfers := command.transfers.erase operation }.fileCompleted operation
    Settled r.command ∧ SameCourse command r.command ∧ r.out = [] := by
  have hone : command.fileOperations.count operation = 1 := by
    rw [h.noted, h.once.count, if_pos hmem]
  unfold BatchUpload.fileCompleted
  dsimp only
  rw [if_neg (not_not.mpr hone)]
  refine ⟨?_, ⟨rfl, rfl, rfl, rfl⟩, rfl⟩
  have herased : command.transfers.erase operation = command.transfers.filter (· ≠ operation) := by
    rw [h.once.erase_eq_filter]
    refine List.filter_congr fun x _ => ?_
    by_cases hx : x = operation <;> simp [hx]
  exact
    { operations := h.operations
      noted := by rw [herased, h.noted]
      once := h.once.erase operation
      fresh := fun x hx => h.fresh x (List.mem_of_mem_erase hx) }

theorem step {event : Event} {command' : BatchUpload} {out : List Observation} (h : Settled command)
    (hstep : command.step lib media event = some (command', out)) : Settled command' := by
  cases event with
  | execute next =>
    obtain ⟨-, rfl, -⟩ := BatchUpload.step_execute hstep
    have hexecuted : Settled { command with executed := true } := { h with }
    exact hexecuted.nextBatchTarget (fun _ => rfl) next
  | operation number event next =>
    obtain ⟨w, v, r, hw, hcallback, rfl, -⟩ := BatchUpload.step_operation hstep
    obtain ⟨hnumber, -⟩ := List.getElem?_eq_some_iff.mp hw
    have htracks := h.tracks hw
    have htracking : Tracking r.1 v.loop.pending r.2 :=
      World.tracking_callback htracks.tracked hcallback
    exact h.run hnumber ⟨(World.kind_callback hcallback).trans htracks.kind, htracking⟩
      ((World.concluding_callback htracks.kind htracks.tracked hcallback).imp_left Concluding.plain)
  | abortSignal =>
    obtain rfl := congrArg Prod.fst (Option.some.inj hstep)
    exact signal (fun op => (op.behaves_doAbort .operator).notes)
      (fun op => (op.apart_doAbort .operator).kept.kind)
      (fun op o ho => (op.modest_doAbort .operator o ho).2.2) h
  | terminateSignal =>
    obtain rfl := congrArg Prod.fst (Option.some.inj hstep)
    exact signal (fun op => op.notes_doTerminate .operator)
      (fun op => (op.apart_doTerminate .operator).kept.kind)
      (fun op => (op.concluding_doTerminate .operator).plain) h
  | fileCompleted operation status =>
    obtain ⟨hmem, rfl, -⟩ := BatchUpload.step_fileCompleted hstep
    exact (h.fileCompleted hmem).1

theorem ofBatch (batch : BatchInformation) (dlpTimeout : Nat) (portOption : Bool) :
    Settled (.ofBatch batch dlpTimeout portOption) where
  operations _ _ h := by cases h
  noted := rfl
  once := List.nodup_nil
  fresh := List.forall_mem_nil _

end Sound

end Arinc615a.Commands
