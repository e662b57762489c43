import Arinc615a.Host.Surroundings
import Arinc615a.Host.Versions

/-!
# Starting a host operation again

After an operation has finished, the next start resets only the flag of what has been sent, or of
the final status.  What decides whether the new run is the run of a new operation is whether the
start comes from inside a call of the handler, what is left in the members of the operation, and
which transfers, waits and handlers of the earlier run are still to come.
-/

open Reasoning

namespace Arinc615a.Host

open Files Information Tftp

namespace World

variable {lib : Library} {result : Operation.StartResult} {new w : World}
  {s s' : Suspended World Rest} {out : List Observation}

theorem step_event (lib : Library) (event : Event) {loop : EventLoop Transfer} {p : Part}
    (harrive : s.state.arrive event = some loop) (hpart : event.part lib s.state.operation = some p)
    (hfree : s.rests = [] ∨ event.nested = true) :
    (callSystem lib).step s (.event event) =
      some ((({ s.state with loop := loop }.reactPart p).suspend s.rests).1,
        event.opening ++ p.out.map .call) :=
  (Calls.Runs.event (c := calls lib) event _ (enter_of_parts harrive hpart) hfree).step_eq

theorem step_event_cases {event : Event}
    (h : (callSystem lib).step s (.event event) = some (s', out)) :
    ∃ loop p, s.state.arrive event = some loop ∧ event.part lib s.state.operation = some p ∧
      out = event.opening ++ p.out.map .call := by
  have hcalls : (calls lib).step s (.event event) = some (s', out) := h
  obtain ⟨part, rests, hruns, hsuspend⟩ := Calls.step_cases hcalls
  cases hsuspend
  cases hruns with
  | event _ part henter =>
    obtain ⟨loop, p, harrive, hpart, rfl⟩ := enter_eq_some henter
    exact ⟨loop, p, harrive, hpart, rfl⟩

theorem step_leave (lib : Library) {rest : Rest} {rests : List Rest} (hrests : s.rests = rest :: rests)
    (exit : Exit) :
    (callSystem lib).step s (.leave exit) =
      some (((s.state.reactPart (s.state.operation.leave lib rest exit)).suspend rests).1,
        (s.state.operation.leave lib rest exit).out.map .call) :=
  (Calls.Runs.leave (c := calls lib) exit rest rests hrests).step_eq

/-! ## The runs from a start -/

section

variable (lib : Library) (result : Operation.StartResult) (new : World) (s : Suspended World Rest)

/-- Whatever a new operation does behind its opening, this one does behind its own as well, with the
same calls. -/
def Mimics (opening opening' : List (CallEvent Event Exit)) : Prop :=
  ∀ es new' out, (callSystem lib).run { state := new } (opening ++ es) = some (new', out) →
    ∃ s', (callSystem lib).run s (opening' ++
        es.map (renameCall (Transfer.shift s.state.operation.nextStatusFileOperation))) =
      some (s', out.map (Observation.shift s.state.operation.nextStatusFileOperation))

/-- Whatever a new operation does from its start on, this one does as well, when the calls of the
handler from which it is started have been left, in whatever way. -/
def Repeats : Prop :=
  ∀ (exits : List Exit) s₁ out₁, (callSystem lib).run s (.event (.start result) :: exits.map .leave) =
      some (s₁, out₁) →
    s₁.rests = [] →
    Mimics lib new s [.event (.start result)] (.event (.start result) :: exits.map .leave)

/-- Whatever this one does from its start on, a new operation does as well, with the same calls. -/
def OnlyRepeats : Prop :=
  ∀ es s' out, (callSystem lib).run s (.event (.start result) :: es) = some (s', out) →
    ∃ new' out', (callSystem lib).run { state := new } (.event (.start result) ::
        es.flatMap (answer s.state.operation.nextStatusFileOperation)) = some (new', out') ∧
      out'.map (Observation.shift s.state.operation.nextStatusFileOperation) = out

end

def restart (w : World) (result : Operation.StartResult) : World :=
  (w.react fun op => op.start result).1

@[simp] theorem restart_operation (w : World) (result : Operation.StartResult) :
    (w.restart result).operation = (w.operation.start result).1 := rfl

theorem step_start (lib : Library) (s : Suspended World Rest) (result : Operation.StartResult) :
    (callSystem lib).step s (.event (.start result)) =
      some ({ s with state := s.state.restart result },
        .started :: (s.state.operation.start result).2.map .call) :=
  step_event lib (.start result) rfl rfl (.inr rfl)

theorem run_start (lib : Library) (s : Suspended World Rest) (result : Operation.StartResult)
    {es : List (CallEvent Event Exit)}
    (h : (callSystem lib).run { s with state := s.state.restart result } es = some (s', out)) :
    (callSystem lib).run s (.event (.start result) :: es) =
      some (s', .started :: (s.state.operation.start result).2.map .call ++ out) :=
  (callSystem lib).run_cons_of_step (step_start lib s result) h

theorem run_of_start {es : List (CallEvent Event Exit)}
    (h : (callSystem lib).run s (.event (.start result) :: es) = some (s', out)) :
    ∃ out', (callSystem lib).run { s with state := s.state.restart result } es = some (s', out') ∧
      out = .started :: (s.state.operation.start result).2.map .call ++ out' := by
  obtain ⟨t, o, o', hstep, hrest, rfl⟩ := (callSystem lib).run_cons h
  rw [step_start] at hstep
  cases hstep
  exact ⟨o', hrest, rfl⟩

theorem restart_server (w : World) (result : Operation.StartResult) :
    (w.restart result).serverRunning = (w.serverRunning || result ≠ .serverStartThrows) := by
  show (w.operation.start result).2.foldl Output.server w.serverRunning = _
  rw [Operation.start_eq]
  cases result with
  | started | serverStartThrows | requestThrows => simp [Operation.initialise, Output.server]

theorem restart_loop (w : World) (result : Operation.StartResult) :
    (w.restart result).loop =
      { w.loop with
        pending := (if result = .started then [.initialisation] else []) ++ w.loop.pending } := by
  show w.loop.performAll ((w.operation.start result).2.map Output.command) = _
  rw [Operation.start_eq]
  cases result with
  | started | serverStartThrows | requestThrows => rfl

/-- The operation is as good as a new one, as far as operations of its kind look at it. -/
structure Cleared (result : Operation.StartResult) (op : Operation) : Prop where
  abortReason : op.abortReason = .noAbort
  protocolVersion : op.kind ≠ .information → op.protocolVersion = .zero
  listFileOperation : op.kind = .information ∨ op.kind = .operatorDefinedDownload →
    op.listFileOperation = false
  /-- Otherwise it is set by the start. -/
  initialisationOperation : result = .serverStartThrows → op.initialisationOperation = false

/-- No transfer, wait or request of the earlier run can still come. -/
structure Silent (result : Operation.StartResult) (w : World) : Prop where
  pending : w.loop.pending = []
  waiting : ¬w.loop.Waiting
  /-- Otherwise it is started anyway. -/
  server : result = .serverStartThrows → w.serverRunning = false

/-- With no call to be left, nothing is left. -/
theorem exits_eq_nil {exits : List Exit} (hrests : s.rests = [])
    (h : (callSystem lib).run s (exits.map .leave) = some (s', out)) : exits = [] := by
  cases exits with
  | nil => rfl
  | cons exit exits =>
    obtain ⟨t, o, o', hstep, -⟩ := (callSystem lib).run_cons h
    have hcalls : (calls lib).step s (.leave exit) = some (t, o) := hstep
    obtain ⟨part, rests, hruns, -⟩ := Calls.step_cases hcalls
    cases hruns with
    | leave exit rest rests hrests' => simp [hrests] at hrests'

theorem Repeats.mimics (h : Repeats lib result new s) (hrests : s.rests = []) :
    Mimics lib new s [.event (.start result)] [.event (.start result)] :=
  h [] _ _ (run_start lib s result ((callSystem lib).run_nil _)) hrests

section

variable {kind : OperationType} {targetId : TargetId} {dlpTimeout : Nat} {portOption : Bool}

theorem alike_of_cleared (hcleared : Cleared result w.operation)
    (hconfigured : Configured (ofOperation kind targetId dlpTimeout portOption).operation
      w.operation)
    (htracked : Tracked w.operation w.loop.pending) :
    Alike w.operation.nextStatusFileOperation
      (ofOperation kind targetId dlpTimeout portOption).operation w.operation where
  kind := hconfigured.kind
  targetId := hconfigured.targetId
  dlpTimeout := hconfigured.dlpTimeout
  abortReason := hcleared.abortReason
  protocolVersion h := hcleared.protocolVersion (hconfigured.kind ▸ h)
  listFileOperation h := hcleared.listFileOperation (hconfigured.kind ▸ h)
  next := (Nat.zero_add _).symm
  counted id := by
    -- the numbers of the earlier run are smaller
    by_contra hcount
    have hfresh := htracked.fresh (id + w.operation.nextStatusFileOperation)
      (Nat.pos_of_ne_zero hcount)
    omega

theorem mirrors_of_cleared (hcleared : Cleared result w.operation)
    (hconfigured : Configured (ofOperation kind targetId dlpTimeout portOption).operation
      w.operation)
    (htracked : Tracked w.operation w.loop.pending) :
    MirrorsPart w.operation.nextStatusFileOperation
      ((ofOperation kind targetId dlpTimeout portOption).operation.start result).part
      (w.operation.start result).part :=
  .part ((alike_of_cleared hcleared hconfigured htracked).start hcleared.initialisationOperation)

theorem repeats_of_cleared (hrests : s.rests = []) (hcleared : Cleared result s.state.operation)
    (hconfigured : Configured (ofOperation kind targetId dlpTimeout portOption).operation
      s.state.operation)
    (htracked : Tracked s.state.operation s.state.loop.pending) :
    Repeats lib result (ofOperation kind targetId dlpTimeout portOption) s := by
  intro exits s₁ out₁ hexits _ es new' out hrun
  obtain ⟨out₁', hleaves, -⟩ := run_of_start hexits
  cases exits_eq_nil (s := { s with state := s.state.restart result }) hrests hleaves
  obtain ⟨out', hrest, rfl⟩ := run_of_start hrun
  have hmirrors := mirrors_of_cleared hcleared hconfigured htracked
  have hahead : Ahead s.state.operation.nextStatusFileOperation
      { state := (ofOperation kind targetId dlpTimeout portOption).restart result }
      { s with state := s.state.restart result } := by
    rw [hrests]
    exact .react _ s.state [] hmirrors (fun hruns => nomatch hruns)
      ⟨by simp [ofOperation], by simp [ofOperation], by simp [ofOperation]⟩ (by simp)
  obtain ⟨s', out'', hrun', hview, -⟩ :=
    (ahead_simulation lib s.state.operation.nextStatusFileOperation).run hahead hrest
  rw [List.map_id] at hview
  rw [← List.map_eq_flatMap, hview] at hrun'
  refine ⟨s', (run_start lib s result hrun').trans ?_⟩
  have hcalls : (s.state.operation.start result).2 = _ := hmirrors.reaction.calls
  rw [hcalls]
  simp [Observation.shift, Function.comp_def, Part.reaction, Reaction.part]

theorem onlyRepeats_of_cleared (hrests : s.rests = []) (hcleared : Cleared result s.state.operation)
    (hconfigured : Configured (ofOperation kind targetId dlpTimeout portOption).operation
      s.state.operation)
    (htracked : Tracked s.state.operation s.state.loop.pending) (hsilent : Silent result s.state) :
    OnlyRepeats lib result (ofOperation kind targetId dlpTimeout portOption) s := by
  intro es s' out hrun
  obtain ⟨out', hrest, rfl⟩ := run_of_start hrun
  have hmirrors := mirrors_of_cleared hcleared hconfigured htracked
  have hwaiting := hsilent.waiting
  unfold EventLoop.Waiting at hwaiting
  push Not at hwaiting
  obtain ⟨harmed, hexpired, herror⟩ := hwaiting
  have hcovers : EventLoop.Covers (Transfer.unshift s.state.operation.nextStatusFileOperation)
      (· ≠ .operationAborted) s.state.loop
      (ofOperation kind targetId dlpTimeout portOption).loop := by
    refine ⟨fun h => absurd h harmed, fun result hcounts => ?_, by simp [hsilent.pending]⟩
    cases result with
    | expired => exact (List.count_eq_zero_of_not_mem hexpired).le
    | error => exact (List.count_eq_zero_of_not_mem herror).le
    | operationAborted => exact absurd rfl hcounts
  -- a server that runs from the earlier run is one that the start would start
  have hserver : (s.state.restart result).serverRunning = true →
      ((ofOperation kind targetId dlpTimeout portOption).restart result).serverRunning = true := by
    rw [restart_server, restart_server]
    by_cases hthrows : result = .serverStartThrows
    · simp [hsilent.server hthrows, hthrows]
    · simp [hthrows]
  have hlevel : Level s.state.operation.nextStatusFileOperation
      { s with state := s.state.restart result }
      { state := (ofOperation kind targetId dlpTimeout portOption).restart result } := by
    rw [hrests]
    have hreact := Level.react { s.state with serverRunning := false }
      (ofOperation kind targetId dlpTimeout portOption) [] hmirrors id hcovers
      (by simp [hsilent.pending]) (by simp)
    exact ⟨hreact.operation, hserver, hreact.loop, hreact.own, hreact.rests, hreact.fits⟩
  obtain ⟨new', out'', hrun', hview, -⟩ :=
    (level_simulation lib s.state.operation.nextStatusFileOperation).run hlevel hrest
  rw [List.map_id] at hview
  refine ⟨new', _, run_start lib _ result hrun', ?_⟩
  have hcalls : (s.state.operation.start result).2 = _ := hmirrors.reaction.calls
  rw [hcalls, ← hview]
  simp [Observation.shift, Function.comp_def, Part.reaction, Reaction.part]

end

/-! ## What tells the operations apart -/

section

variable {opening opening' : List (CallEvent Event Exit)} {new₁ s₁ : Suspended World Rest}
  {out₁ out₁' : List Observation}

/-- After the same events behind the opening, the operations make the same calls. -/
theorem Mimics.calls (h : Mimics lib new s opening opening') (pre : List (CallEvent Event Exit))
    (event : Event)
    (hnew : (callSystem lib).run { state := new } (opening ++ pre) = some (new₁, out₁))
    (hs : (callSystem lib).run s (opening' ++
        pre.map (renameCall (Transfer.shift s.state.operation.nextStatusFileOperation))) =
      some (s₁, out₁'))
    {loop : EventLoop Transfer} {p p' : Part} (harrive : new₁.state.arrive event = some loop)
    (hfree : new₁.rests = [] ∨ event.nested = true)
    (hpart : event.part lib new₁.state.operation = some p)
    (hpart' : (event.rename (Transfer.shift s.state.operation.nextStatusFileOperation)).part lib
      s₁.state.operation = some p') :
    p'.out = p.out.map (Output.shift s.state.operation.nextStatusFileOperation) := by
  have hstep := (callSystem lib).run_cons_of_step (step_event lib event harrive hpart hfree)
    ((callSystem lib).run_nil _)
  obtain ⟨t₁, ht₁⟩ := h pre new₁ out₁ hnew
  rw [ht₁] at hs
  cases hs
  have hlonger := (callSystem lib).run_append hnew hstep
  rw [List.append_assoc] at hlonger
  obtain ⟨t₂, ht₂⟩ := h (pre ++ [.event event]) _ _ hlonger
  rw [List.map_append, ← List.append_assoc] at ht₂
  obtain ⟨out₂, hlast, hout⟩ := (callSystem lib).run_of_append ht₁ ht₂
  rw [List.map_append] at hout
  have hsame := List.append_cancel_left hout
  obtain ⟨t, o, o', hstep', hrest, heq⟩ := (callSystem lib).run_cons hlast
  cases hrest
  dsimp only at heq
  obtain ⟨loop', p'', -, hpart'', rfl⟩ := step_event_cases hstep'
  rw [hpart'] at hpart''
  cases hpart''
  -- both come behind what is seen of the event itself
  have hcalls : p'.out.map Observation.call =
      (p.out.map (Output.shift s.state.operation.nextStatusFileOperation)).map
        Observation.call := by
    rw [heq, event.opening_rename _ s.state.operation.nextStatusFileOperation] at hsame
    simpa [Observation.shift, Function.comp_def] using hsame.symm
  exact List.map_injective_iff.mpr (fun _ _ h => Observation.call.inj h) hcalls

/-- A second start shows a pending abort. -/
theorem Mimics.abortReason (h : Mimics lib new s [.event (.start result)] opening')
    (hs : (callSystem lib).run s opening' = some (s₁, out₁))
    (hnew : new.operation.abortReason = .noAbort) : s₁.state.operation.abortReason = .noAbort := by
  have hrun := (callSystem lib).run_append hs
    (run_start lib s₁ .started ((callSystem lib).run_nil _))
  have hcalls := h.calls [.event (.start .started)] (.abort .operator)
    (run_start lib { state := new } result (run_start lib _ .started rfl)) hrun rfl (.inr rfl)
    rfl rfl
  have habort : ((s₁.state.restart .started).operation.doAbort .operator).2 =
      (((new.restart result).restart .started).operation.doAbort .operator).2.map _ := hcalls
  rw [Operation.doAbort_calls, Operation.doAbort_calls] at habort
  by_contra hpending
  simp [hnew, hpending] at habort

theorem leave_otherException (op : Operation) (rest : Rest) :
    op.leave lib rest .otherException = { state := op, out := [] } := by
  cases rest with
  | finished guard => cases guard <;> rfl
  | _ => rfl

/-- Only behind `downloadingList` there is nothing left when it returns. -/
theorem leave_returned {op : Operation} {rest : Rest}
    (h : (op.leave lib rest .returned).out = []) : rest = .downloadingList := by
  cases rest with
  | downloadingList => rfl
  | initialisationResponse initFile =>
    have hout : (op.initialisationAnsweredPart initFile).out = [] := h
    unfold Operation.initialisationAnsweredPart at hout
    cases hcode : initFile.response.code <;> rw [hcode] at hout <;> cases hout
  | status status =>
    have hout : (op.statusReceivedPart status).out = [] := h
    unfold Operation.statusReceivedPart at hout
    cases hcode : status.code <;> rw [hcode] at hout <;> cases hout
  | targetInformation =>
    have hout : op.targetInformationPart.out = [] := h
    unfold Operation.targetInformationPart at hout
    split at hout <;> cases hout
  | finished guard => cases h
  | unknownStatus status data => cases h

/-- Calls that are left by exceptions of other kinds are followed by nothing. -/
theorem run_otherException (w : World) (rests : List Rest) :
    (callSystem lib).run { state := w, rests }
        ((List.replicate rests.length Exit.otherException).map .leave) =
      some ({ state := w }, []) := by
  induction rests with
  | nil => rfl
  | cons rest rests ih =>
    have hstep : (callSystem lib).step { state := w, rests := rest :: rests }
        (.leave .otherException) = some ({ state := w, rests }, []) := by
      rw [step_leave lib rfl, leave_otherException]
      rfl
    exact (callSystem lib).run_cons_of_step hstep ih

end

/-- An operation that is started from inside a call goes on behind it, and a new one does not. -/
theorem rests_of_repeats (h : Repeats lib result new s)
    (hnew : new.operation.abortReason = .noAbort) : s.rests = [] := by
  cases hrests : s.rests with
  | nil => rfl
  | cons rest rests =>
    -- the innermost call is left somehow, and the others are left to end at once
    have hleaves : ∀ exit, ∃ exits : List Exit, ∃ s₁,
        (callSystem lib).run s (.event (.start result) :: exits.map .leave) =
          some (s₁, .started :: (s.state.operation.start result).2.map .call ++
            ((s.state.operation.start result).1.leave lib rest exit).out.map .call) ∧
        s₁.rests = [] ∧
        s₁.state.operation = ((s.state.operation.start result).1.leave lib rest exit).state := by
      intro exit
      have hstep := step_leave lib (s := { s with state := s.state.restart result }) hrests exit
      have hrun := run_start lib s result ((callSystem lib).run_cons_of_step hstep
        (run_otherException _ _))
      rw [List.append_nil] at hrun
      exact ⟨exit :: List.replicate _ .otherException, _, hrun, rfl, rfl⟩
    have hsilent : ∀ exit, ((s.state.operation.start result).1.leave lib rest exit).out = [] := by
      intro exit
      obtain ⟨exits, s₁, hrun, hdone, -⟩ := hleaves exit
      obtain ⟨t, ht⟩ := h exits s₁ _ hrun hdone [] _ _
        (run_start lib { state := new } result ((callSystem lib).run_nil _))
      rw [List.map_nil, List.append_nil, hrun] at ht
      have hlength := congrArg (List.length ∘ Prod.snd) (Option.some.inj ht)
      have hstart : (new.operation.start result).2.length =
          (s.state.operation.start result).2.length := by
        rw [Operation.start_eq, Operation.start_eq]
        cases result <;> rfl
      simp [hstart] at hlength
      exact hlength
    obtain rfl := leave_returned (hsilent .returned)
    -- an abort by the operation itself is silent only when one is pending already
    obtain ⟨exits, s₁, hrun, hdone, hoperation⟩ := hleaves .arinc615aException
    have hpending := (h exits s₁ _ hrun hdone).abortReason hrun hnew
    rw [hoperation] at hpending
    have hnoted : ((s.state.operation.start result).1.doAbort .protocol).1.abortReason ≠
        .noAbort := by
      rw [(Operation.unanswering_doAbort _ _).reason, AbortReason.orElse]
      split
      · decide
      · assumption
    exact absurd hpending hnoted

section

variable (h : Mimics lib new s [.event (.start result)] [.event (.start result)])

include h

theorem abortReason_of_mimics (hnew : new.operation.abortReason = .noAbort) :
    s.state.operation.abortReason = .noAbort := by
  have hstarted := h.abortReason (run_start lib s result ((callSystem lib).run_nil _)) hnew
  simpa using hstarted

theorem initialisation_of_mimics (hthrows : result = .serverStartThrows)
    (hnew : new.operation.initialisationOperation = false)
    (habort : new.operation.abortReason = .noAbort) :
    s.state.operation.initialisationOperation = false := by
  subst hthrows
  have hcalls := h.calls [] (.abort .operator)
    (run_start lib { state := new } .serverStartThrows rfl)
    (run_start lib s .serverStartThrows rfl) rfl (.inr rfl) rfl rfl
  have habort' := abortReason_of_mimics h habort
  have hsilent : ((s.state.restart .serverStartThrows).operation.doAbort .operator).2 =
      ((new.restart .serverStartThrows).operation.doAbort .operator).2.map _ := hcalls
  rw [Operation.doAbort_calls, Operation.doAbort_calls] at hsilent
  by_contra hinitialisation
  simp [hnew, habort', hinitialisation] at hsilent

theorem listFileOperation_of_mimics (hkinds : s.state.operation.kind = new.operation.kind)
    (hkind : s.state.operation.kind = .information ∨
      s.state.operation.kind = .operatorDefinedDownload)
    (hnew : new.operation.listFileOperation = false) :
    s.state.operation.listFileOperation = false := by
  obtain ⟨filename, hlist⟩ := Operation.listRequest_calls hkind
  have hcalls := h.calls [.event (.start .started)] (.tftpRequest ⟨0, 0⟩ .write filename {})
    (run_start lib { state := new } result (run_start lib _ .started rfl))
    (run_start lib s result (run_start lib _ .started rfl))
    (if_pos (by simp [restart_server])) (.inl rfl) rfl rfl
  have hrequest : (((s.state.restart result).restart .started).operation.tftpRequest ⟨0, 0⟩ .write
      filename {}).2 = ((((new.restart result).restart .started).operation.tftpRequest ⟨0, 0⟩ .write
        filename {}).2).map _ := hcalls
  rw [hlist _ (by simp), hlist _ (by simp [hkinds])] at hrequest
  cases hstored : s.state.operation.listFileOperation with
  | false => rfl
  -- the transfer that is held is aborted first
  | true => simp [hnew, hstored] at hrequest

theorem protocolVersion_of_mimics (hkinds : s.state.operation.kind = new.operation.kind)
    (hkind : s.state.operation.kind ≠ .information) :
    s.state.operation.protocolVersion = new.operation.protocolVersion := by
  obtain ⟨request, htransmits⟩ := Operation.exists_transmitted lib hkind
  have htransmit : ∀ v : World, v.operation.kind = s.state.operation.kind →
      ∃ fileType filename file, (Event.send request).part lib
          ((v.restart result).restart .started).operation =
        some (Reaction.part (((v.restart result).restart .started).operation,
          [.transmitFile fileType filename file, .transferStart .request])) ∧
        HasHeader lib.raw v.operation.protocolVersion file := by
    intro v hv
    obtain ⟨fileType, filename, file, hsend⟩ :=
      htransmits ((v.restart result).restart .started).operation (by simp [hv])
        (by simp [hv, hkind])
    have hheader := Operation.send_hasHeader hsend (List.mem_cons_self ..)
    refine ⟨fileType, filename, file, ?_, by simpa using hheader⟩
    rw [Event.part, Operation.sendReaction, hsend]
    rfl
  obtain ⟨fileType₁, filename₁, file₁, hpart₁, hheader₁⟩ := htransmit s.state rfl
  obtain ⟨fileType₂, filename₂, file₂, hpart₂, hheader₂⟩ := htransmit new hkinds.symm
  have hcalls := h.calls [.event (.start .started)] (.send request)
    (run_start lib { state := new } result (run_start lib _ .started rfl))
    (run_start lib s result (run_start lib _ .started rfl)) rfl (.inr rfl) hpart₂ hpart₁
  obtain ⟨htransmitted, -⟩ := List.cons.inj hcalls
  obtain ⟨-, -, rfl⟩ := Output.transmitFile.inj htransmitted
  exact hheader₁.version_unique hheader₂

end

theorem cleared_of_repeats (h : Repeats lib result new s)
    (hkinds : s.state.operation.kind = new.operation.kind) (hnew : Cleared result new.operation) :
    Cleared result s.state.operation := by
  have hmimics := h.mimics (rests_of_repeats h hnew.abortReason)
  exact {
    abortReason := abortReason_of_mimics hmimics hnew.abortReason
    protocolVersion := fun hkind => (protocolVersion_of_mimics hmimics hkinds hkind).trans
      (hnew.protocolVersion (hkinds ▸ hkind))
    listFileOperation := fun hkind => listFileOperation_of_mimics hmimics hkinds hkind
      (hnew.listFileOperation (hkinds ▸ hkind))
    initialisationOperation := fun hthrows => initialisation_of_mimics hmimics hthrows
      (hnew.initialisationOperation hthrows) hnew.abortReason }

section

variable {new₁ s₁ : Suspended World Rest} {out₁ out₁' : List Observation}

/-- An event that may happen to the one operation may happen to the other one. -/
theorem OnlyRepeats.arrive (h : OnlyRepeats lib result new s) (pre : List (CallEvent Event Exit))
    (event : Event)
    (hs : (callSystem lib).run s (.event (.start result) :: pre) = some (s₁, out₁))
    (hnew : (callSystem lib).run { state := new } (.event (.start result) ::
        pre.flatMap (answer s.state.operation.nextStatusFileOperation)) = some (new₁, out₁'))
    (hrests : s₁.rests = []) {loop : EventLoop Transfer} {p : Part}
    (hevent : event ≠ .timerHandler .operationAborted)
    (harrive : s₁.state.arrive event = some loop)
    (hpart : event.part lib s₁.state.operation = some p) :
    ∃ loop', new₁.state.arrive
      (event.rename (Transfer.unshift s.state.operation.nextStatusFileOperation)) = some loop' := by
  have hstep := (callSystem lib).run_cons_of_step (step_event lib event harrive hpart (.inl hrests))
    ((callSystem lib).run_nil _)
  have hlonger := (callSystem lib).run_append hs hstep
  rw [List.cons_append] at hlonger
  obtain ⟨new₂, out₂, hnew₂, -⟩ := h (pre ++ [.event event]) _ _ hlonger
  rw [List.flatMap_append, ← List.cons_append] at hnew₂
  obtain ⟨out₃, hlast, -⟩ := (callSystem lib).run_of_append hnew hnew₂
  have hanswer : answer s.state.operation.nextStatusFileOperation (.event event) =
      [.event (event.rename
        (Transfer.unshift s.state.operation.nextStatusFileOperation))] :=
    if_neg fun heq => hevent (CallEvent.event.inj heq)
  rw [List.flatMap_singleton, hanswer] at hlast
  obtain ⟨t, o, o', hstep', -⟩ := (callSystem lib).run_cons hlast
  obtain ⟨loop', -, harrive', -⟩ := step_event_cases hstep'
  exact ⟨loop', harrive'⟩

/-- The end of an initialisation that has failed starts nothing. -/
theorem run_failed (lib : Library) {t : Suspended World Rest} (hrests : t.rests = [])
    (h : .initialisation ∈ t.state.loop.pending) :
    ∃ t' out, (callSystem lib).run t [.event (.completed .initialisation .aborted []),
        .leave .otherException] = some (t', out) ∧
      t'.rests = [] ∧
      ∀ transfer, transfer ∈ t'.state.loop.pending ↔
        transfer ∈ t.state.loop.pending.erase .initialisation := by
  have hstep := step_event lib (s := t) (.completed .initialisation .aborted []) (if_pos h) rfl
    (.inl hrests)
  rw [hrests] at hstep
  refine ⟨_, _, (callSystem lib).run_cons_of_step hstep
    (run_otherException _ [.finished .unguarded]), rfl, fun transfer => ?_⟩
  refine (EventLoop.mem_pending_performAll _ _ transfer).trans (or_iff_left fun hlaunch => ?_)
  obtain ⟨o, ho, hcommand⟩ := List.mem_map.mp hlaunch
  cases List.mem_singleton.mp ho
  cases hcommand

end

section

variable (h : OnlyRepeats lib result new s)

include h

/-- What may happen right behind the start. -/
theorem arrive_of_onlyRepeats (hrests : s.rests = []) (event : Event) {loop : EventLoop Transfer}
    {p : Part} (hevent : event ≠ .timerHandler .operationAborted)
    (harrive : (s.state.restart result).arrive event = some loop)
    (hpart : event.part lib (s.state.restart result).operation = some p) :
    ∃ loop', (new.restart result).arrive
      (event.rename (Transfer.unshift s.state.operation.nextStatusFileOperation)) = some loop' :=
  h.arrive [] event (run_start lib s result rfl) (run_start lib { state := new } result rfl)
    hrests hevent harrive hpart

/-- A server that runs is seen when the start does not start one. -/
theorem server_of_onlyRepeats (hrests : s.rests = []) (hthrows : result = .serverStartThrows)
    (hnew : new.serverRunning = false) : s.state.serverRunning = false := by
  by_contra hruns
  obtain ⟨loop', harrive⟩ := arrive_of_onlyRepeats h hrests
    (.tftpRequest ⟨0, 0⟩ .write [] {}) (by simp)
    (if_pos (by simpa [restart_server, hthrows] using hruns)) rfl
  obtain ⟨hrunning, -⟩ := Option.ite_none_right_eq_some.mp harrive
  simp [restart_server, hthrows, hnew] at hrunning

/-- A second initialisation cannot end behind the one that has been started. -/
theorem initialisation_of_onlyRepeats (hrests : s.rests = []) (hstarted : result = .started)
    (hnew : new.loop.pending = []) : .initialisation ∉ s.state.loop.pending := by
  intro hmem
  subst hstarted
  have hloop := restart_loop s.state .started
  have hloop' := restart_loop new .started
  rw [hnew] at hloop'
  have hfirst : .initialisation ∈ (s.state.restart .started).loop.pending := by simp [hloop]
  have hnewFirst : .initialisation ∈ (new.restart .started).loop.pending := by simp [hloop']
  obtain ⟨s₁, out₁, hs₁, hdone, hpending⟩ :=
    run_failed lib (t := { s with state := s.state.restart .started }) hrests hfirst
  obtain ⟨new₁, out₁', hnew₁, -, hnewPending⟩ :=
    run_failed lib (t := { state := new.restart .started }) rfl hnewFirst
  have hagain : .initialisation ∈ s₁.state.loop.pending := by
    rw [hpending, hloop]
    simpa using hmem
  obtain ⟨loop', hcomplete⟩ := h.arrive _ (.completed .initialisation .aborted [])
    (run_start lib s .started hs₁) (run_start lib { state := new } .started hnew₁) hdone (by simp)
    (if_pos hagain) rfl
  obtain ⟨hnewAgain, -⟩ := EventLoop.complete_eq_some hcomplete
  have hnever := (hnewPending .initialisation).mp hnewAgain
  simp [hloop'] at hnever

/-- No transfer of the earlier run may still end if only what happens to a new operation does. -/
theorem pending_of_onlyRepeats (hrests : s.rests = []) (hnew : new.loop.pending = []) :
    s.state.loop.pending = [] := by
  have hloop := restart_loop s.state result
  have hloop' := restart_loop new result
  rw [hnew] at hloop'
  refine List.eq_nil_iff_forall_not_mem.mpr fun transfer hmem => ?_
  have hmem' : transfer ∈ (s.state.restart result).loop.pending := by
    rw [hloop]
    exact List.mem_append_right _ hmem
  obtain ⟨loop', hcomplete⟩ :=
    arrive_of_onlyRepeats h hrests (.completed transfer .aborted []) (by simp)
      (if_pos hmem') (Option.get_mem (by cases transfer <;> rfl))
  obtain ⟨hnewMem, -⟩ := EventLoop.complete_eq_some hcomplete
  rw [hloop'] at hnewMem
  -- a new operation has nothing but its initialisation under way
  split at hnewMem
  case isTrue hstarted =>
    cases transfer with
    | initialisation => exact initialisation_of_onlyRepeats h hrests hstarted hnew hmem
    | status | list | request => simp [Transfer.unshift] at hnewMem
  case isFalse => cases hnewMem

/-- Nor may its timer. -/
theorem not_waiting_of_onlyRepeats (hrests : s.rests = []) (hnew : new.loop = {}) :
    ¬s.state.loop.Waiting := by
  have hloop := restart_loop s.state result
  have hloop' := restart_loop new result
  rw [hnew] at hloop'
  have hqueue : ∀ timer : WaitResult, timer ≠ .operationAborted →
      timer ∉ s.state.loop.queue := by
    intro timer htimer hmem
    have hmem' : timer ∈ (s.state.restart result).loop.queue := by rwa [hloop]
    obtain ⟨loop', harrive⟩ := arrive_of_onlyRepeats h hrests (.timerHandler timer)
      (by simp [htimer]) (if_pos hmem') rfl
    have htake : (new.restart result).loop.take timer = some loop' := harrive
    rw [hloop'] at htake
    cases htake
  rintro (harmed | hqueued | hqueued)
  · have harmed' : ((s.state.restart result).loop.armed &&
        WaitResult.expired ≠ .operationAborted) = true := by
      simp [hloop, harmed]
    obtain ⟨loop', harrive⟩ := arrive_of_onlyRepeats h hrests (.timerElapses .expired)
      (by simp) (if_pos harmed') rfl
    have helapse : (new.restart result).loop.elapse .expired = some loop' := harrive
    rw [hloop'] at helapse
    cases helapse
  · exact hqueue .expired (by decide) hqueued
  · exact hqueue .error (by decide) hqueued

end

theorem configured_run {w : World} {events : List (CallEvent Event Exit)}
    (hrun : (callSystem lib).run { state := w } events = some (s, out)) :
    Configured w.operation s.state.operation := by
  refine Calls.run_invariant (fun v => Configured w.operation v.operation) ?_ ?_
    (.refl w.operation) hrun
  · intro v event part hv henter
    obtain ⟨loop, p, -, hpart, rfl⟩ := enter_eq_some henter
    exact hv.trans (Event.configured_part hpart)
  · intro v rest exit hv
    exact hv.trans (v.operation.configured_leave lib rest exit)

end World

open World

/-- Of every operation, whatever has happened to it, and whether it has finished or not: the next
start and all that comes behind it make the same calls as those of a new operation, exactly when it
is not started from inside a call of the handler, no abort is pending, no list transfer is held, and,
unless it is an information operation, no version has been stored; when the server cannot be started,
no initialisation may be held either.  Nothing else can happen to it than to a new operation exactly
when, besides, no transfer is under way, no timer or handler of a timer is left, and no server runs
that the start cannot start. -/
theorem hostOperation_restart_iff (lib : Library) {kind : OperationType} {targetId : TargetId}
    {dlpTimeout : Nat} {portOption : Bool} {history : List (CallEvent Event Exit)}
    {s : Suspended World Rest} {before : List Observation}
    (hreached : (callSystem lib).run
      { state := ofOperation kind targetId dlpTimeout portOption } history = some (s, before))
    (result : Operation.StartResult) :
    (Repeats lib result (ofOperation kind targetId dlpTimeout portOption) s ↔
        s.rests = [] ∧ Cleared result s.state.operation) ∧
      (Repeats lib result (ofOperation kind targetId dlpTimeout portOption) s ∧
          OnlyRepeats lib result (ofOperation kind targetId dlpTimeout portOption) s ↔
        s.rests = [] ∧ Cleared result s.state.operation ∧ Silent result s.state) := by
  -- the notes and the configuration are known from the run up to here
  have htracked := tracked_run hreached
  have hconfigured := configured_run hreached
  have hnew : Cleared result (ofOperation kind targetId dlpTimeout portOption).operation :=
    ⟨rfl, fun _ => rfl, fun _ => rfl, fun _ => rfl⟩
  have hcleared : Repeats lib result (ofOperation kind targetId dlpTimeout portOption) s ↔
      s.rests = [] ∧ Cleared result s.state.operation :=
    ⟨fun h => ⟨rests_of_repeats h hnew.abortReason,
        cleared_of_repeats h hconfigured.kind hnew⟩,
      fun ⟨hrests, h⟩ => repeats_of_cleared hrests h hconfigured htracked⟩
  refine ⟨hcleared, fun ⟨hrepeats, honly⟩ => ?_, fun ⟨hrests, h, hsilent⟩ => ?_⟩
  · obtain ⟨hrests, h⟩ := hcleared.mp hrepeats
    exact ⟨hrests, h, pending_of_onlyRepeats honly hrests rfl,
      not_waiting_of_onlyRepeats honly hrests rfl,
      fun hthrows => server_of_onlyRepeats honly hrests hthrows rfl⟩
  · exact ⟨hcleared.mpr ⟨hrests, h⟩,
      onlyRepeats_of_cleared hrests h hconfigured htracked hsilent⟩

/-- An upload that is terminated while it is being initialised, and whose initialisation then
reports that it was aborted: nothing is left over for the next run. -/
theorem hostOperation_restart_terminated :
    let lib : Library := { raw := .bigEndian, generateCheckValue := fun _ _ => {} }
    let new : World := ofOperation .upload (.ofText (text "ABCD_1")) 10 false
    ∃ s before,
      (callSystem lib).run { state := new }
          [.event (.start .started), .event (.terminate .operator), .leave .returned,
            .event (.completed .initialisation .aborted []), .leave .returned] =
        some (s, before) ∧
      Mark.Closed Observation.mark before ∧
      Repeats lib .started new s ∧ OnlyRepeats lib .started new s := by
  intro lib new
  have hreached : (callSystem lib).run { state := new }
      [.event (.start .started), .event (.terminate .operator), .leave .returned,
        .event (.completed .initialisation .aborted []), .leave .returned] =
      some (_, _) := rfl
  refine ⟨_, _, hreached, (Mark.closed_iff Observation.mark _).mpr rfl,
    (hostOperation_restart_iff lib hreached .started).2.mpr ⟨rfl, ?_, ?_⟩⟩
  · exact ⟨rfl, fun _ => rfl, fun _ => rfl, nofun⟩
  · exact ⟨rfl, by decide, nofun⟩

/-- The operator aborts an upload before it is accepted.  The operation is finished, and started
again; its first status file is answered with the abort of the earlier run. -/
theorem hostUpload_restart_aborted :
    ∃ s before,
      (callSystem { raw := .bigEndian, generateCheckValue := fun _ _ => {} }).run
          { state := ofOperation .upload (.ofText (text "ABCD_1")) 10 false }
          [.event (.start .started), .event (.abort .operator),
            .event (.completed .initialisation .aborted []), .leave .returned] =
        some (s, before) ∧
      Mark.Closed Observation.mark before ∧
      (∃ new' out, (callSystem { raw := .bigEndian, generateCheckValue := fun _ _ => {} }).run
          { state := ofOperation .upload (.ofText (text "ABCD_1")) 10 false }
          [.event (.start .started),
            .event (.tftpRequest ⟨1, 2⟩ .write (text "ABCD_1.LUS") {})] =
        some (new', out) ∧ .call (.transferStart (.status 0)) ∈ out) ∧
      (∃ s' out, (callSystem { raw := .bigEndian, generateCheckValue := fun _ _ => {} }).run s
          [.event (.start .started),
            .event (.tftpRequest ⟨1, 2⟩ .write (text "ABCD_1.LUS") {})] =
        some (s', out) ∧ .call (.abortOperation ⟨1, 2⟩ .operationAbortedByOperator) ∈ out) ∧
      ¬Repeats { raw := .bigEndian, generateCheckValue := fun _ _ => {} } .started
        (ofOperation .upload (.ofText (text "ABCD_1")) 10 false) s := by
  refine ⟨_, _, rfl, (Mark.closed_iff Observation.mark _).mpr rfl, ⟨_, _, rfl, by decide⟩,
    ⟨_, _, rfl, by decide⟩, fun h => ?_⟩
  exact absurd (abortReason_of_mimics (h.mimics rfl) rfl) (by decide)

end Arinc615a.Host
