import Arinc615a.Host.Finish

/-!
# The callbacks of a host operation, call by call

A step of the world runs a callback and performs the calls it makes.  Here the two are taken apart,
for users of an operation that go on from inside its calls.  Behind `finished` an operation makes
no call but those that cancel the timer and stop the server.
-/

open Reasoning

namespace Arinc615a.Host

open Files Information Tftp

namespace World

variable {lib : Library} {w : World}

/-- Performs one call. -/
def perform (w : World) (o : Output) : World :=
  { w with serverRunning := o.server w.serverRunning, loop := w.loop.perform o.command }

/-- The handler that an event of the surroundings runs, before its calls are performed. -/
def callback (lib : Library) (w : World) : Event → Option (World × Reaction)
  | .tftpRequest remote requestType filename options =>
    if w.serverRunning then some (w, w.operation.tftpRequest remote requestType filename options)
    else none
  | .deferred waitTime =>
    if .initialisation ∈ w.loop.pending then
      some (w, w.operation.initialisationFileDeferred waitTime)
    else none
  | .completed transfer status data =>
    (w.loop.complete transfer).map fun loop =>
      ({ w with loop := loop }, complete lib transfer status data w.operation)
  | .timerElapses result =>
    (w.loop.elapse result).map fun loop => ({ w with loop := loop }, (w.operation, []))
  | .timerHandler result =>
    (w.loop.take result).map fun loop => ({ w with loop := loop }, w.operation.timerHandler result)
  -- calls of the user
  | _ => none

theorem foldl_perform (out : List Output) :
    out.foldl perform w =
      { w with
        serverRunning := out.foldl Output.server w.serverRunning
        loop := w.loop.performAll (out.map Output.command) } := by
  induction out generalizing w with
  | nil => rfl
  | cons o out ih => rw [List.foldl_cons, ih]; rfl

theorem runs_of_callback {event : Event} {v : World} {r : Reaction}
    (h : w.callback lib event = some (v, r)) : Runs lib w event v r := by
  cases event with
  | start | abort | terminate | send => cases h
  | tftpRequest remote requestType filename options =>
    simp only [callback] at h
    split at h
    case isTrue hrunning =>
      cases h
      exact .tftpRequest remote requestType filename options hrunning
    case isFalse => cases h
  | deferred waitTime =>
    simp only [callback] at h
    split at h
    case isTrue hpending =>
      cases h
      exact .deferred waitTime hpending
    case isFalse => cases h
  | completed transfer status data =>
    obtain ⟨loop, hloop, h⟩ := Option.map_eq_some_iff.mp h
    cases h
    exact .completed transfer status data loop hloop
  | timerElapses result =>
    obtain ⟨loop, hloop, h⟩ := Option.map_eq_some_iff.mp h
    cases h
    exact .timerElapses result loop hloop
  | timerHandler result =>
    obtain ⟨loop, hloop, h⟩ := Option.map_eq_some_iff.mp h
    cases h
    exact .timerHandler result loop hloop

/-- A step is a callback whose calls are performed one by one. -/
theorem step_of_callback {event : Event} {v : World} {r : Reaction}
    (h : w.callback lib event = some (v, r)) :
    w.step lib event = some (r.2.foldl perform { v with operation := r.1 }, r.2.map .call) := by
  rw [foldl_perform]
  exact (runs_of_callback h).step_eq

end World

/-! ## The end of an operation -/

/-- Calls that neither finish the operation, nor start a status file transfer. -/
def Output.Modest (o : Output) : Prop := o.mark ≠ .finish ∧ o ≠ .serverStop ∧ o.plain = true

def Modest (out : List Output) : Prop := ∀ o ∈ out, o.Modest

/-- `finished` comes last, with the two calls that belong to it. -/
def Concluding (out : List Output) : Prop :=
  Modest out ∨ ∃ pre code description,
    Modest pre ∧ out = pre ++ [.finished code description, .timerCancel, .serverStop]

namespace Modest

variable {out out' : List Output}

theorem nil : Modest [] := List.forall_mem_nil _

theorem single {o : Output} (h : o.Modest) : Modest [o] := List.forall_mem_singleton.mpr h

theorem append (h : Modest out) (h' : Concluding out') : Concluding (out ++ out') := by
  rcases h' with h' | ⟨pre, code, description, hpre, rfl⟩
  · exact .inl (List.forall_mem_append.mpr ⟨h, h'⟩)
  · exact .inr ⟨out ++ pre, code, description, List.forall_mem_append.mpr ⟨h, hpre⟩,
      (List.append_assoc ..).symm⟩

end Modest

namespace Operation

variable (lib : Library) (op : Operation)

theorem concluding_finished (status : StatusCode) (description : Text) :
    Concluding (op.finished status description).2 :=
  .inr ⟨[], status, description, .nil, rfl⟩

theorem modest_triggerDlpTimeout (exceptionTime : Nat) :
    Modest (op.triggerDlpTimeout exceptionTime).2 :=
  .single (by simp [Output.Modest, Output.mark, Output.plain])

theorem modest_abortInitialisation : Modest op.abortInitialisation.2 := by
  unfold abortInitialisation
  split
  · exact .single (by simp [Output.Modest, Output.mark, Output.plain])
  · exact .nil

theorem modest_doAbort (reason : AbortReason) : Modest (op.doAbort reason).2 := by
  unfold doAbort
  split
  · exact .nil
  · exact modest_abortInitialisation _

theorem concluding_doTerminate (reason : AbortReason) : Concluding (op.doTerminate reason).2 :=
  op.modest_abortInitialisation.append (concluding_finished _ _ _)

theorem concluding_timerHandler (errorCode : WaitResult) :
    Concluding (op.timerHandler errorCode).2 := by
  cases errorCode with
  | operationAborted => exact .inl .nil
  | expired | error => exact op.concluding_finished _ _

theorem concluding_initialisationAnswered (initFile : InitializationFile) :
    Concluding (op.initialisationAnswered initFile).2 := by
  unfold initialisationAnswered
  cases initFile.response.code with
  | operationAccepted => exact .inl (modest_triggerDlpTimeout _ _)
  | operationDenied | operationNotSupported | operationDeferred => exact concluding_finished _ _ _

theorem concluding_initialisationFileCompleted (status : TransferStatus) (data : Bytes) :
    Concluding (op.initialisationFileCompleted lib status data).2 := by
  refine initialisationFileCompleted_elim (P := fun r => Concluding r.2)
    (concluding_finished _ _ _) fun initFile => ?_
  exact Modest.append (.single (by simp [Output.Modest, Output.mark, Output.plain]))
    (concluding_initialisationAnswered _ initFile)

theorem concluding_statusReceived (status : Status) :
    Concluding (statusReceived id op status).2 := by
  unfold statusReceived
  cases status.code with
  | operationAccepted | operationInProgress | operationInProgressAdditionalInfo =>
    exact .inl (modest_triggerDlpTimeout _ _)
  | _ => exact op.concluding_finished _ _

theorem concluding_uploadStatusReceived (status : TransferStatus) (data : Bytes) :
    Concluding (statusFileReceived (receiveUploadStatus lib) id op status data).2 := by
  unfold statusFileReceived
  split
  · exact op.concluding_finished _ _
  · split
    next received hreceive =>
      have hcall : received.call.Modest := by
        obtain ⟨file, -, rfl⟩ := Option.map_eq_some_iff.mp hreceive
        simp [Output.Modest, Output.mark, Output.plain]
      exact Modest.append (.single hcall) (concluding_statusReceived _ _)
    next => exact .inl .nil

/-- The completion of a status file transfer that the upload has noted. -/
theorem statusFileCompleted_noted (hkind : op.kind = .upload) {id : Nat}
    (hid : op.statusFileOperations.count id = 1) (status : TransferStatus) (data : Bytes) :
    op.statusFileCompleted lib id status data =
      statusFileReceived (receiveUploadStatus lib) (fun op => op)
        (op.removeStatusFileOperation id).1 status data := by
  have hone : (op.removeStatusFileOperation id).2 = 1 := hid
  unfold Operation.statusFileCompleted
  rw [hkind]
  dsimp only
  unfold UploadOperation.statusFileCompleted statusFileCompletedOnward
  simp only [hone, ne_eq, not_true_eq_false, if_false, Reaction.andThen_mk, List.nil_append]
  rfl

theorem concluding_statusFileCompleted (hkind : op.kind = .upload) {id : Nat}
    (hid : op.statusFileOperations.count id = 1) (status : TransferStatus) (data : Bytes) :
    Concluding (op.statusFileCompleted lib id status data).2 := by
  rw [statusFileCompleted_noted lib op hkind hid]
  exact concluding_uploadStatusReceived lib _ status data

theorem modest_requestCompleted (hkind : op.kind = .upload) (status : TransferStatus) :
    Modest (op.requestCompleted status).2 := by
  rw [op.requestCompleted_of_kind (by simp [hkind])]
  split
  · exact op.modest_doAbort _
  · exact .nil

theorem modest_loadList {loads : List UploadLoad} {r : Reaction}
    (h : UploadOperation.loadList lib op loads = .ok r) : r.1 = op ∧ Modest r.2 := by
  unfold UploadOperation.loadList at h
  split at h
  · cases h
    exact ⟨rfl, .nil⟩
  · obtain ⟨file, -, hfile⟩ := bind_eq_ok h
    cases hfile
    exact ⟨rfl, by simp [Modest, Output.Modest, Output.mark, Output.plain]⟩

/-- Calls that answer a request of the target. -/
def Answering (out : List Output) : Prop :=
  ∀ o ∈ out, o.mark ≠ .finish ∧ o ≠ .serverStop ∧ ∀ status, o ≠ .uploadStatus status

theorem answering_single {o : Output} (hmark : o.mark = .neutral) (hstop : o ≠ .serverStop) :
    Answering [o] := by
  refine List.forall_mem_singleton.mpr ⟨by simp [hmark], hstop, ?_⟩
  rintro status rfl
  cases hmark

theorem answering_tftpRequest (remote : Endpoint) (requestType : RequestType) (filename : Text)
    (options : Arinc615aOptions) :
    Answering (op.tftpRequest remote requestType filename options).2 := by
  have hstatus : Answering (op.statusFileRequest remote).2 :=
    statusFileRequest_elim (P := fun r => Answering r.2)
      (fun _ => by simp [Answering, emit, triggerDlpTimeout, Output.mark])
      fun _ => answering_single rfl (by simp)
  refine tftpRequest_elim (P := fun r => Answering r.2) (fun _ _ => answering_single rfl (by simp))
    (fun _ _ => answering_single rfl (by simp)) hstatus (fun checkValue => ?_)
    fun handled hhandled => ?_
  · refine List.forall_mem_append.mpr ⟨?_, answering_single rfl (by simp)⟩
    split
    · exact answering_single rfl (by simp)
    · exact List.forall_mem_nil _
  · exact List.forall_mem_append.mpr ⟨answering_single rfl (by simp), hhandled⟩

end Operation

/-- Calls seen one after the other: `finished` may come, with the two calls behind it. -/
inductive Closing : List Output → Prop
  | nil : Closing []
  | cons {o : Output} {out : List Output} (hmark : o.mark ≠ .finish) (hstop : o ≠ .serverStop)
    (hrest : Closing out) : Closing (o :: out)
  | finished (code : StatusCode) (description : Text) :
    Closing [.finished code description, .timerCancel, .serverStop]

namespace Closing

variable {out out' : List Output}

theorem append (h : ∀ o ∈ out, o.mark ≠ .finish ∧ o ≠ .serverStop) (h' : Closing out') :
    Closing (out ++ out') := by
  induction out with
  | nil => exact h'
  | cons o out ih =>
    obtain ⟨hmark, hstop⟩ := h o (List.mem_cons_self ..)
    exact .cons hmark hstop (ih fun x hx => h x (List.mem_cons_of_mem _ hx))

theorem of_forall (h : ∀ o ∈ out, o.mark ≠ .finish ∧ o ≠ .serverStop) : Closing out := by
  rw [← List.append_nil out]
  exact .append h .nil

end Closing

theorem Concluding.closing {out : List Output} (h : Concluding out) : Closing out := by
  rcases h with h | ⟨pre, code, description, hpre, rfl⟩
  · exact .of_forall fun o ho => ⟨(h o ho).1, (h o ho).2.1⟩
  · exact .append (fun o ho => ⟨(hpre o ho).1, (hpre o ho).2.1⟩) (.finished code description)

theorem Concluding.plain {out : List Output} (h : Concluding out) : ∀ o ∈ out, o.plain = true := by
  rcases h with h | ⟨pre, code, description, hpre, rfl⟩
  · exact fun o ho => (h o ho).2.2
  · refine List.forall_mem_append.mpr ⟨fun o ho => (hpre o ho).2.2, ?_⟩
    simp [Output.plain]

theorem Operation.Answering.closing {out : List Output} (h : Operation.Answering out) :
    Closing out :=
  .of_forall fun o ho => ⟨(h o ho).1, (h o ho).2.1⟩

/-! ## Status file transfers call by call -/

/-- The operation has noted the status file transfers that are under way, and those that the calls
still to be performed will start. -/
structure Tracking (op : Operation) (transfers : List Transfer) (out : List Output) : Prop where
  counted : ∀ id, transfers.count (.status id) + out.count (.transferStart (.status id)) =
    op.statusFileOperations.count id
  once : ∀ id, op.statusFileOperations.count id ≤ 1
  fresh : ∀ id, 0 < op.statusFileOperations.count id → id < op.nextStatusFileOperation

namespace Tracking

variable {op : Operation} {transfers : List Transfer} {out : List Output} {w : World}

/-- Calls that start no status file transfer can be left out. -/
theorem tracked (h : Tracking op transfers out) (hplain : ∀ o ∈ out, o.plain = true) :
    World.Tracked op transfers where
  counted id := by
    have hnone : Output.transferStart (.status id) ∉ out := fun hmem =>
      absurd (hplain _ hmem) (by simp [Output.plain])
    have hcounted := h.counted id
    rwa [List.count_eq_zero_of_not_mem hnone, Nat.add_zero] at hcounted
  once := h.once
  fresh := h.fresh

theorem perform {o : Output} (h : Tracking w.operation w.loop.pending (o :: out)) :
    Tracking (w.perform o).operation (w.perform o).loop.pending out where
  counted id := by
    show (w.loop.performAll ([o].map Output.command)).pending.count (.status id) + _ =
      w.operation.statusFileOperations.count id
    -- a call that starts the transfer moves it to those under way
    rw [EventLoop.count_pending_performAll, World.count_command, Nat.add_assoc, ← List.count_append]
    exact h.counted id
  once := h.once
  fresh := h.fresh

end Tracking

namespace World

variable {lib : Library} {w v : World} {event : Event} {r : Reaction}

theorem tracking_callback (hw : Tracked w.operation w.loop.pending)
    (h : w.callback lib event = some (v, r)) : Tracking r.1 v.loop.pending r.2 := by
  have htracked := tracked_step hw (step_of_callback h)
  rw [foldl_perform] at htracked
  refine ⟨fun id => ?_, htracked.once, htracked.fresh⟩
  rw [← htracked.counted id, EventLoop.count_pending_performAll, count_command]

theorem kind_callback (h : w.callback lib event = some (v, r)) :
    r.1.kind = w.operation.kind := by
  have hconfigured := configured_step (step_of_callback h)
  rw [foldl_perform] at hconfigured
  exact hconfigured.kind

/-- The calls of an upload: they end with `finished`, or they answer a request. -/
theorem concluding_callback (hkind : w.operation.kind = .upload)
    (hw : Tracked w.operation w.loop.pending) (h : w.callback lib event = some (v, r)) :
    Concluding r.2 ∨ Operation.Answering r.2 := by
  cases runs_of_callback h with
  | abort | terminate | send | throws => cases h
  | tftpRequest remote requestType filename options =>
    exact .inr (w.operation.answering_tftpRequest remote requestType filename options)
  | deferred waitTime =>
    exact .inl (.inl (.single (by simp [Output.Modest, Output.mark, Output.plain])))
  | completed transfer status data loop hloop =>
    left
    cases transfer with
    | initialisation =>
      exact w.operation.concluding_initialisationFileCompleted lib status data
    | status id =>
      exact w.operation.concluding_statusFileCompleted lib hkind (hw.remove hloop).1 status data
    | list checkValue =>
      show Concluding (w.operation.listFileCompleted lib checkValue status data).2
      unfold Operation.listFileCompleted
      rw [hkind]
      exact .inl .nil
    | request => exact .inl (w.operation.modest_requestCompleted hkind status)
  | timerElapses result => exact .inl (.inl .nil)
  | timerHandler result => exact .inl (w.operation.concluding_timerHandler result)

end World

end Arinc615a.Host
