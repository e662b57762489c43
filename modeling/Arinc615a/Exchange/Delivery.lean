import Arinc615a.Exchange.Counters
import Arinc615a.Exchange.Parties

/-!
# Status files that arrive in order

What the host does when nothing comes in between: whatever statuses the target has sent, if they are
delivered one after the other, the host tells its handler just these, up to the first one that ends
the operation.
-/

open Reasoning

namespace Arinc615a

namespace Host

open Files Information Tftp

/-- The calls that tell the handler of a status or of the end. -/
def Output.tells : Output → Bool
  | .informationStatus _ | .uploadStatus _ | .downloadStatus _ | .finished .. => true
  | _ => false

/-- How an operation ends that receives a status, if it does. -/
def conclusion (status : Status) : Option Output :=
  match status.code with
  | .operationAccepted | .operationInProgress | .operationInProgressAdditionalInfo => none
  | .loadPartNumberOrDownloadFileFailed | .operationDeferred | .invalid =>
    some (.finished .operationAbortedByDlp [])
  | _ => some (.finished status.code status.description)

namespace Operation

variable {op : Operation}

theorem tells_statusReceived (progress : Operation → Operation) (status : Status) :
    (statusReceived progress op status).2.filter Output.tells = (conclusion status).toList := by
  unfold statusReceived conclusion
  cases status.code <;> rfl

/-- An operation that goes on arms its timer. -/
theorem statusReceived_eq (progress : Operation → Operation) (op : Operation) {status : Status}
    (h : conclusion status = none) :
    ∃ seconds, statusReceived progress op status = (progress op, [.timerStart seconds]) := by
  unfold conclusion at h
  unfold statusReceived
  split at h
  next hcode =>
    rw [hcode]
    exact ⟨_, rfl⟩
  next hcode =>
    rw [hcode]
    exact ⟨_, rfl⟩
  next hcode =>
    rw [hcode]
    exact ⟨_, rfl⟩
  all_goals cases h

/-- The completion of a status file that has been received; `progress` notes that it has. -/
theorem statusFileCompleted_successful (lib : Library) {n : Nat}
    (hn : op.statusFileOperations.count n = 1) (data : Bytes) :
    ∃ progress : Operation → Operation,
      (∀ op, (progress op).abortReason = op.abortReason ∧
        (progress op).nextStatusFileOperation = op.nextStatusFileOperation) ∧
      op.statusFileCompleted lib n .successful data =
        match receiveStatus lib op.kind data with
        | none => ((op.removeStatusFileOperation n).1, [])
        | some received =>
          ((op.removeStatusFileOperation n).1.emit received.call).andThen fun op =>
            statusReceived progress op received.status := by
  have hone : (op.removeStatusFileOperation n).2 = 1 := hn
  have hreceived : ∀ receive progress (op' : Operation),
      statusFileReceived receive progress op' .successful data =
        match receive data with
        | none => (op', [])
        | some received => (op'.emit received.call).andThen fun op =>
            statusReceived progress op received.status := by
    intro receive progress op'
    unfold statusFileReceived
    rw [if_neg (by simp)]
    cases receive data <;> rfl
  unfold Operation.statusFileCompleted
  cases hkind : op.kind with
  | information =>
    refine ⟨fun op => { op with waitForFinalStatus := true }, fun _ => ⟨rfl, rfl⟩, ?_⟩
    dsimp only [InformationOperation.statusFileCompleted]
    rw [hone, if_neg (by simp), hreceived]
    rfl
  | upload =>
    refine ⟨id, fun _ => ⟨rfl, rfl⟩, ?_⟩
    dsimp only [UploadOperation.statusFileCompleted, statusFileCompletedOnward]
    rw [hone, if_neg (by simp), Reaction.andThen_mk, hreceived, List.nil_append]
    rfl
  | mediaDefinedDownload | operatorDefinedDownload =>
    refine ⟨id, fun _ => ⟨rfl, rfl⟩, ?_⟩
    dsimp only [DownloadOperation.statusFileCompleted, statusFileCompletedOnward]
    rw [hone, if_neg (by simp), Reaction.andThen_mk, hreceived, List.nil_append]
    rfl

end Operation

namespace World

variable {lib : Library} {w : World}

/-- Status files are let in. -/
structure Listening (w : World) : Prop where
  running : w.serverRunning = true
  unaborted : w.operation.abortReason = .noAbort
  tracked : Tracked w.operation w.loop.pending

/-- A status file is delivered: its request is let in, and its transfer completes. -/
theorem delivered (lib : Library) (h : w.Listening) {remote : Endpoint} {filename : Text}
    (hrequests : w.operation.RequestsStatus remote .write filename) (options : Arinc615aOptions)
    (data : Bytes) :
    ∃ (w₁ w₂ : World) (out : List Output),
      w.step lib (.tftpRequest remote .write filename options) =
          some (w₁, [.call (.transferStart (.status w.operation.nextStatusFileOperation))]) ∧
        w₁.step lib (.completed (.status w.operation.nextStatusFileOperation) .successful data) =
          some (w₂, out.map .call) ∧
        out.filter Output.tells =
          (match Operation.receiveStatus lib w.operation.kind data with
          | none => []
          | some received => received.call :: (conclusion received.status).toList) ∧
        ((∀ received, Operation.receiveStatus lib w.operation.kind data = some received →
            conclusion received.status = none) →
          w₂.Listening ∧ w₂.operation.nextStatusFileOperation =
            w.operation.nextStatusFileOperation + 1) := by
  obtain ⟨hrunning, hunaborted, htracked⟩ := h
  let n := w.operation.nextStatusFileOperation
  let op₁ : Operation := { w.operation with
    statusFileOperations := n :: w.operation.statusFileOperations
    nextStatusFileOperation := n + 1 }
  let w₁ : World := { w with
    operation := op₁, loop := { w.loop with pending := .status n :: w.loop.pending } }
  have hrequest : w.operation.tftpRequest remote .write filename options =
      (op₁, [.transferStart (.status n)]) := by
    obtain ⟨first, -, hfirst, heq⟩ := w.operation.tftpRequest_requestsStatus hrequests options
    have haborted : w.operation.isAborted remote = none := if_pos hunaborted
    rw [heq, hfirst rfl, Reaction.andThen_mk, Operation.statusFileRequest, haborted]
    rfl
  have hstep₁ : w.step lib (.tftpRequest remote .write filename options) =
      some (w₁, [.call (.transferStart (.status n))]) := by
    simp only [step, if_pos hrunning, react, hrequest]
    rfl
  have hcount : op₁.statusFileOperations.count n = 1 := by
    have hfresh : w.operation.statusFileOperations.count n = 0 :=
      Nat.eq_zero_of_not_pos fun hpos => Nat.lt_irrefl _ (htracked.fresh n hpos)
    show (n :: w.operation.statusFileOperations).count n = 1
    rw [List.count_cons_self, hfresh]
  have hcomplete : w₁.loop.complete (.status n) =
      some { w₁.loop with pending := w₁.loop.pending.erase (.status n) } :=
    if_pos (List.mem_cons_self ..)
  let v : World := { w₁ with
    loop := { w₁.loop with pending := w₁.loop.pending.erase (.status n) } }
  obtain ⟨r, hr⟩ : ∃ r, op₁.statusFileCompleted lib n .successful data = r := ⟨_, rfl⟩
  have hstep₂ : w₁.step lib (.completed (.status n) .successful data) =
      some (v.react fun _ => r) := by
    rw [← hr]
    exact (Runs.completed (.status n) .successful data v.loop hcomplete).step_eq
  have htracked₁ := tracked_step htracked hstep₁
  have htracked₂ := tracked_step htracked₁ hstep₂
  refine ⟨w₁, (v.react fun _ => r).1, r.2, hstep₁, hstep₂, ?_⟩
  obtain ⟨progress, hprogress, hcompleted⟩ :=
    Operation.statusFileCompleted_successful lib hcount data
  have hkind : op₁.kind = w.operation.kind := rfl
  rw [hcompleted, hkind] at hr
  cases hreceive : Operation.receiveStatus lib w.operation.kind data with
  | none =>
    rw [hreceive] at hr
    subst hr
    exact ⟨rfl, fun _ => ⟨⟨hrunning, hunaborted, htracked₂⟩, rfl⟩⟩
  | some received =>
    rw [hreceive] at hr
    have hcall : received.call.tells = true ∧
        received.call.server w.serverRunning = w.serverRunning := by
      rcases Operation.receiveStatus_call_cases hreceive with ⟨_, h⟩ | ⟨_, h⟩ | ⟨_, h⟩ <;>
        rw [h] <;> exact ⟨rfl, rfl⟩
    refine ⟨?_, fun hopen => ?_⟩
    · rw [← hr]
      show (received.call :: (Operation.statusReceived ..).2).filter Output.tells = _
      rw [List.filter_cons_of_pos hcall.1, Operation.tells_statusReceived]
    · obtain ⟨seconds, heq⟩ := Operation.statusReceived_eq progress
        (op₁.removeStatusFileOperation n).1 (hopen received rfl)
      have hr : ((progress (op₁.removeStatusFileOperation n).1),
          [received.call, .timerStart seconds]) = r := by
        rw [← hr]
        show _ = Reaction.andThen (_, [received.call]) _
        rw [Reaction.andThen_mk, heq]
        rfl
      obtain ⟨hkeeps, hnext⟩ := hprogress (op₁.removeStatusFileOperation n).1
      subst hr
      refine ⟨⟨?_, hkeeps.trans hunaborted, htracked₂⟩, hnext⟩
      show (received.call.server w.serverRunning) = true
      rw [hcall.2, hrunning]

end World

end Host

/-- What a status file says is the status that it is sent with. -/
theorem Target.Origin.statusFile {lib : Library} {op : Target.Operation} {event : Target.Event}
    {remote : Tftp.Endpoint} {fileType : Files.ProtocolFileType} {filename : Text} {data : Bytes}
    {checkValue : Tftp.CheckValue} {sent : Target.AnyStatus}
    (h : Target.Origin lib op event
      (.protocolFile remote fileType filename data checkValue (.status sent))) :
    sent.kind = op.statusV.kind ∧ filename = op.protocolFilename sent.fileType ∧
      sent.encode lib.raw op.protocolVersion = .ok data := by
  cases h with
  | plain hplain => cases hplain
  | status _ _ _ hkind hfrom hencode => exact ⟨hkind, rfl, hencode⟩

namespace Exchange

open Files Information Tftp

/-! ## What the host makes of a status file -/

/-- The host can decode the status file. -/
def Readable (version : Arinc615aVersion) : Target.AnyStatus → Prop
  | .information status =>
    InformationOperationStatusFile.Readable { protocolVersion := version, status }
  | .upload status => UploadOperationStatusFile.Readable { protocolVersion := version, status }
  | .mediaDefinedDownload status | .operatorDefinedDownload status =>
    DownloadOperationStatusFile.Readable { protocolVersion := version, status }

instance (version : Arinc615aVersion) : DecidablePred (Readable version)
  | .information _ => inferInstanceAs (Decidable (_ ∧ _))
  | .upload _ => inferInstanceAs (Decidable (_ ∧ _ ∧ _))
  | .mediaDefinedDownload _ | .operatorDefinedDownload _ =>
    inferInstanceAs (Decidable (_ ∧ _ ∧ _))

/-- A status as the host reads it. -/
def readBack : Target.AnyStatus → Host.ReceivedStatus
  | .information status =>
    { call := .informationStatus status.cutAtNul, status := status.cutAtNul }
  | .upload status =>
    { call := .uploadStatus status.cutAtNul, status := status.cutAtNul.toStatus }
  | .mediaDefinedDownload status | .operatorDefinedDownload status =>
    { call := .downloadStatus status.cutAtNul, status := status.cutAtNul.toStatus }

theorem object?_cases {χ σ : Type} {outcome : Outcome χ σ Unit} {P : Prop} {o : σ}
    (h : ∀ object unread, outcome = .done () object unread ↔ P ∧ object = o ∧ unread = []) :
    (P ∧ outcome.object? = some o) ∨ (¬P ∧ outcome.object? = none) := by
  cases outcome with
  | done _ object unread =>
    obtain ⟨hp, rfl, -⟩ := (h object unread).mp rfl
    exact .inl ⟨hp, rfl⟩
  | thrown => exact .inr ⟨fun hp => (by cases (h o []).mpr (And.intro hp ⟨rfl, rfl⟩)), rfl⟩

/-- A status file that the host cannot decode is passed over. -/
theorem receiveStatus_encode {lib : Library} {version : Arinc615aVersion}
    {sent : Target.AnyStatus} {data : Bytes} (h : sent.encode lib.raw version = .ok data) :
    Host.Operation.receiveStatus lib sent.kind data =
      if Readable version sent then some (readBack sent) else none := by
  have settled : ∀ {χ σ : Type} {outcome : Outcome χ σ Unit} {o : σ} (received : σ → _),
      (∀ object unread, outcome = .done () object unread ↔
        Readable version sent ∧ object = o ∧ unread = []) → received o = readBack sent →
      outcome.object?.map received =
        if Readable version sent then some (readBack sent) else none := by
    intro χ σ outcome o received hdone hback
    rcases object?_cases hdone with ⟨hreadable, hobject⟩ | ⟨hunreadable, hobject⟩
    · rw [if_pos hreadable, hobject, ← hback]
      rfl
    · rw [if_neg hunreadable, hobject]
      rfl
  cases sent with
  | information status =>
    exact settled _ (fun _ _ => InformationOperationStatusFile.decode_encode_done_iff lib.raw h) rfl
  | upload status =>
    exact settled _ (fun _ _ => UploadOperationStatusFile.decode_encode_done_iff lib.raw h) rfl
  | mediaDefinedDownload status | operatorDefinedDownload status =>
    exact settled _ (fun _ _ => DownloadOperationStatusFile.decode_encode_done_iff lib.raw h) rfl

/-- What the host is to tell its handler of statuses that are delivered one after the other. -/
def follow (version : Arinc615aVersion) : List Target.AnyStatus → List Host.Output
  | [] => []
  | sent :: rest =>
    if Readable version sent then
      (readBack sent).call ::
        match Host.conclusion (readBack sent).status with
        | some finished => [finished]
        | none => follow version rest
    else follow version rest

/-- The host ends the operation with the status. -/
def Ends (version : Arinc615aVersion) (sent : Target.AnyStatus) : Prop :=
  Readable version sent ∧ (Host.conclusion (readBack sent).status).isSome

instance (version : Arinc615aVersion) : DecidablePred (Ends version) :=
  fun _ => inferInstanceAs (Decidable (_ ∧ _))

/-- The files up to the first one with which the operation ends. -/
def untilEnd (version : Arinc615aVersion) : List (SentFile × Target.AnyStatus) → List SentFile
  | [] => []
  | (file, sent) :: rest =>
    if Ends version sent then [file] else file :: untilEnd version rest

/-- The network delivers files one after the other; `n` is the number of the next status file
transfer of the host. -/
def deliveries (remote : Endpoint) : Nat → List SentFile → List NetworkEvent
  | _, [] => []
  | n, file :: files =>
    .requestArrives file remote :: .fileReceived (.status n) file ::
      deliveries remote (n + 1) files

/-- What the host tells its handler of statuses and of the end. -/
def hostTold (out : List NetworkObservation) : List Host.Output :=
  out.filterMap fun
    | .host (.call output) => if output.tells then some output else none
    | _ => none

theorem hostTold_append (out out' : List NetworkObservation) :
    hostTold (out ++ out') = hostTold out ++ hostTold out' :=
  List.filterMap_append

theorem hostTold_calls (e : NetworkEvent) (out : List Host.Output) :
    hostTold (.event e :: (out.map Host.Observation.call).map .host) =
      out.filter Host.Output.tells := by
  rw [List.map_map]
  show (out.map _).filterMap _ = _
  rw [List.filterMap_map, ← List.filterMap_eq_filter]
  rfl

/-! ## Files on the network -/

/-- The target has sent the file with the status. -/
def SentAs (past : List NetworkObservation) (file : SentFile) (sent : Target.AnyStatus) : Prop :=
  ∃ remote fileType, .target (.call (.protocolFile remote fileType file.filename file.data
    file.checkValue (.status sent))) ∈ past

/-- A status file of an operation of a `kind`, as it lies on the network. -/
structure OnNetwork (lib : Library) (kind : OperationType) (targetId : TargetId)
    (version : Arinc615aVersion) (s : Network) (file : SentFile) (sent : Target.AnyStatus) :
    Prop where
  mem : file ∈ s.files
  filename : file.filename =
    ProtocolFilename.toText { targetIdV := targetId, fileTypeV := Host.statusFileType kind }
  kind : sent.kind = kind
  data : sent.encode lib.raw version = .ok file.data

/-- What stays as it is between two operations of the same `kind` for the same target. -/
structure Matched (lib : Library) (kind : OperationType) (targetId : TargetId)
    (version : Arinc615aVersion) (s : Network) (past : List NetworkObservation) : Prop where
  hostKind : s.host.operation.kind = kind
  hostTarget : s.host.operation.targetId = targetId
  tracked : Host.World.Tracked s.host.operation s.host.loop.pending
  targetKind : s.target.operation.statusV.kind = kind
  targetTarget : s.target.operation.targetId = targetId
  targetVersion : s.target.operation.protocolVersion = version
  sent : ∀ file sent, SentAs past file sent → OnNetwork lib kind targetId version s file sent

section

variable {lib : Library} {kind : OperationType} {targetId : TargetId} {version : Arinc615aVersion}
  {s s' : Network} {past out : List NetworkObservation}

theorem OnNetwork.mono {file : SentFile} {sent : Target.AnyStatus}
    (h : OnNetwork lib kind targetId version s file sent) (hfiles : s.files ⊆ s'.files) :
    OnNetwork lib kind targetId version s' file sent :=
  { h with mem := hfiles h.mem }

theorem sentAs_append {file : SentFile} {sent : Target.AnyStatus} :
    SentAs (past ++ out) file sent ↔ SentAs past file sent ∨ SentAs out file sent := by
  simp only [SentAs, List.mem_append, exists_or]

theorem statusFileType_kind (sent : Target.AnyStatus) :
    sent.fileType = Host.statusFileType sent.kind := by
  cases sent <;> rfl

theorem Network.matched_step {e : NetworkEvent} (h : Matched lib kind targetId version s past)
    (hstep : (networkSystem lib).step s e = some (s', out)) :
    Matched lib kind targetId version s' (past ++ out) := by
  rcases Network.step_cases lib hstep with ⟨event, seen, hrun, hsame, hfiles, rfl⟩ |
    ⟨event, seen, hrun, hsame, hfiles, rfl⟩
  · have hconfigured := Host.World.configured_step hrun
    have hnothing : ∀ file sent, ¬SentAs (.event e :: seen.map .host) file sent := by
      rintro file sent ⟨remote, fileType, hmem⟩
      simp at hmem
    exact
      { hostKind := hconfigured.kind.trans h.hostKind
        hostTarget := hconfigured.targetId.trans h.hostTarget
        tracked := Host.World.tracked_step h.tracked hrun
        targetKind := by rw [hsame, h.targetKind]
        targetTarget := by rw [hsame, h.targetTarget]
        targetVersion := by rw [hsame, h.targetVersion]
        sent := fun file sent hsent =>
          (h.sent file sent ((sentAs_append.mp hsent).resolve_right (hnothing file sent))).mono
            (hfiles ▸ List.Subset.refl _) }
  · have hfixed := Target.World.fixed_step hrun
    refine
      { hostKind := by rw [hsame, h.hostKind]
        hostTarget := by rw [hsame, h.hostTarget]
        tracked := by rw [hsame]; exact h.tracked
        targetKind := hfixed.kind.trans h.targetKind
        targetTarget := hfixed.targetId.trans h.targetTarget
        targetVersion := hfixed.protocolVersion.trans h.targetVersion
        sent := fun file sent hsent => ?_ }
    rcases sentAs_append.mp hsent with hpast | ⟨remote, fileType, hmem⟩
    · exact (h.sent file sent hpast).mono (hfiles ▸ List.subset_append_left ..)
    · have hcall : Target.Observation.call (.protocolFile remote fileType file.filename file.data
          file.checkValue (.status sent)) ∈ seen := by simpa using hmem
      have hmemFiles : file ∈ s'.files := by
        rw [hfiles]
        exact List.mem_append_right _
          (List.mem_filterMap.mpr ⟨_, mem_targetCalls.mpr hcall, rfl⟩)
      obtain ⟨hkind, hfilename, hdata⟩ := ((Target.World.comes_step hrun).1 _ hcall).statusFile
      refine ⟨hmemFiles, ?_, hkind.trans h.targetKind, h.targetVersion ▸ hdata⟩
      rw [hfilename, statusFileType_kind, hkind, h.targetKind, Target.Operation.protocolFilename,
        h.targetTarget]

theorem requestsStatus_toText {op : Host.Operation} (h : op.targetId.toBool = true)
    (remote : Endpoint) :
    op.RequestsStatus remote .write (ProtocolFilename.toText
      { targetIdV := op.targetId, fileTypeV := Host.statusFileType op.kind }) :=
  ⟨checkRequest_toText h remote, by rw [ProtocolFilename.ofText_toText h], .inl rfl⟩

/-! ## Deliveries -/

/-- A status file is delivered to a host that listens. -/
theorem Network.delivered (hlistening : s.host.Listening)
    (hmatched : Matched lib kind targetId version s past) (hid : targetId.toBool = true)
    {file : SentFile} {sent : Target.AnyStatus}
    (hsent : OnNetwork lib kind targetId version s file sent) (remote : Endpoint) :
    ∃ s' seen,
      (networkSystem lib).run s [.requestArrives file remote,
        .fileReceived (.status s.host.operation.nextStatusFileOperation) file] = some (s', seen) ∧
      hostTold seen =
        (if Readable version sent then
          (readBack sent).call :: (Host.conclusion (readBack sent).status).toList
        else []) ∧
      (¬Ends version sent → s'.host.Listening ∧
        s'.host.operation.nextStatusFileOperation =
          s.host.operation.nextStatusFileOperation + 1) := by
  have hrequests : s.host.operation.RequestsStatus remote .write file.filename := by
    rw [hsent.filename, ← hmatched.hostKind, ← hmatched.hostTarget]
    exact requestsStatus_toText (hmatched.hostTarget ▸ hid) remote
  have hreceive := receiveStatus_encode hsent.data
  rw [hsent.kind, ← hmatched.hostKind] at hreceive
  let n := s.host.operation.nextStatusFileOperation
  let started : List Host.Observation := [.call (.transferStart (.status n))]
  obtain ⟨w₁, w₂, out, hstep₁, hstep₂, htold, hopen⟩ := Host.World.delivered lib hlistening
    hrequests { checksum := file.checkValue } file.data
  let s₁ : Network := { s.afterHost w₁ started with links := s.links ++ [(.status n, file)] }
  let s₂ : Network := s₁.afterHost w₂ (out.map .call)
  have hrun₁ : (networkSystem lib).step s (.requestArrives file remote) =
      some (s₁, .event (.requestArrives file remote) :: started.map .host) := by
    simp only [networkSystem, Network.step, if_pos hsent.mem, hstep₁]
    rfl
  have hlinked : (.status n, file) ∈ s₁.links :=
    List.mem_append_right _ (List.mem_singleton_self _)
  have hrun₂ : (networkSystem lib).step s₁ (.fileReceived (.status n) file) =
      some (s₂, .event (.fileReceived (.status n) file) ::
        (out.map Host.Observation.call).map .host) := by
    simp only [networkSystem, Network.step, if_pos hlinked, Network.hostStep]
    rw [show s₁.host = w₁ from rfl, hstep₂]
    rfl
  have hstop : (networkSystem lib).run s₂ [] = some (s₂, []) := rfl
  have hrun := (networkSystem lib).run_cons_of_step hrun₁
    ((networkSystem lib).run_cons_of_step hrun₂ hstop)
  refine ⟨s₂, _, hrun, ?_, fun hgoes => hopen fun received hreceived => ?_⟩
  · have hrequested : hostTold (.event (.requestArrives file remote) :: started.map .host) = [] :=
      hostTold_calls _ [.transferStart (.status n)]
    rw [List.append_nil, hostTold_append, hrequested, List.nil_append, hostTold_calls, htold,
      hreceive]
    by_cases hreadable : Readable version sent
    · rw [if_pos hreadable, if_pos hreadable]
    · rw [if_neg hreadable, if_neg hreadable]
  · rw [hreceive] at hreceived
    obtain ⟨hreadable, heq⟩ := Option.ite_none_right_eq_some.mp hreceived
    cases heq
    by_contra hends
    exact hgoes ⟨hreadable, Option.isSome_iff_ne_none.mpr hends⟩

/-- Status files are delivered one after the other, up to the first one with which the operation
ends. -/
theorem Network.delivers (hid : targetId.toBool = true) (remote : Endpoint) :
    ∀ (sent : List (SentFile × Target.AnyStatus)) {s : Network} {past : List NetworkObservation},
      s.host.Listening → Matched lib kind targetId version s past →
      (∀ p ∈ sent, SentAs past p.1 p.2) →
      ∃ s' seen,
        (networkSystem lib).run s (deliveries remote s.host.operation.nextStatusFileOperation
          (untilEnd version sent)) = some (s', seen) ∧
        hostTold seen = follow version (sent.map Prod.snd)
  | [], s, _, _, _, _ => ⟨s, [], rfl, rfl⟩
  | (file, status) :: rest, s, past, hlistening, hmatched, hsent => by
    obtain ⟨hfirst, hrest⟩ := List.forall_mem_cons.mp hsent
    obtain ⟨s₁, seen₁, hrun₁, htold₁, hopen⟩ :=
      Network.delivered hlistening hmatched hid (hmatched.sent file status hfirst) remote
    by_cases hends : Ends version status
    · refine ⟨s₁, seen₁, ?_, ?_⟩
      · rw [untilEnd, if_pos hends]
        exact hrun₁
      · obtain ⟨hreadable, hsome⟩ := hends
        obtain ⟨finished, hfinished⟩ := Option.isSome_iff_exists.mp hsome
        rw [htold₁, List.map_cons, follow, if_pos hreadable, if_pos hreadable, hfinished]
        rfl
    · -- the host goes on listening
      obtain ⟨hlistening₁, hnext⟩ := hopen hends
      have hmatched₁ := (networkSystem lib).run_history
        (fun _ _ _ _ _ => Network.matched_step) hmatched hrun₁
      obtain ⟨s₂, seen₂, hrun₂, htold₂⟩ := Network.delivers hid remote rest hlistening₁ hmatched₁
        fun p hp => sentAs_append.mpr (.inl (hrest p hp))
      refine ⟨s₂, seen₁ ++ seen₂, ?_, ?_⟩
      · rw [untilEnd, if_neg hends]
        rw [hnext] at hrun₂
        exact (networkSystem lib).run_append hrun₁ hrun₂
      · rw [hostTold_append, htold₁, htold₂, List.map_cons, follow]
        by_cases hreadable : Readable version status
        · have hgoes : Host.conclusion (readBack status).status = none :=
            Option.not_isSome_iff_eq_none.mp fun hsome => hends ⟨hreadable, hsome⟩
          rw [if_pos hreadable, if_pos hreadable, hgoes]
          rfl
        · rw [if_neg hreadable, if_neg hreadable]
          rfl

variable {dlpTimeout rate : Nat} {portOption : Bool} {port : UInt16} {events : List NetworkEvent}

theorem matched_created (lib : Library) (kind : OperationType) (targetId : TargetId)
    (dlpTimeout : Nat) (portOption : Bool) (version : Arinc615aVersion) (rate : Nat)
    (port : UInt16) :
    Matched lib kind targetId version (.created kind targetId dlpTimeout portOption
      (.ofOperation kind targetId version rate port)) [] where
  hostKind := rfl
  hostTarget := rfl
  tracked := Host.World.tracked_ofOperation kind targetId dlpTimeout portOption
  targetKind := by cases kind <;> rfl
  targetTarget := rfl
  targetVersion := rfl
  sent _ _ hsent := by
    obtain ⟨_, _, hmem⟩ := hsent
    cases hmem

end

end Exchange

end Arinc615a
