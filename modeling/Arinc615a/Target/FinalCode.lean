import Arinc615a.Target.Calling
import Arinc615a.Target.Finish

/-!
# The status code behind the final call

`finished` sets the final status.  The completions of transfers that were started earlier set the
status as well, and so do callbacks that go on behind the call of the handler in which `finished`
was called.  None of them looks at the code that stands there.
-/

open Reasoning

namespace Arinc615a.Target

open Files Information Tftp

/-- The status and the content of a status file that is sent. -/
def Output.statusFile? : Output → Option (AnyStatus × Bytes)
  | .protocolFile _ _ _ data _ (.status sent) => some (sent, data)
  | _ => none

/-- The status files that a callback sends. -/
def statusFiles (out : List Output) : List (AnyStatus × Bytes) := out.filterMap Output.statusFile?

/-- After the callback the operation has a status with the code, every status file sent is the
encoding of a status with this code, and the operation is of the same class and protocol version. -/
structure Carries (lib : Library) (code : StatusCode) (op : Operation) (r : Reaction) : Prop where
  kept : r.1.statusV.status.code = code
  sent : ∀ sent data, (sent, data) ∈ statusFiles r.2 →
    sent.status.code = code ∧ sent.encode lib.raw op.protocolVersion = .ok data
  kind : r.1.statusV.kind = op.statusV.kind
  version : r.1.protocolVersion = op.protocolVersion

namespace Carries

variable {lib : Library} {code : StatusCode} {op : Operation} {r : Reaction}

/-- A callback that neither sets the status nor sends it. -/
theorem still (hcode : op.statusV.status.code = code) {out : List Output}
    (hout : statusFiles out = []) : Carries lib code op (op, out) where
  kept := hcode
  sent sent data hmem := by
    rw [show statusFiles (op, out).2 = [] from hout] at hmem
    cases hmem
  kind := rfl
  version := rfl

theorem none (hcode : op.statusV.status.code = code) : Carries lib code op (op, []) :=
  still hcode rfl

theorem emit (hcode : op.statusV.status.code = code) {o : Output} (ho : o.statusFile? = .none) :
    Carries lib code op (op.emit o) :=
  still hcode (by simp [statusFiles, ho])

theorem andThen {f : Operation → Reaction} (h : Carries lib code op r)
    (h' : Carries lib code r.1 (f r.1)) :
    Carries lib code op (r.andThen f) where
  kept := h'.kept
  sent sent data hmem := by
    have happend : statusFiles (r.andThen f).2 = statusFiles r.2 ++ statusFiles (f r.1).2 :=
      List.filterMap_append
    rw [happend] at hmem
    rcases List.mem_append.mp hmem with hmem | hmem
    · exact h.sent sent data hmem
    · rw [← h.version]
      exact h'.sent sent data hmem
  kind := h'.kind.trans h.kind
  version := h'.version.trans h.version

end Carries

namespace Operation

variable {lib : Library} {op : Operation} {code : StatusCode}

theorem carries_timer (hcode : op.statusV.status.code = code) :
    Carries lib code op op.triggerStatusTransmissionTimer :=
  .emit hcode rfl

/-- The status that is sent is the one that is set. -/
theorem carries_statusFile (hcode : op.statusV.status.code = code) (hvalid : code ≠ .invalid) :
    Carries lib code op (op.statusFile lib) := by
  -- a status that has been set is not replaced by the accepted one
  have hforce : op.forceAccepted = op := if_neg (hcode ▸ hvalid)
  unfold statusFile
  rw [hforce]
  dsimp only
  cases hencode : op.statusV.encode lib.raw op.protocolVersion with
  | error exception => exact .emit hcode rfl
  | ok file =>
    refine ⟨by simpa [incrementCounter, triggerStatusTransmissionTimer, emit,
      protocolFileOperation] using hcode, fun sent data hmem => ?_, ?_, rfl⟩
    · -- the timer is the only other call
      have hone : (sent, data) = (op.statusV, file) := List.mem_singleton.mp hmem
      cases hone
      exact ⟨hcode, hencode⟩
    · exact AnyStatus.kind_modify _ _

theorem carries_forceStatusTransmission (hcode : op.statusV.status.code = code)
    (hvalid : code ≠ .invalid) : Carries lib code op (op.forceStatusTransmission lib) := by
  unfold forceStatusTransmission
  split
  · exact carries_statusFile hcode hvalid
  · exact .emit hcode rfl

theorem statusCode_ne_invalid (finalStatus : FinalStatus) : finalStatus.statusCode ≠ .invalid := by
  cases finalStatus <;> decide

/-- Setting a status and sending it carries the code of this status. -/
theorem carries_status {r : Reaction} {description : Text} {estimatedTime : Int16}
    (h : Carries lib code (op.status code description estimatedTime) r) : Carries lib code op r where
  kept := h.kept
  sent := h.sent
  kind := h.kind.trans (AnyStatus.kind_modify _ _)
  version := h.version

theorem code_status (description : Text) (estimatedTime : Int16) :
    (op.status code description estimatedTime).statusV.status.code = code := by
  simp [status]

theorem carries_finished (finalStatus : FinalStatus) (description : Text) :
    Carries lib finalStatus.statusCode op (op.finished lib finalStatus description) :=
  carries_status (carries_forceStatusTransmission (code_status _ _)
    (statusCode_ne_invalid finalStatus))

theorem carries_aborted {finalStatus : FinalStatus}
    (habort : finalStatus.statusCode = .operationAbortedByTargetHw) (description : Text) :
    Carries lib finalStatus.statusCode op (op.finished lib .abortedByTargetHardware description) := by
  -- the abort sets the code that stands there already
  rw [habort]
  exact carries_finished .abortedByTargetHardware description

end Operation

/-- A completion that leaves the code of the final status as it is.  The others set another one:
information operations set the status again when their list is sent or not; lists and request files
that fail abort the operation. -/
def EventKeeps (lib : Library) (kind : OperationType) (version : Arinc615aVersion)
    (finalStatus : FinalStatus) : Event → Prop
  | .completed .list transferStatus _ =>
    match kind with
    | .information => finalStatus.statusCode =
        if transferStatus = .successful then .operationCompleted else .operationAbortedByTargetHw
    | .operatorDefinedDownload =>
      transferStatus = .successful ∨ finalStatus.statusCode = .operationAbortedByTargetHw
    | .upload | .mediaDefinedDownload => True
  | .completed .request transferStatus rawFile =>
    Operation.RequestUsable lib kind version transferStatus rawFile ∨
      finalStatus.statusCode = .operationAbortedByTargetHw
  | _ => True

/-- What is left of a callback leaves the code as it is.  Behind `status` information operations go
on to a status in progress when an accepted status has been sent, and a handler that throws on a
request file aborts the operation. -/
def RestKeeps (kind : OperationType) (finalStatus : FinalStatus) : Rest → Exit → Prop
  | .status sent, .returned => kind = .information → sent.status.code ≠ .operationAccepted
  | .requestFile, .arinc615aException => finalStatus.statusCode = .operationAbortedByTargetHw
  | _, _ => True

/-- The next part that runs leaves the code of the final status as it is. -/
def KeepsCode (lib : Library) (finalStatus : FinalStatus) (s : Suspended World Rest) :
    CallEvent Event Exit → Prop
  | .event event => EventKeeps lib s.state.operation.statusV.kind
      s.state.operation.protocolVersion finalStatus event
  | .leave exit =>
    ∀ rest ∈ s.rests.head?, RestKeeps s.state.operation.statusV.kind finalStatus rest exit

/-- The events that the handler causes. -/
def Event.ofHandler : Event → Prop
  | .start .. | .call _ => True
  | _ => False

namespace Operation

variable {lib : Library} {op : Operation} {finalStatus : FinalStatus}

theorem carries_finalisePart (hcode : op.statusV.status.code = code) (finalStatus : FinalStatus)
    (description : Text) :
    Carries lib code op (op.finalisePart finalStatus description).reaction :=
  .emit hcode rfl

theorem carries_statusFileCompletedPart (hcode : op.statusV.status.code = code)
    (sent : AnyStatus) (transferStatus : TransferStatus) :
    Carries lib code op (op.statusFileCompletedPart sent transferStatus).reaction := by
  unfold statusFileCompletedPart
  cases transferStatus with
  | successful | operationAbortedByDlp | operationAbortedByOperator => exact .emit hcode rfl
  | _ => exact carries_finalisePart hcode _ _

theorem carries_statusSentPart (hcode : op.statusV.status.code = code) {sentStatus : Status}
    (hkeeps : op.statusV.kind = .information → sentStatus.code ≠ .operationAccepted) :
    Carries lib code op (op.statusSentPart lib sentStatus).reaction := by
  unfold statusSentPart
  cases hsent : sentStatus.code with
  | operationAccepted =>
    dsimp only
    split
    -- only here the completion would set a status in progress
    case isTrue hkind => exact absurd hsent (hkeeps hkind)
    case isFalse => exact carries_timer hcode
  | operationInProgress | operationInProgressAdditionalInfo => exact carries_timer hcode
  | _ => exact carries_finalisePart hcode _ _

theorem carries_listCompletedPart (hcode : op.statusV.status.code = finalStatus.statusCode)
    {transferStatus : TransferStatus} {data : Bytes}
    (hkeeps : EventKeeps lib op.statusV.kind op.protocolVersion finalStatus
      (.completed .list transferStatus data)) :
    Carries lib finalStatus.statusCode op (op.listCompletedPart lib transferStatus).reaction := by
  unfold EventKeeps at hkeeps
  unfold listCompletedPart
  cases hkind : op.statusV.kind with
  | information =>
    rw [hkind] at hkeeps
    -- the list sets the status again, to the code that stands there
    dsimp only [targetInformationCompletedPart] at hkeeps ⊢
    by_cases hsent : transferStatus = .successful
    · rw [if_pos hsent] at hkeeps
      have hvalid : op.statusV.status.code ≠ .invalid := hcode ▸ statusCode_ne_invalid _
      rw [if_neg (not_not.mpr hsent), if_neg hvalid, hkeeps]
      exact carries_status (carries_statusFile (code_status _ _) (by decide))
    · rw [if_neg hsent] at hkeeps
      rw [if_pos hsent]
      exact carries_aborted hkeeps _
  | operatorDefinedDownload =>
    rw [hkind] at hkeeps
    simp only [listCompleted, hkind]
    dsimp only [OperatorDefinedDownloadOperation.downloadingListCompleted]
    split
    case isTrue hfailed => exact carries_aborted (hkeeps.resolve_left hfailed) _
    case isFalse => exact .none hcode
  | upload | mediaDefinedDownload =>
    simp only [listCompleted, hkind]
    exact .none hcode

theorem carries_fileCompleted {σ : Type} {decode : FileDecoder σ Unit} {empty : σ}
    {protocolVersion : σ → Arinc615aVersion} {call : σ → Output} {failed version format : String}
    (hcode : op.statusV.status.code = finalStatus.statusCode)
    (hcall : ∀ file, (call file).statusFile? = none)
    {transferStatus : TransferStatus} {rawFile : Bytes}
    (hkeeps : (transferStatus = .successful ∧
      FileUsable decode empty protocolVersion op.protocolVersion rawFile) ∨
        finalStatus.statusCode = .operationAbortedByTargetHw) :
    Carries lib finalStatus.statusCode op (fileCompleted decode empty protocolVersion call failed
      version format lib op transferStatus rawFile) := by
  unfold FileUsable at hkeeps
  unfold fileCompleted
  split
  case isTrue hfailed => exact carries_aborted (hkeeps.resolve_left fun h => hfailed h.1) _
  case isFalse =>
    cases hdecode : decode empty rawFile with
    | done _ file _ =>
      rw [hdecode] at hkeeps
      dsimp only at hkeeps ⊢
      split
      case isTrue hversion => exact carries_aborted (hkeeps.resolve_left fun h => hversion h.2) _
      case isFalse => exact .emit hcode (hcall file)
    | thrown failure _ =>
      rw [hdecode] at hkeeps
      cases failure with
      | exception _ => exact carries_aborted (hkeeps.resolve_left fun h => h.2) _
      | overrun => exact .none hcode

theorem carries_requestCompleted (hcode : op.statusV.status.code = finalStatus.statusCode)
    {transferStatus : TransferStatus} {rawFile : Bytes}
    (hkeeps : RequestUsable lib op.statusV.kind op.protocolVersion transferStatus rawFile ∨
      finalStatus.statusCode = .operationAbortedByTargetHw) :
    Carries lib finalStatus.statusCode op (op.requestCompleted lib transferStatus rawFile) := by
  unfold RequestUsable at hkeeps
  unfold requestCompleted
  cases hkind : op.statusV.kind with
  | information => exact .none hcode
  | upload | mediaDefinedDownload | operatorDefinedDownload =>
    rw [hkind] at hkeeps
    exact carries_fileCompleted hcode (fun _ => rfl) hkeeps

theorem carries_tftpRequest (hcode : op.statusV.status.code = finalStatus.statusCode)
    (remote : Endpoint) (requestType : RequestType) (filename : Text) :
    Carries lib finalStatus.statusCode op (op.tftpRequest remote requestType filename) :=
  tftpRequest_elim (fun _ _ => .emit hcode rfl) (.emit hcode rfl)

theorem carries_sendInitFileCompletePart (hcode : op.statusV.status.code = code)
    (transferStatus : TransferStatus) :
    Carries lib code op (op.sendInitFileCompletePart transferStatus).reaction := by
  unfold sendInitFileCompletePart
  split
  · exact carries_finalisePart hcode _ _
  · have htimer : Carries lib code op op.triggerStatusTransmissionTimer := carries_timer hcode
    have hcalled : Carries lib code op
        (op.triggerStatusTransmissionTimer.andThen fun op => op.emit .initialised) :=
      htimer.andThen (.emit htimer.kept rfl)
    exact hcalled

theorem carries_leave (hcode : op.statusV.status.code = finalStatus.statusCode) {rest : Rest}
    {exit : Exit} (hkeeps : RestKeeps op.statusV.kind finalStatus rest exit) :
    Carries lib finalStatus.statusCode op (op.leave lib rest exit).reaction := by
  cases rest with
  | status sent =>
    cases exit with
    | returned => exact carries_statusSentPart hcode hkeeps
    | arinc615aException | otherException => exact .none hcode
  | finished =>
    cases exit with
    | returned => exact .emit hcode rfl
    | arinc615aException | otherException => exact .none hcode
  | requestFile =>
    cases exit with
    | arinc615aException => exact carries_aborted hkeeps _
    | returned | otherException => exact .none hcode

end Operation

/-- The first part of an event that the handler does not cause. -/
theorem Event.carries_part {lib : Library} {op : Operation} {finalStatus : FinalStatus}
    {event : Event} {part : Part} (hcode : op.statusV.status.code = finalStatus.statusCode)
    (hhandler : ¬event.ofHandler)
    (hkeeps : EventKeeps lib op.statusV.kind op.protocolVersion finalStatus event)
    (hpart : event.part lib op = some part) :
    Carries lib finalStatus.statusCode op part.reaction := by
  cases event with
  | start | call => exact absurd trivial hhandler
  | tftpRequest remote requestType filename =>
    cases hpart
    exact Operation.carries_tftpRequest hcode remote requestType filename
  | completed transfer status data =>
    cases transfer with
    | initialisation =>
      cases hpart
      exact Operation.carries_sendInitFileCompletePart hcode status
    | status sent =>
      cases hpart
      exact Operation.carries_statusFileCompletedPart hcode sent status
    | list =>
      cases hpart
      exact Operation.carries_listCompletedPart hcode hkeeps
    | request =>
      cases hpart
      exact Operation.carries_requestCompleted hcode hkeeps
  | timerElapses =>
    cases hpart
    exact .none hcode
  | timerHandler result =>
    cases hpart
    cases result with
    | operationAborted => exact .none hcode
    | expired | error =>
      exact Operation.carries_statusFile hcode (Operation.statusCode_ne_invalid finalStatus)

/-! ## Runs -/

/-- The status files that are sent in a run. -/
def statusFilesSent (out : List Observation) : List (AnyStatus × Bytes) :=
  out.filterMap fun
    | .started => none
    | .call output => output.statusFile?

theorem statusFilesSent_map (out : List Output) :
    statusFilesSent (out.map .call) = statusFiles out :=
  List.filterMap_map ..

theorem statusFilesSent_append (out out' : List Observation) :
    statusFilesSent (out ++ out') = statusFilesSent out ++ statusFilesSent out' :=
  List.filterMap_append

/-- The status files of a run are those of its calls. -/
theorem forall_statusFilesSent {P : AnyStatus → Bytes → Prop} {out : List Observation} :
    (∀ sent data, (sent, data) ∈ statusFilesSent out → P sent data) ↔
      ∀ o ∈ out, ∀ sent data, (sent, data) ∈ statusFilesSent [o] → P sent data := by
  simp only [statusFilesSent, List.mem_filterMap, List.mem_singleton, exists_eq_left]
  constructor
  · exact fun h o ho sent data hsent => h sent data ⟨o, ho, hsent⟩
  · rintro h sent data ⟨o, ho, hsent⟩
    exact h o ho sent data hsent

/-- The class and the protocol version of the operation, and the final code in its status. -/
structure FinalCode (kind : OperationType) (version : Arinc615aVersion) (finalStatus : FinalStatus)
    (op : Operation) : Prop where
  kind : op.statusV.kind = kind
  version : op.protocolVersion = version
  code : op.statusV.status.code = finalStatus.statusCode

section Runs

variable {lib : Library} {kind : OperationType} {version : Arinc615aVersion}
  {finalStatus : FinalStatus} {s s' : Suspended World Rest} {event : CallEvent Event Exit}
  {out : List Observation}

theorem FinalCode.reactPart {v : World} {part : Part}
    (h : v.operation.statusV.kind = kind ∧ v.operation.protocolVersion = version)
    (hcarries : Carries lib finalStatus.statusCode v.operation part.reaction) :
    FinalCode kind version finalStatus (v.reactPart part).state.operation ∧
      ∀ sent data, (sent, data) ∈ statusFilesSent (v.reactPart part).out →
        sent.status.code = finalStatus.statusCode ∧ sent.encode lib.raw version = .ok data := by
  refine ⟨⟨hcarries.kind.trans h.1, hcarries.version.trans h.2, hcarries.kept⟩, ?_⟩
  intro sent data hsent
  have hcalled : (sent, data) ∈ statusFilesSent (part.out.map .call) := hsent
  rw [statusFilesSent_map] at hcalled
  rw [← h.2]
  exact hcarries.sent sent data hcalled

/-- A step that the handler does not cause and that keeps the code sends no other code. -/
theorem FinalCode.step (h : FinalCode kind version finalStatus s.state.operation)
    (hhandler : ∀ e, event = .event e → ¬e.ofHandler) (hkeeps : KeepsCode lib finalStatus s event)
    (hstep : (callSystem lib).step s event = some (s', out)) :
    FinalCode kind version finalStatus s'.state.operation ∧
      ∀ sent data, (sent, data) ∈ statusFilesSent out →
        sent.status.code = finalStatus.statusCode ∧ sent.encode lib.raw version = .ok data := by
  obtain ⟨part, rests, hruns, hsuspend⟩ := Calls.step_cases hstep
  cases hsuspend
  cases hruns with
  | event e part henter =>
    obtain ⟨loop, p, -, hpart, rfl⟩ := World.enter_eq_some henter
    have hopening : e.opening = [] := by
      cases e with
      | start => exact absurd trivial (hhandler _ rfl)
      | _ => rfl
    have hcarries := Event.carries_part h.code (hhandler e rfl) hkeeps hpart
    have hreact := FinalCode.reactPart (v := { s.state with loop := loop }) ⟨h.kind, h.version⟩
      hcarries
    rw [hopening]
    exact hreact
  | leave exit rest rests hrests =>
    have hrest := hkeeps rest (by rw [hrests]; rfl)
    exact FinalCode.reactPart ⟨h.kind, h.version⟩ (Operation.carries_leave h.code hrest)

theorem FinalCode.run {events : List (CallEvent Event Exit)}
    (h : FinalCode kind version finalStatus s.state.operation)
    (hhandler : ∀ e, .event e ∈ events → ¬e.ofHandler)
    (hkeeps : (callSystem lib).Throughout (KeepsCode lib finalStatus) s events)
    (hrun : (callSystem lib).run s events = some (s', out)) :
    ∀ sent data, (sent, data) ∈ statusFilesSent out →
      sent.status.code = finalStatus.statusCode ∧ sent.encode lib.raw version = .ok data := by
  have hcond : (callSystem lib).Throughout
      (fun s event => (∀ e, event = .event e → ¬e.ofHandler) ∧ KeepsCode lib finalStatus s event)
      s events := by
    intro pre event post s₁ out₁ hevents hpre
    refine ⟨fun e he => hhandler e ?_, hkeeps pre event post s₁ out₁ hevents hpre⟩
    rw [hevents, he]
    exact List.mem_append_right _ (List.mem_cons_self ..)
  have hstep (s : Suspended World Rest) (event : CallEvent Event Exit) (s' : Suspended World Rest)
      (out : List Observation) (h : FinalCode kind version finalStatus s.state.operation)
      (hcond : (∀ e, event = .event e → ¬e.ofHandler) ∧ KeepsCode lib finalStatus s event)
      (hstep : (callSystem lib).step s event = some (s', out)) :
      FinalCode kind version finalStatus s'.state.operation ∧
        ∀ o ∈ out, ∀ sent data, (sent, data) ∈ statusFilesSent [o] →
          sent.status.code = finalStatus.statusCode ∧ sent.encode lib.raw version = .ok data := by
    rw [← forall_statusFilesSent]
    exact FinalCode.step h hcond.1 hcond.2 hstep
  rw [forall_statusFilesSent]
  -- the class, the version and the code are carried from state to state
  exact (callSystem lib).forall_run hstep h hcond hrun

end Runs

/-- Every status file that is sent from the final call of the handler on has the code of the final
status, from wherever the handler makes this call, provided that no completion behind it, and
nothing that is left of a callback, sets another code. -/
theorem targetOperation_finalCode (lib : Library) {s s' : Suspended World Rest}
    {finalStatus : FinalStatus} {description : Text} {events : List (CallEvent Event Exit)}
    {out : List Observation} (hhandler : ∀ event, .event event ∈ events → ¬event.ofHandler)
    (hkeeps : (callSystem lib).Throughout (KeepsCode lib finalStatus) s
      (.event (.call (.finished finalStatus description)) :: events))
    (hrun : (callSystem lib).run s (.event (.call (.finished finalStatus description)) :: events) =
      some (s', out)) (sent : AnyStatus) (data : Bytes) (hsent : (sent, data) ∈ statusFilesSent out) :
    sent.status.code = finalStatus.statusCode ∧
      sent.encode lib.raw s.state.operation.protocolVersion = .ok data := by
  obtain ⟨s₁, out₁, out₂, hstep, hrest, rfl⟩ := (callSystem lib).run_cons hrun
  have hlater := (((callSystem lib).throughout_cons hstep).mp hkeeps).2
  obtain ⟨hfinal, hfirst⟩ : FinalCode s.state.operation.statusV.kind
      s.state.operation.protocolVersion finalStatus s₁.state.operation ∧
        ∀ sent data, (sent, data) ∈ statusFilesSent out₁ →
          sent.status.code = finalStatus.statusCode ∧
            sent.encode lib.raw s.state.operation.protocolVersion = .ok data := by
    have hcall : (World.calls lib).step s (.event (.call (.finished finalStatus description))) =
        some (s₁, out₁) := hstep
    obtain ⟨part, rests, hruns, hsuspend⟩ := Calls.step_cases hcall
    cases hsuspend
    cases hruns with
    | event _ part henter =>
      obtain ⟨loop, p, -, hpart, rfl⟩ := World.enter_eq_some henter
      cases hpart
      exact FinalCode.reactPart ⟨rfl, rfl⟩ (Operation.carries_finished finalStatus description)
  rcases List.mem_append.mp (statusFilesSent_append _ _ ▸ hsent) with hsent | hsent
  · exact hfirst sent data hsent
  · exact hfinal.run hhandler hlater hrest sent data hsent

/-- An information operation is finished from inside the call of `status` for a status in progress.
Behind the call the timer is armed, and sends the final status a second time. -/
theorem targetOperation_finalCode_information :
    ∃ s' out,
      (callSystem { raw := .bigEndian, generateCheckValue := fun _ _ => {} }).run
          { state := { operation := { targetId := .ofText (text "ABCD_1"),
                                      protocolVersion := .arinc615a34,
                                      statusTransmissionRate := 1, hostPort := 59,
                                      statusV := .information {} } },
            rests := [.status (.information { code := .operationInProgress })] }
          [.event (.call (.finished .abortedByOperator [])), .leave .returned,
            .event (.timerElapses .expired), .event (.timerHandler .expired)] = some (s', out) ∧
        (statusFilesSent out).length = 2 ∧
        ∀ sent data, (sent, data) ∈ statusFilesSent out →
          sent.status.code = .operationAbortedByOperator ∧
            sent.encode .bigEndian .arinc615a34 = .ok data := by
  have hlength : ((callSystem { raw := .bigEndian, generateCheckValue := fun _ _ => {} }).run
      { state := { operation := { targetId := .ofText (text "ABCD_1"),
                                  protocolVersion := .arinc615a34,
                                  statusTransmissionRate := 1, hostPort := 59,
                                  statusV := .information {} } },
        rests := [.status (.information { code := .operationInProgress })] }
      [.event (.call (.finished .abortedByOperator [])), .leave .returned,
        .event (.timerElapses .expired), .event (.timerHandler .expired)]).map
        (fun r => (statusFilesSent r.2).length) = some 2 := by
    decide +kernel
  obtain ⟨⟨s', out⟩, hrun, htwice⟩ := Option.map_eq_some_iff.mp hlength
  refine ⟨s', out, hrun, htwice, fun sent data hsent => ?_⟩
  refine targetOperation_finalCode _ (by simp [Event.ofHandler]) ?_ hrun sent data hsent
  -- the call for the status in progress is the only one that is left
  refine (Reactive.throughout_cons _ rfl).mpr ⟨trivial, (Reactive.throughout_cons _ rfl).mpr
    ⟨?_, (Reactive.throughout_cons _ rfl).mpr ⟨trivial, (Reactive.throughout_cons _ rfl).mpr
      ⟨trivial, Reactive.throughout_nil _⟩⟩⟩⟩
  rintro rest hrest
  cases Option.some.inj hrest
  exact fun _ => by decide

/-- The list of an information operation is still under way when the handler reports an abort, and
is received behind the status file with this abort.  A status file that says the operation is
completed follows. -/
theorem targetInformation_abort_replaced :
    ∃ s before s' out,
      (callSystem { raw := .bigEndian, generateCheckValue := fun _ _ => {} }).run
          { state := { operation := { targetId := .ofText (text "ABCD_1"),
                                      protocolVersion := .arinc615a34,
                                      statusTransmissionRate := 1, hostPort := 59,
                                      statusV := .information {} } } }
          [.event (.start ⟨1, 2⟩ none .started),
            .event (.completed .initialisation .successful []),
            .event (.call (.targetInformation [] .notUsed))] = some (s, before) ∧
        (callSystem { raw := .bigEndian, generateCheckValue := fun _ _ => {} }).run s
          [.event (.call (.finished .abortedByOperator [])),
            .event (.completed (.status (.information { code := .operationAbortedByOperator }))
              .successful []),
            .leave .returned, .leave .returned,
            .event (.completed .list .successful [])] = some (s', out) ∧
        ∃ sent data, (sent, data) ∈ statusFilesSent out ∧
          sent.status.code ≠ FinalStatus.abortedByOperator.statusCode := by
  refine ⟨_, _, _, _, rfl, rfl, .information { counter := 1, code := .operationCompleted },
    [0, 0, 0, 15, 0x41, 0x34, 0, 1, 0, 3, 0, 0, 0, 0, 0], ?_, by decide⟩
  decide +kernel

end Arinc615a.Target
