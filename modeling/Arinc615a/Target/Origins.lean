import Arinc615a.Target.Frame
import Arinc615a.Target.StatusFiles

/-!
# Where the calls of a target operation come from

What a callback sends, and what it hands to the handler, comes from the event that runs it; and so
does every status that ends the operation, unless the operation aborts by itself.
-/

open Reasoning

namespace Arinc615a.Target

open Files Information Tftp

/-- The codes of an operation that goes on. -/
def UnderWay (code : StatusCode) : Prop :=
  code = .operationAccepted ∨ code = .operationInProgress ∨
    code = .operationInProgressAdditionalInfo

/-- Where the code and the description of a status come from. -/
inductive StatusFrom (op : Operation) : Event → Status → Prop where
  | kept {event : Event} {status : Status} (hcode : status.code = op.statusV.status.code)
      (hdescription : status.description = op.statusV.status.description) :
    StatusFrom op event status
  | underWay {event : Event} {status : Status} (hcode : UnderWay status.code) :
    StatusFrom op event status
  | aborted {event : Event} {status : Status}
      (hcode : status.code = .operationAbortedByTargetHw) : StatusFrom op event status
  | finished {status : Status} (finalStatus : FinalStatus) (description : Text)
      (hcode : status.code = finalStatus.statusCode) (hdescription : status.description = description) :
    StatusFrom op (.call (.finished finalStatus description)) status
  | listSent {status : Status} (data : Bytes) (hkind : op.statusV.kind = .information)
      (hcode : status.code = .operationCompleted) (hdescription : status.description = []) :
    StatusFrom op (.completed .list .successful data) status

/-- Calls that neither send nor receive a file, nor hand over what has been received. -/
def Output.plain : Output → Bool
  | .sendInitFile .. | .protocolFile .. | .receiveFile _ | .loadList _ | .downloadingRequest ..
  | .downloadingAnswer _ => false
  | _ => true

/-- The file that an operation receives; an information operation receives none. -/
def receivedFileType : OperationType → ProtocolFileType
  | .information => .invalid
  | .upload => .uploadRequest
  | .mediaDefinedDownload => .mediaDefinedDownloadRequest
  | .operatorDefinedDownload => .operatorDefinedDownloadAnswer

/-- Where the calls of a callback come from. -/
inductive Origin (lib : Library) (op : Operation) : Event → Output → Prop where
  | plain {event : Event} {o : Output} (h : o.plain = true) : Origin lib op event o
  | initialisation {event : Event} (remote : Endpoint) (data : Bytes) (port : Option UInt16)
      (h : InitializationFile.encode lib.raw
        { protocolVersion := op.protocolVersion, response := { code := .operationAccepted } } =
          .ok data) : Origin lib op event (.sendInitFile remote data port)
  | status {event : Event} (remote : Endpoint) (sent : AnyStatus) (data : Bytes)
      (hkind : sent.kind = op.statusV.kind) (hfrom : StatusFrom op event sent.status)
      (h : sent.encode lib.raw op.protocolVersion = .ok data) :
    Origin lib op event (.protocolFile remote sent.fileType (op.protocolFilename sent.fileType) data
      {} (.status sent))
  | targetInformation (remote : Endpoint) (targetsHardware : List TargetHardware)
      (checkValueType : CheckValueType) (data : Bytes) (hkind : op.statusV.kind = .information)
      (h : LoadConfigurationListFile.encode lib.raw
        { protocolVersion := op.protocolVersion, targetsHardware } = .ok data) :
    Origin lib op (.call (.targetInformation targetsHardware checkValueType))
      (.protocolFile remote .loadConfigurationList (op.protocolFilename .loadConfigurationList) data
        (lib.generateCheckValue checkValueType data) .list)
  | downloadingList (remote : Endpoint) (files : List DownloadFileInformation) (data : Bytes)
      (hkind : op.statusV.kind = .operatorDefinedDownload)
      (h : DownloadOperationListFile.encode lib.raw
        { protocolVersion := op.protocolVersion, files } = .ok data) :
    Origin lib op (.call (.downloadingList files))
      (.protocolFile remote .operatorDefinedDownloadList
        (op.protocolFilename .operatorDefinedDownloadList) data {} .list)
  | receive (remote remote' : Endpoint) (requestType : RequestType) (filename : Text)
      (h : (ProtocolFilename.ofText filename).fileTypeV = receivedFileType op.statusV.kind) :
    Origin lib op (.tftpRequest remote requestType filename) (.receiveFile remote')
  | loadList (data rest : Bytes) (file : UploadOperationRequestFile)
      (hkind : op.statusV.kind = .upload)
      (h : UploadOperationRequestFile.decode lib.raw {} data = .done () file rest) :
    Origin lib op (.completed .request .successful data) (.loadList file.loads)
  | downloadingRequest (data rest : Bytes) (file : DownloadOperationRequestFile)
      (hkind : op.statusV.kind = .mediaDefinedDownload)
      (h : DownloadOperationRequestFile.decode lib.raw {} data = .done () file rest) :
    Origin lib op (.completed .request .successful data)
      (.downloadingRequest file.files file.userDefinedData)
  | downloadingAnswer (data rest : Bytes) (file : DownloadOperationAnswerFile)
      (hkind : op.statusV.kind = .operatorDefinedDownload)
      (h : DownloadOperationAnswerFile.decode lib.raw {} data = .done () file rest) :
    Origin lib op (.completed .request .successful data) (.downloadingAnswer file.files)

/-- All calls of a callback, and the status that it leaves, come from its event. -/
structure Comes (lib : Library) (op : Operation) (event : Event) (r : Reaction) : Prop where
  calls : ∀ o ∈ r.2, Origin lib op event o
  status : StatusFrom op event r.1.statusV.status

namespace Comes

variable {lib : Library} {op op' : Operation} {event : Event} {r : Reaction}

theorem plain {out : List Output} (hstatus : StatusFrom op event op'.statusV.status)
    (hplain : out.all Output.plain = true) : Comes lib op event (op', out) :=
  ⟨fun o ho => .plain (List.all_eq_true.mp hplain o ho), hstatus⟩

theorem still {out : List Output} (hplain : out.all Output.plain = true) :
    Comes lib op event (op, out) :=
  plain (.kept rfl rfl) hplain

theorem of_calls {out : List Output} (h : ∀ o ∈ out, Origin lib op event o) :
    Comes lib op event (op, out) :=
  ⟨h, .kept rfl rfl⟩

theorem single {o : Output} (h : Origin lib op event o) : Comes lib op event (op.emit o) :=
  of_calls (List.forall_mem_singleton.mpr h)

theorem emit_andThen {o : Output} {f : Operation → Reaction} (ho : o.plain = true)
    (h : Comes lib op event (f op)) : Comes lib op event ((op.emit o).andThen f) :=
  ⟨List.forall_mem_cons.mpr ⟨.plain ho, h.calls⟩, h.status⟩

end Comes

namespace Operation

variable (lib : Library) (op : Operation) {op' : Operation} (event : Event)

theorem protocolFilename_congr (h : Fixed op op') (fileType : ProtocolFileType) :
    op'.protocolFilename fileType = op.protocolFilename fileType := by
  rw [protocolFilename, protocolFilename, h.targetId]

/-- A status is sent that comes from the event. -/
theorem comes_statusFile (hfixed : Fixed op op')
    (hstatus : StatusFrom op event op'.statusV.status) :
    Comes lib op event (op'.statusFile lib) := by
  have hforce : StatusFrom op event op'.forceAccepted.statusV.status := by
    unfold forceAccepted
    split
    · exact .underWay (by simp [UnderWay, Status.setCode])
    · exact hstatus
  have hfixed' := hfixed.trans op'.fixed_forceAccepted
  unfold statusFile
  dsimp only
  cases hencode : op'.forceAccepted.statusV.encode lib.raw op'.forceAccepted.protocolVersion with
  | error exception => exact .plain hforce rfl
  | ok file =>
    rw [hfixed'.protocolVersion] at hencode
    refine ⟨List.forall_mem_cons.mpr ⟨?_, ?_⟩, ?_⟩
    · rw [protocolFilename_congr op hfixed']
      exact .status _ _ _ hfixed'.kind hforce hencode
    · exact List.forall_mem_singleton.mpr (.plain rfl)
    · -- counting changes neither the code nor the description
      have hcounted : StatusFrom op event
          (op'.forceAccepted.statusV.modify Status.incrementCounter).status := by
        rw [AnyStatus.status_modify]
        cases hforce with
        | kept hcode hdescription => exact .kept hcode hdescription
        | underWay hcode => exact .underWay hcode
        | aborted hcode => exact .aborted hcode
        | finished _ _ hcode hdescription => exact .finished _ _ hcode hdescription
        | listSent data hkind hcode hdescription => exact .listSent data hkind hcode hdescription
      exact hcounted

theorem comes_start (hostAddress : Endpoint) (port : Option UInt16) (result : StartResult) :
    Comes lib op event (op.start lib hostAddress port result) := by
  have hsend : ∀ hostPort, Comes lib op event
      ({ op with hostAddress := hostAddress.address, hostPort := hostPort }.sendInitFile lib
        hostAddress port result) := by
    intro hostPort
    unfold sendInitFile
    split
    · exact .plain (.kept rfl rfl) rfl
    next file hencode =>
      cases result with
      | started =>
        exact ⟨List.forall_mem_singleton.mpr (.initialisation _ _ _ hencode), .kept rfl rfl⟩
      | throws => exact .plain (.kept rfl rfl) rfl
  unfold Operation.start
  cases port with
  | none => exact hsend op.hostPort
  | some port => exact hsend port

theorem comes_forceStatusTransmission (hfixed : Fixed op op')
    (hstatus : StatusFrom op event op'.statusV.status) :
    Comes lib op event (op'.forceStatusTransmission lib) := by
  unfold forceStatusTransmission
  split
  · exact comes_statusFile lib op event hfixed hstatus
  · exact .plain hstatus rfl

/-- Setting the status and sending it. -/
theorem comes_status {code : StatusCode} {description : Text} {estimatedTime : Int16}
    (h : StatusFrom op event { op.statusV.status.set code description with
      estimatedTime := estimatedTime }) :
    StatusFrom op event (op.status code description estimatedTime).statusV.status := by
  rwa [Operation.status, AnyStatus.status_modify]

theorem underWay_inProgressCode (order : ArgumentOrder) (description : Text) :
    UnderWay (inProgressCode order description) := by
  unfold inProgressCode UnderWay
  cases order with
  | codeFirst =>
    dsimp only
    split
    · exact .inr (.inl rfl)
    · exact .inr (.inr rfl)
  | moveFirst => exact .inr (.inl rfl)

theorem comes_inProgress (order : ArgumentOrder) (immediateTransmission : Bool)
    (estimatedTime : Int16) (description : Text) :
    Comes lib op event
      (op.inProgress lib order immediateTransmission estimatedTime description) := by
  have hstatus : StatusFrom op event
      (op.status (inProgressCode order description) description estimatedTime).statusV.status :=
    comes_status op event (.underWay (underWay_inProgressCode order description))
  unfold inProgress
  dsimp only
  split
  · exact comes_forceStatusTransmission lib op event (op.fixed_status ..) hstatus
  · exact .plain hstatus rfl

/-- The operation aborts by itself. -/
theorem comes_abort (description : Text) :
    Comes lib op event (op.finished lib .abortedByTargetHardware description) :=
  comes_forceStatusTransmission lib op event (op.fixed_status ..)
    (comes_status op event (.aborted rfl))

theorem comes_statusSent (sentStatus : Status) :
    Comes lib op event (op.statusSent lib sentStatus) := by
  unfold statusSent
  split
  · split
    · exact comes_inProgress lib op event ..
    · exact .still rfl
  · exact .still rfl
  · exact .still rfl
  · exact .still rfl

theorem comes_listCompleted (transferStatus : TransferStatus) (data : Bytes) :
    Comes lib op (.completed .list transferStatus data) (op.listCompleted lib transferStatus) := by
  unfold listCompleted
  cases hkind : op.statusV.kind with
  | information =>
    dsimp only [InformationOperation.targetInformationCompleted]
    split
    · exact comes_abort lib op _ _
    next hsuccessful =>
      rw [not_not.mp hsuccessful]
      split
      · exact .still rfl
      · -- the list has been taken, and the operation completes
        exact comes_statusFile lib op _ (op.fixed_status ..)
          (comes_status op _ (.listSent data hkind rfl rfl))
  | operatorDefinedDownload =>
    dsimp only [OperatorDefinedDownloadOperation.downloadingListCompleted]
    split
    · exact comes_abort lib op _ _
    · exact .still rfl
  | upload | mediaDefinedDownload => exact .still rfl

theorem comes_fileCompleted {σ : Type} {decode : FileDecoder σ Unit} {empty : σ}
    {protocolVersion : σ → Arinc615aVersion} {call : σ → Output} {failed version format : String}
    {transferStatus : TransferStatus} {data : Bytes}
    (h : ∀ file rest, decode empty data = .done () file rest →
      Origin lib op (.completed .request .successful data) (call file)) :
    Comes lib op (.completed .request transferStatus data)
      (fileCompleted decode empty protocolVersion call failed version format lib op transferStatus
        data) := by
  unfold fileCompleted
  split
  · exact comes_abort lib op _ _
  next hsuccessful =>
    rw [not_not.mp hsuccessful]
    split
    next file rest hdecode =>
      split
      · exact comes_abort lib op _ _
      · exact .single (h file rest hdecode)
    · exact comes_abort lib op _ _
    · exact .still rfl

theorem comes_requestCompleted (transferStatus : TransferStatus) (data : Bytes) :
    Comes lib op (.completed .request transferStatus data)
      (op.requestCompleted lib transferStatus data) := by
  unfold requestCompleted
  cases hkind : op.statusV.kind with
  | information => exact .still rfl
  | upload => exact comes_fileCompleted lib op fun file rest h => .loadList data rest file hkind h
  | mediaDefinedDownload =>
    exact comes_fileCompleted lib op fun file rest h => .downloadingRequest data rest file hkind h
  | operatorDefinedDownload =>
    exact comes_fileCompleted lib op fun file rest h => .downloadingAnswer data rest file hkind h

theorem comes_complete (transfer : Transfer) (status : TransferStatus) (data : Bytes) :
    Comes lib op (.completed transfer status data) (World.complete lib transfer status data op) := by
  cases transfer with
  | initialisation =>
    dsimp only [World.complete, sendInitFileComplete]
    split
    · exact .still rfl
    · exact .still rfl
  | status sent =>
    dsimp only [World.complete, statusFileCompleted]
    split
    · exact Comes.emit_andThen rfl (comes_statusSent lib op _ _)
    · exact .still rfl
    · exact .still rfl
    · exact .still rfl
  | list => exact op.comes_listCompleted lib status data
  | request => exact op.comes_requestCompleted lib status data

theorem comes_tftpRequest (remote : Endpoint) (requestType : RequestType) (filename : Text) :
    Comes lib op (.tftpRequest remote requestType filename)
      (op.tftpRequest remote requestType filename) := by
  have hreceive : ∀ wrongAddress, Comes lib op (.tftpRequest remote requestType filename)
      (fileRequest (receivedFileType op.statusV.kind) wrongAddress op remote requestType filename) := by
    intro wrongAddress
    unfold fileRequest
    split
    · exact .still rfl
    · split
      · exact .still rfl
      · split
        · exact .still rfl
        next hfileType => exact .single (.receive _ _ _ _ (not_not.mp hfileType))
  unfold Operation.tftpRequest
  cases hkind : op.statusV.kind with
  | information => exact .still rfl
  | upload | mediaDefinedDownload | operatorDefinedDownload =>
    rw [hkind] at hreceive
    exact hreceive _

/-- A change of loads or files leaves the common part as it is, and one of the list ratio sets a
code in progress. -/
theorem status_of_edit {statusV statusV' : AnyStatus} {call : Call}
    (h : statusV.edit call = some statusV') :
    statusV'.status = statusV.status ∨ UnderWay statusV'.status.code := by
  cases call with
  | accepted | inProgress | finished | targetInformation | downloadingList => cases h
  | inProgressRatio order immediateTransmission estimatedTime description listRatio =>
    right
    cases statusV <;> cases h <;> exact underWay_inProgressCode order description
  | loadAccepted | loadInProgress | loadFinished | loadsFinished =>
    left
    cases statusV <;> cases h
    rfl
  | fileAccepted | fileInProgress | fileFinished | filesFinished =>
    left
    cases statusV <;> cases h <;> rfl

theorem statusFrom_edit {call : Call} {statusV : AnyStatus}
    (h : op.statusV.edit call = some statusV) : StatusFrom op event statusV.status := by
  rcases status_of_edit h with hsame | hcode
  · exact .kept (by rw [hsame]) (by rw [hsame])
  · exact .underWay hcode

theorem comes_call {call : Call} {r : Reaction} (h : op.call lib call = some r) :
    Comes lib op (.call call) r := by
  cases call with
  | targetInformation targetsHardware checkValueType =>
    dsimp only [Operation.call] at h
    split at h
    next hkind =>
      cases h
      unfold InformationOperation.targetInformation
      split
      · exact .still rfl
      next data hencode => exact .single (.targetInformation _ _ _ data hkind hencode)
    · cases h
  | downloadingList files =>
    dsimp only [Operation.call] at h
    split at h
    next hkind =>
      cases h
      unfold OperatorDefinedDownloadOperation.downloadingList
      split
      · exact .still rfl
      next data hencode => exact .single (.downloadingList _ _ data hkind hencode)
    · cases h
  | accepted =>
    cases h
    exact comes_forceStatusTransmission lib op _ (op.fixed_status ..)
      (comes_status op _ (.underWay (.inl rfl)))
  | inProgress =>
    cases h
    exact comes_inProgress lib op _ ..
  | finished =>
    cases h
    exact comes_forceStatusTransmission lib op _ (op.fixed_status ..)
      (comes_status op _ (.finished _ _ rfl rfl))
  | inProgressRatio order immediateTransmission =>
    obtain ⟨statusV, hedit, rfl⟩ := Option.map_eq_some_iff.mp h
    cases immediateTransmission with
    | true => exact .plain (statusFrom_edit op _ hedit) rfl
    | false => exact .plain (statusFrom_edit op _ hedit) rfl
  | _ =>
    obtain ⟨statusV, hedit, rfl⟩ := Option.map_eq_some_iff.mp h
    exact .plain (statusFrom_edit op _ hedit) rfl

end Operation

theorem Comes.react {lib : Library} {op : Operation} {event : Event} {v w' : World}
    {callback : Operation → Reaction} {out : List Observation}
    (h : Comes lib op event (callback v.operation)) (hreact : v.react callback = (w', out)) :
    (∀ o, .call o ∈ out → Origin lib op event o) ∧
      StatusFrom op event w'.operation.statusV.status := by
  obtain ⟨hoperation, rfl⟩ := World.react_eq hreact
  rw [hoperation]
  refine ⟨fun o ho => ?_, h.status⟩
  obtain ⟨o', ho', heq⟩ := List.mem_map.mp ho
  cases heq
  exact h.calls _ ho'

/-- What a step calls, and the status that it leaves, come from its event. -/
theorem World.comes_step {lib : Library} {w w' : World} {event : Event} {out : List Observation}
    (hstep : w.step lib event = some (w', out)) :
    (∀ o, .call o ∈ out → Origin lib w.operation event o) ∧
      StatusFrom w.operation event w'.operation.statusV.status := by
  rcases step_cases hstep with ⟨hostAddress, port, result, rfl⟩ | ⟨v, r, hruns, hreact⟩
  · obtain ⟨reacted, hreacted, heq⟩ : ∃ reacted, w.react (fun op =>
        op.start lib hostAddress port result) = reacted ∧
        (reacted.1, .started :: reacted.2) = (w', out) :=
      ⟨_, rfl, Option.some.inj hstep⟩
    obtain ⟨rfl, rfl⟩ := Prod.mk.inj heq
    obtain ⟨hcalls, hstatus⟩ := Comes.react (w.operation.comes_start lib _ _ _ _) hreacted
    exact ⟨fun o ho => hcalls o ((List.mem_cons.mp ho).resolve_left (by simp)), hstatus⟩
  refine Comes.react ?_ hreact
  cases hruns with
  | call call reaction hcall => exact w.operation.comes_call lib hcall
  | tftpRequest remote requestType filename =>
    exact w.operation.comes_tftpRequest lib remote requestType filename
  | completed transfer status data => exact w.operation.comes_complete lib transfer status data
  | timerElapses => exact .still rfl
  | timerHandler result =>
    cases result with
    | operationAborted => exact .still rfl
    | expired | error =>
      exact Operation.comes_statusFile lib _ _ (.refl _) (.kept rfl rfl)

/-- What is sent as a status file is a status, encoded. -/
theorem World.encoded_step {lib : Library} {w w' : World} {event : Event} {out : List Observation}
    (hstep : w.step lib event = some (w', out)) {sent : AnyStatus} {data : Bytes}
    (hsent : (sent, data) ∈ statusFilesSent out) :
    sent.encode lib.raw w.operation.protocolVersion = .ok data := by
  obtain ⟨o, ho, hfile⟩ := List.mem_filterMap.mp hsent
  cases o with
  | started => cases hfile
  | call output =>
    have horigin := (comes_step hstep).1 output ho
    cases horigin with
    | status remote sent' data' hkind hfrom hencode =>
      cases hfile
      exact hencode
    | plain hplain =>
      cases output with
      | protocolFile => cases hplain
      | _ => cases hfile
    | _ => cases hfile

theorem World.protocolVersion_run {lib : Library} {w w' : World} {events : List Event}
    {out : List Observation} (hrun : (system lib).run w events = some (w', out)) :
    w'.operation.protocolVersion = w.operation.protocolVersion := by
  have hstep : ∀ v event v' out, v.operation.protocolVersion = w.operation.protocolVersion →
      (system lib).step v event = some (v', out) →
        v'.operation.protocolVersion = w.operation.protocolVersion :=
    fun _ _ _ _ hversion hstep => (World.fixed_step hstep).protocolVersion.trans hversion
  exact (system lib).run_invariant hstep rfl hrun

theorem World.encoded_run {lib : Library} {w w' : World} {events : List Event}
    {out : List Observation} (hrun : (system lib).run w events = some (w', out)) {sent : AnyStatus}
    {data : Bytes} (hsent : (sent, data) ∈ statusFilesSent out) :
    sent.encode lib.raw w.operation.protocolVersion = .ok data := by
  induction events generalizing w out with
  | nil =>
    cases hrun
    cases hsent
  | cons event events ih =>
    obtain ⟨w₁, out₁, out₂, hstep, hrest, rfl⟩ := (system lib).run_cons hrun
    rw [statusFilesSent_append] at hsent
    rcases List.mem_append.mp hsent with hsent | hsent
    · exact encoded_step hstep hsent
    · rw [← (World.fixed_step hstep).protocolVersion]
      exact ih hrest hsent

/-- A transfer is pending because it was so before, or has been started. -/
theorem World.launched_step {lib : Library} {w w' : World} {event : Event} {out : List Observation}
    {transfer : Transfer} (hstep : w.step lib event = some (w', out))
    (h : transfer ∈ w'.loop.pending) :
    transfer ∈ w.loop.pending ∨ ∃ o, .call o ∈ out ∧ o.command = .launch transfer := by
  have hreacted : ∀ {v : World} {callback : Operation → Reaction} {out : List Observation},
      (∀ t ∈ v.loop.pending, t ∈ w.loop.pending) → v.react callback = (w', out) →
        transfer ∈ w.loop.pending ∨ ∃ o, .call o ∈ out ∧ o.command = .launch transfer := by
    intro v callback out hv hreact
    cases hreact
    refine ((EventLoop.mem_pending_performAll _ _ _).mp h).imp (hv transfer) fun hlaunch => ?_
    obtain ⟨o, ho, hcommand⟩ := List.mem_map.mp hlaunch
    exact ⟨o, List.mem_map_of_mem ho, hcommand⟩
  rcases step_cases hstep with ⟨hostAddress, port, result, rfl⟩ | ⟨v, r, hruns, hreact⟩
  · obtain ⟨reacted, hreact, heq⟩ : ∃ reacted, w.react (fun op =>
        op.start lib hostAddress port result) = reacted ∧
        (reacted.1, .started :: reacted.2) = (w', out) :=
      ⟨_, rfl, Option.some.inj hstep⟩
    obtain ⟨rfl, rfl⟩ := Prod.mk.inj heq
    refine (hreacted (fun _ ht => ht) hreact).imp_right ?_
    rintro ⟨o, ho, hcommand⟩
    exact ⟨o, List.mem_cons_of_mem _ ho, hcommand⟩
  refine hreacted (fun t ht => ?_) hreact
  cases hruns with
  | call | tftpRequest => exact ht
  | completed _ _ _ _ hloop =>
    exact List.mem_of_mem_erase ((EventLoop.complete_eq_some hloop).2 ▸ ht)
  | timerElapses _ _ hloop => exact EventLoop.elapse_eq_some hloop ▸ ht
  | timerHandler _ _ hloop => exact EventLoop.take_eq_some hloop ▸ ht

end Arinc615a.Target
