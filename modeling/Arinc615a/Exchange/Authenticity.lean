import Arinc615a.Exchange.Network
import Arinc615a.Files.ReadBack
import Arinc615a.Host.Origins
import Arinc615a.Reasoning.Precedence
import Arinc615a.Target.Origins

/-!
# What either side is told is what the other side has said

On a network that makes up nothing, the host hands to its handler what the target has sent before,
the target hands to its handler what the user of the host has sent before, both with every text cut
at its first NUL; and the host finishes with a success only if the handler of the target has
reported one.
-/

open Reasoning

namespace Arinc615a

namespace Files.ProtocolFilename

theorem not_mem_extension :
    ∀ info ∈ extensionTypeInfoIndex, (0x2E : UInt8) ∉ info.1 := by
  decide

/-- The name of a file is never taken for another type, whatever the identifier is. -/
theorem fileTypeV_ofText_toText (targetId : TargetId) (fileType : ProtocolFileType) :
    (ofText (toText { targetIdV := targetId, fileTypeV := fileType })).fileTypeV = fileType ∨
      (ofText (toText { targetIdV := targetId, fileTypeV := fileType })).fileTypeV = .invalid := by
  by_cases hdot : 0x2E ∈ targetId.toString
  · right
    -- behind the first point there is another one, and no extension has one
    obtain ⟨front, rest, hsplit, hfront⟩ := List.eq_append_cons_of_mem hdot
    have hname : split (toText { targetIdV := targetId, fileTypeV := fileType }) =
        (front, rest ++ 0x2E :: extension fileType) := by
      rw [split, toText, hsplit, List.append_assoc, List.cons_append]
      exact splitAt_append hfront _
    by_contra hvalid
    obtain ⟨info, hinfo, hsuffix⟩ := fileType_ne_invalid_iff.mp hvalid
    refine not_mem_extension info hinfo ?_
    rw [hsuffix, hname]
    exact List.mem_append_right _ (List.mem_cons_self ..)
  · left
    have hsplit : split (toText { targetIdV := targetId, fileTypeV := fileType }) =
        (targetId.toString, extension fileType) := splitAt_append hdot _
    rw [ofText, hsplit, fileType_extension]

end Files.ProtocolFilename

namespace Exchange

open Files Information Tftp

/-! ## Explanations -/

/-- The target has sent a status file with the status. -/
def StatusSent (past : List NetworkObservation) (sent : Target.AnyStatus) : Prop :=
  ∃ remote fileType filename data checkValue,
    .target (.call (.protocolFile remote fileType filename data checkValue (.status sent))) ∈ past

def HandlerCalled (past : List NetworkObservation) (call : Target.Call) : Prop :=
  .event (.target (.call call)) ∈ past

def UserSent (past : List NetworkObservation) (request : Host.Operation.Request) : Prop :=
  .event (.host (.send request)) ∈ past

/-- How the target comes to a status: the operation goes on or has aborted by itself, the handler has
finished it, or the list of an information operation has been taken. -/
def Vouched (past : List NetworkObservation) (information : Prop) (code : StatusCode)
    (description : Text) : Prop :=
  code = .invalid ∨ Target.UnderWay code ∨ code = .operationAbortedByTargetHw ∨
    (∃ finalStatus, HandlerCalled past (.finished finalStatus description) ∧
      code = finalStatus.statusCode) ∨
    (information ∧ code = .operationCompleted ∧ description = [] ∧
      ∃ targetsHardware type, HandlerCalled past (.targetInformation targetsHardware type))

/-- How the host comes to finish: it gives up, its user terminates it, or the target has sent the
status or the list. -/
def Earned (past : List NetworkObservation) (information : Prop) (code : StatusCode)
    (description : Text) : Prop :=
  code = .operationAbortedByDlp ∨
    (∃ reason, .event (.host (.terminate reason)) ∈ past ∧
      code = Host.Operation.abortStatusCode reason) ∨
    (∃ sent, StatusSent past sent ∧
      Vouched past information sent.status.code sent.status.description ∧
      code = sent.status.code ∧ description = cutAtNul sent.status.description) ∨
    (information ∧ code = .operationCompleted ∧ description = [] ∧
      ∃ targetsHardware type, HandlerCalled past (.targetInformation targetsHardware type))

/-- What is seen is explained by what has been seen before.  The host operation is of a `kind`. -/
def Authentic (lib : Library) (kind : OperationType) (past : List NetworkObservation) :
    NetworkObservation → Prop
  | .host (.call (.initialisationResponse response)) =>
    response = { code := .operationAccepted } ∧
      ∃ remote data port, .target (.call (.sendInitFile remote data port)) ∈ past
  | .host (.call (.informationStatus status)) =>
    ∃ sent, StatusSent past (.information sent) ∧ status = sent.cutAtNul
  | .host (.call (.uploadStatus status)) =>
    ∃ sent, StatusSent past (.upload sent) ∧ status = sent.cutAtNul
  | .host (.call (.downloadStatus status)) =>
    ∃ sent, (StatusSent past (.mediaDefinedDownload sent) ∨
      StatusSent past (.operatorDefinedDownload sent)) ∧ status = sent.cutAtNul
  | .host (.call (.targetInformation targetsHardware integrityInformation)) =>
    ∃ sent type, HandlerCalled past (.targetInformation sent type) ∧
      targetsHardware = sent.map TargetHardware.cutAtNul ∧
      ((∀ data, (lib.generateCheckValue type data).type = type) → integrityInformation = true)
  | .host (.call (.downloadingList files)) =>
    ∃ sent, HandlerCalled past (.downloadingList sent) ∧
      files = sent.map DownloadFileInformation.cutAtNul
  | .host (.call (.finished code description)) =>
    Earned past (kind = .information) code description
  | .target (.call (.loadList loads)) =>
    ∃ sent, UserSent past (.loadList sent) ∧ loads = sent.map UploadLoad.cutAtNul
  | .target (.call (.downloadingRequest files userDefinedData)) =>
    ∃ sent, UserSent past (.request sent userDefinedData) ∧ files = sent.map cutAtNul
  | .target (.call (.downloadingAnswer files)) =>
    ∃ sent, UserSent past (.answer sent) ∧ files = sent.map cutAtNul
  | _ => True

theorem Vouched.mono {past past' : List NetworkObservation} {information information' : Prop}
    {code : StatusCode} {description : Text} (h : Vouched past information code description)
    (hpast : past ⊆ past') (himp : information → information') :
    Vouched past' information' code description := by
  rcases h with h | h | h | ⟨finalStatus, hcalled, h⟩ | ⟨hinformation, h, hempty, hw, type, hcalled⟩
  · exact .inl h
  · exact .inr (.inl h)
  · exact .inr (.inr (.inl h))
  · exact .inr (.inr (.inr (.inl ⟨finalStatus, hpast hcalled, h⟩)))
  · exact .inr (.inr (.inr (.inr ⟨himp hinformation, h, hempty, hw, type, hpast hcalled⟩)))

theorem Vouched.lasting {past more : List NetworkObservation} {information : Prop}
    {code : StatusCode} {description : Text} (h : Vouched past information code description) :
    Vouched (past ++ more) information code description :=
  h.mono (List.subset_append_left ..) id

theorem lasting_statusSent {past more : List NetworkObservation} {sent : Target.AnyStatus}
    (h : StatusSent past sent) : StatusSent (past ++ more) sent := by
  obtain ⟨remote, fileType, filename, data, checkValue, hmem⟩ := h
  exact ⟨remote, fileType, filename, data, checkValue, List.mem_append_left _ hmem⟩

theorem lasting_earned {past more : List NetworkObservation} {information : Prop}
    {code : StatusCode} {description : Text} (h : Earned past information code description) :
    Earned (past ++ more) information code description := by
  rcases h with h | ⟨reason, hterminate, h⟩ | ⟨sent, hsent, hvouched, h⟩ |
    ⟨hinformation, h, hempty, hw, type, hcalled⟩
  · exact .inl h
  · exact .inr (.inl ⟨reason, List.mem_append_left _ hterminate, h⟩)
  · exact .inr (.inr (.inl ⟨sent, lasting_statusSent hsent, hvouched.lasting, h⟩))
  · exact .inr (.inr (.inr
      ⟨hinformation, h, hempty, hw, type, List.mem_append_left _ hcalled⟩))

theorem lasting_authentic (lib : Library) (kind : OperationType) :
    Lasting (Authentic lib kind) := by
  intro past more o h
  unfold Authentic at h ⊢
  split
  · obtain ⟨hresponse, remote, data, port, hmem⟩ := h
    exact ⟨hresponse, remote, data, port, List.mem_append_left _ hmem⟩
  · obtain ⟨sent, hsent, heq⟩ := h
    exact ⟨sent, lasting_statusSent hsent, heq⟩
  · obtain ⟨sent, hsent, heq⟩ := h
    exact ⟨sent, lasting_statusSent hsent, heq⟩
  · obtain ⟨sent, hsent, heq⟩ := h
    exact ⟨sent, hsent.imp lasting_statusSent lasting_statusSent, heq⟩
  · obtain ⟨sent, type, hcalled, heq⟩ := h
    exact ⟨sent, type, List.mem_append_left _ hcalled, heq⟩
  · obtain ⟨sent, hcalled, heq⟩ := h
    exact ⟨sent, List.mem_append_left _ hcalled, heq⟩
  · exact lasting_earned h
  · obtain ⟨sent, hsent, heq⟩ := h
    exact ⟨sent, List.mem_append_left _ hsent, heq⟩
  · obtain ⟨sent, hsent, heq⟩ := h
    exact ⟨sent, List.mem_append_left _ hsent, heq⟩
  · obtain ⟨sent, hsent, heq⟩ := h
    exact ⟨sent, List.mem_append_left _ hsent, heq⟩
  · trivial

/-! ## Files on the network -/

def fileTypeOf (filename : Text) : ProtocolFileType := (ProtocolFilename.ofText filename).fileTypeV

/-- How the target comes to a file that it sends. -/
inductive FileFrom (lib : Library) (past : List NetworkObservation) (file : SentFile) : Prop where
  | status (sent : Target.AnyStatus) (version : Arinc615aVersion) (hsent : StatusSent past sent)
      (hvouched : Vouched past (sent.kind = .information) sent.status.code sent.status.description)
      (htype : fileTypeOf file.filename = sent.fileType ∨ fileTypeOf file.filename = .invalid)
      (hdata : sent.encode lib.raw version = .ok file.data)
  | targetInformation (targetsHardware : List TargetHardware) (type : CheckValueType)
      (version : Arinc615aVersion)
      (hcalled : HandlerCalled past (.targetInformation targetsHardware type))
      (htype : fileTypeOf file.filename = .loadConfigurationList ∨
        fileTypeOf file.filename = .invalid)
      (hdata : LoadConfigurationListFile.encode lib.raw
        { protocolVersion := version, targetsHardware } = .ok file.data)
      (hcheck : file.checkValue = lib.generateCheckValue type file.data)
  | downloadingList (files : List DownloadFileInformation) (version : Arinc615aVersion)
      (hcalled : HandlerCalled past (.downloadingList files))
      (htype : fileTypeOf file.filename = .operatorDefinedDownloadList ∨
        fileTypeOf file.filename = .invalid)
      (hdata : DownloadOperationListFile.encode lib.raw { protocolVersion := version, files } =
        .ok file.data)

/-- How the host comes to a request file that it sends. -/
inductive RequestFrom (lib : Library) (past : List NetworkObservation) (filename : Text)
    (data : Bytes) : Prop where
  | loadList (loads : List UploadLoad) (version : Arinc615aVersion)
      (hsent : UserSent past (.loadList loads))
      (htype : fileTypeOf filename = .uploadRequest ∨ fileTypeOf filename = .invalid)
      (hdata : UploadOperationRequestFile.encode lib.raw { protocolVersion := version, loads } =
        .ok data)
  | request (files : List Text) (userDefinedData : Bytes) (version : Arinc615aVersion)
      (hsent : UserSent past (.request files userDefinedData))
      (htype : fileTypeOf filename = .mediaDefinedDownloadRequest ∨
        fileTypeOf filename = .invalid)
      (hdata : DownloadOperationRequestFile.encode lib.raw
        { protocolVersion := version, files, userDefinedData } = .ok data)
  | answer (files : List Text) (version : Arinc615aVersion) (hsent : UserSent past (.answer files))
      (htype : fileTypeOf filename = .operatorDefinedDownloadAnswer ∨
        fileTypeOf filename = .invalid)
      (hdata : DownloadOperationAnswerFile.encode lib.raw { protocolVersion := version, files } =
        .ok data)

/-- The initialisation files that the target sends accept the operation. -/
def InitialisationFrom (lib : Library) (past : List NetworkObservation) (data : Bytes) : Prop :=
  (∃ version, InitializationFile.encode lib.raw
      { protocolVersion := version, response := { code := .operationAccepted } } = .ok data) ∧
    ∃ remote port, .target (.call (.sendInitFile remote data port)) ∈ past

/-- The host receives a file as what its name says. -/
def LinkFits (kind : OperationType) (file : SentFile) : Host.Transfer → Prop
  | .status _ => fileTypeOf file.filename = Host.statusFileType kind
  | .list checkValue =>
    (kind = .information ∧ fileTypeOf file.filename = .loadConfigurationList ∧
        checkValue = file.checkValue) ∨
      (kind = .operatorDefinedDownload ∧
        fileTypeOf file.filename = .operatorDefinedDownloadList)
  | .initialisation | .request => False

section

variable {lib : Library} {past more : List NetworkObservation}

theorem FileFrom.lasting {file : SentFile} (h : FileFrom lib past file) :
    FileFrom lib (past ++ more) file := by
  cases h with
  | status sent version hsent hvouched htype hdata =>
    exact .status sent version (lasting_statusSent hsent) hvouched.lasting htype hdata
  | targetInformation hw type version hcalled htype hdata hcheck =>
    exact .targetInformation hw type version (List.mem_append_left _ hcalled) htype hdata hcheck
  | downloadingList files version hcalled htype hdata =>
    exact .downloadingList files version (List.mem_append_left _ hcalled) htype hdata

theorem RequestFrom.lasting {filename : Text} {data : Bytes}
    (h : RequestFrom lib past filename data) : RequestFrom lib (past ++ more) filename data := by
  cases h with
  | loadList loads version hsent htype hdata =>
    exact .loadList loads version (List.mem_append_left _ hsent) htype hdata
  | request files userDefinedData version hsent htype hdata =>
    exact .request files userDefinedData version (List.mem_append_left _ hsent) htype hdata
  | answer files version hsent htype hdata =>
    exact .answer files version (List.mem_append_left _ hsent) htype hdata

theorem InitialisationFrom.lasting {data : Bytes} (h : InitialisationFrom lib past data) :
    InitialisationFrom lib (past ++ more) data := by
  obtain ⟨hencode, remote, port, hmem⟩ := h
  exact ⟨hencode, remote, port, List.mem_append_left _ hmem⟩

/-! ## What the host receives -/

/-- A status file that the host can read is one that the target has sent. -/
theorem received_statusFile {kind : OperationType} {file : SentFile}
    {received : Host.ReceivedStatus} (hfile : FileFrom lib past file)
    (htype : fileTypeOf file.filename = Host.statusFileType kind)
    (h : Host.Operation.receiveStatus lib kind file.data = some received) :
    Authentic lib kind past (.host (.call received.call)) ∧
      ∃ sent, StatusSent past sent ∧
        Vouched past (kind = .information) sent.status.code sent.status.description ∧
        received.status.code = sent.status.code ∧
        received.status.description = cutAtNul sent.status.description := by
  have hdecoded : ∀ {σ : Type} {outcome : Outcome Arinc615aException σ Unit} {object : σ},
      outcome.object? = some object → ∃ rest, outcome = .done () object rest := by
    intro σ outcome object heq
    cases outcome with
    | done _ o rest =>
      cases heq
      exact ⟨rest, rfl⟩
    | thrown => cases heq
  cases hfile with
  | status sent version hsent hvouched hsentType hdata =>
    rw [htype] at hsentType
    cases kind with
    | information =>
      obtain ⟨object, hobject, rfl⟩ := Option.map_eq_some_iff.mp h
      obtain ⟨rest, hdone⟩ := hdecoded hobject
      cases sent with
      | information status =>
        obtain ⟨-, rfl, -⟩ :=
          (InformationOperationStatusFile.decode_encode_done_iff lib.raw hdata).mp hdone
        exact ⟨⟨status, hsent, rfl⟩, _, hsent, hvouched, rfl, rfl⟩
      | upload | mediaDefinedDownload | operatorDefinedDownload =>
        rcases hsentType with hsame | hsame <;> cases hsame
    | upload =>
      obtain ⟨object, hobject, rfl⟩ := Option.map_eq_some_iff.mp h
      obtain ⟨rest, hdone⟩ := hdecoded hobject
      cases sent with
      | upload status =>
        obtain ⟨-, rfl, -⟩ :=
          (UploadOperationStatusFile.decode_encode_done_iff lib.raw hdata).mp hdone
        exact ⟨⟨status, hsent, rfl⟩, _, hsent, hvouched, rfl, rfl⟩
      | information | mediaDefinedDownload | operatorDefinedDownload =>
        rcases hsentType with hsame | hsame <;> cases hsame
    | mediaDefinedDownload | operatorDefinedDownload =>
      obtain ⟨object, hobject, rfl⟩ := Option.map_eq_some_iff.mp h
      obtain ⟨rest, hdone⟩ := hdecoded hobject
      -- both downloads have one kind of status file
      cases sent with
      | mediaDefinedDownload status =>
        obtain ⟨-, rfl, -⟩ :=
          (DownloadOperationStatusFile.decode_encode_done_iff lib.raw hdata).mp hdone
        exact ⟨⟨status, .inl hsent, rfl⟩, _, hsent, hvouched.mono (fun _ h => h) nofun, rfl, rfl⟩
      | operatorDefinedDownload status =>
        obtain ⟨-, rfl, -⟩ :=
          (DownloadOperationStatusFile.decode_encode_done_iff lib.raw hdata).mp hdone
        exact ⟨⟨status, .inr hsent, rfl⟩, _, hsent, hvouched.mono (fun _ h => h) nofun, rfl, rfl⟩
      | information | upload => rcases hsentType with hsame | hsame <;> cases hsame
  | targetInformation hw type version hcalled hsentType hdata hcheck =>
    rw [htype] at hsentType
    rcases hsentType with hsame | hsame <;> cases kind <;> cases hsame
  | downloadingList files version hcalled hsentType hdata =>
    rw [htype] at hsentType
    rcases hsentType with hsame | hsame <;> cases kind <;> cases hsame

/-- What the completions of the host are run with. -/
def Fed (lib : Library) (past : List NetworkObservation) (kind : OperationType) :
    Host.Event → Prop
  | .completed .initialisation .successful data => InitialisationFrom lib past data
  | .completed (.status id) .successful data =>
    ∃ file, FileFrom lib past file ∧ LinkFits kind file (.status id) ∧ file.data = data
  | .completed (.list checkValue) .successful data =>
    ∃ file, FileFrom lib past file ∧ LinkFits kind file (.list checkValue) ∧ file.data = data
  | _ => True

/-- A list that an information operation receives is the one that the handler of the target has
handed over. -/
theorem received_targetInformation {file : SentFile} (hfile : FileFrom lib past file)
    (htype : fileTypeOf file.filename = .loadConfigurationList) {object : LoadConfigurationListFile}
    {rest : Bytes}
    (h : LoadConfigurationListFile.decode lib.raw {} file.data = .done () object rest) :
    ∃ sent type, HandlerCalled past (.targetInformation sent type) ∧
      object.targetsHardware = sent.map TargetHardware.cutAtNul ∧
      file.checkValue = lib.generateCheckValue type file.data := by
  cases hfile with
  | status sent version hsent hvouched hsentType hdata =>
    rw [htype] at hsentType
    rcases hsentType with hsame | hsame <;> cases sent <;> cases hsame
  | targetInformation sent type version hcalled hsentType hdata hcheck =>
    obtain ⟨-, rfl, -⟩ := (LoadConfigurationListFile.decode_encode_done_iff lib.raw hdata).mp h
    exact ⟨sent, type, hcalled, rfl, hcheck⟩
  | downloadingList files version hcalled hsentType hdata =>
    rw [htype] at hsentType
    rcases hsentType with hsame | hsame <;> cases hsame

theorem received_downloadingList {file : SentFile} (hfile : FileFrom lib past file)
    (htype : fileTypeOf file.filename = .operatorDefinedDownloadList)
    {object : DownloadOperationListFile} {rest : Bytes}
    (h : DownloadOperationListFile.decode lib.raw {} file.data = .done () object rest) :
    ∃ sent, HandlerCalled past (.downloadingList sent) ∧
      object.files = sent.map DownloadFileInformation.cutAtNul := by
  cases hfile with
  | status sent version hsent hvouched hsentType hdata =>
    rw [htype] at hsentType
    rcases hsentType with hsame | hsame <;> cases sent <;> cases hsame
  | targetInformation sent type version hcalled hsentType hdata hcheck =>
    rw [htype] at hsentType
    rcases hsentType with hsame | hsame <;> cases hsame
  | downloadingList files version hcalled hsentType hdata =>
    obtain ⟨-, rfl, -⟩ := (DownloadOperationListFile.decode_encode_done_iff lib.raw hdata).mp h
    exact ⟨files, hcalled, rfl⟩

/-- The calls of a callback of the host are explained, if its files are. -/
theorem authentic_host {op : Host.Operation} {event : Host.Event} {o : Host.Output}
    (hfed : Fed lib past op.kind event)
    (hterminate : ∀ reason, event = .terminate reason → .event (.host (.terminate reason)) ∈ past)
    (h : Host.Origin lib op event o) : Authentic lib op.kind past (.host (.call o)) := by
  cases h with
  | bare hbare => cases o <;> first | exact trivial | cases hbare
  | initialise | send | loadList | request | answer | transfer | listTransfer => exact trivial
  | response data rest file hdecode =>
    obtain ⟨⟨version, hencode⟩, remote, port, hmem⟩ := hfed
    obtain ⟨-, rfl, -⟩ := (InitializationFile.decode_encode_done_iff lib.raw hencode).mp hdecode
    exact ⟨rfl, remote, data, port, hmem⟩
  | status id data received hreceive ho =>
    subst ho
    obtain ⟨file, hfile, hfits, rfl⟩ := hfed
    exact (received_statusFile hfile hfits hreceive).1
  | targetInformation checkValue data rest file hkind hdecode =>
    obtain ⟨sentFile, hfile, hfits, rfl⟩ := hfed
    rcases hfits with ⟨-, htype, rfl⟩ | ⟨hother, -⟩
    · obtain ⟨sent, type, hcalled, heq, hcheck⟩ := received_targetInformation hfile htype hdecode
      refine ⟨sent, type, hcalled, heq, fun hgenerated => decide_eq_true ?_⟩
      rw [hcheck, hgenerated]
    · rw [hkind] at hother
      cases hother
  | downloadingList checkValue data rest file hkind hdecode =>
    obtain ⟨sentFile, hfile, hfits, rfl⟩ := hfed
    rcases hfits with ⟨hother, -⟩ | ⟨-, htype⟩
    · rw [hkind] at hother
      cases hother
    · exact received_downloadingList hfile htype hdecode
  | failed description => exact .inl rfl
  | terminated reason description => exact .inr (.inl ⟨reason, hterminate reason rfl, rfl⟩)
  | refused data rest file hdecode hcode =>
    -- the target has accepted the operation
    obtain ⟨⟨version, hencode⟩, -⟩ := hfed
    obtain ⟨-, rfl, -⟩ := (InitializationFile.decode_encode_done_iff lib.raw hencode).mp hdecode
    exact absurd rfl hcode
  | final id data received hreceive =>
    obtain ⟨file, hfile, hfits, rfl⟩ := hfed
    obtain ⟨-, sent, hsent, hvouched, hcode, hdescription⟩ :=
      received_statusFile hfile hfits hreceive
    exact .inr (.inr (.inl ⟨sent, hsent, hvouched, hcode, hdescription⟩))
  | listed checkValue data rest file hkind hdecode =>
    obtain ⟨sentFile, hfile, hfits, rfl⟩ := hfed
    rcases hfits with ⟨-, htype, rfl⟩ | ⟨hother, -⟩
    · obtain ⟨sent, type, hcalled, -⟩ := received_targetInformation hfile htype hdecode
      exact .inr (.inr (.inr ⟨hkind, rfl, rfl, sent, type, hcalled⟩))
    · rw [hkind] at hother
      cases hother

/-- The host sends the request files that its user has handed over. -/
theorem requestFrom_host {op : Host.Operation} {event : Host.Event} {fileType : ProtocolFileType}
    {filename : Text} {data : Bytes}
    (hsent : ∀ request, event = .send request → UserSent past request)
    (h : Host.Origin lib op event (.transmitFile fileType filename data)) :
    RequestFrom lib past filename data := by
  cases h with
  | bare hbare => cases hbare
  | status id data received hreceive ho =>
    rcases Host.Operation.receiveStatus_call_cases hreceive with
      ⟨_, hcall⟩ | ⟨_, hcall⟩ | ⟨_, hcall⟩ <;> rw [hcall] at ho <;> cases ho
  | loadList loads _ hkind hencode =>
    exact .loadList loads _ (hsent _ rfl) (ProtocolFilename.fileTypeV_ofText_toText _ _) hencode
  | request files userDefinedData _ hkind hencode =>
    exact .request files userDefinedData _ (hsent _ rfl)
      (ProtocolFilename.fileTypeV_ofText_toText _ _) hencode
  | answer files _ hkind hencode =>
    exact .answer files _ (hsent _ rfl) (ProtocolFilename.fileTypeV_ofText_toText _ _) hencode

/-- A transfer that a request has started is for the file of the request. -/
theorem linkFits_host {op : Host.Operation} {file : SentFile} {remote : Endpoint}
    {transfer : Host.Transfer}
    (h : Host.Origin lib op (.tftpRequest remote .write file.filename
      { checksum := file.checkValue }) (.transferStart transfer)) :
    LinkFits op.kind file transfer := by
  cases h with
  | bare hbare => cases hbare
  | transfer _ _ _ _ id hhandling =>
    exact ((Host.Operation.handling_eq_status_iff ..).mp hhandling).1
  | listTransfer _ _ _ _ checkValue hhandling =>
    exact Host.Operation.handling_write_eq_list hhandling

/-! ## What the target receives -/

/-- The status of the target is explained after an event, if it was so before. -/
theorem vouched_target {op : Target.Operation} {event : Target.Event} {status : Status}
    (hbefore : Vouched past (op.statusV.kind = .information) op.statusV.status.code
      op.statusV.status.description)
    (hcalled : ∀ call, event = .call call → HandlerCalled past call)
    (hlist : ∀ data, op.statusV.kind = .information → event = .completed .list .successful data →
      ∃ targetsHardware type, HandlerCalled past (.targetInformation targetsHardware type))
    (h : Target.StatusFrom op event status) :
    Vouched past (op.statusV.kind = .information) status.code status.description := by
  cases h with
  | kept hcode hdescription => rwa [hcode, hdescription]
  | underWay hcode => exact .inr (.inl hcode)
  | aborted hcode => exact .inr (.inr (.inl hcode))
  | finished finalStatus description hcode hdescription =>
    refine .inr (.inr (.inr (.inl ⟨finalStatus, ?_, hcode⟩)))
    rw [hdescription]
    exact hcalled _ rfl
  | listSent data hkind hcode hdescription =>
    exact .inr (.inr (.inr (.inr ⟨hkind, hcode, hdescription, hlist data hkind rfl⟩)))

/-- The calls of a callback of the target are explained, if its file is one that the host has
sent. -/
theorem authentic_target {op : Target.Operation} {event : Target.Event} {o : Target.Output}
    (hreceived : ∀ data, event = .completed .request .successful data →
      ∃ filename, RequestFrom lib past filename data ∧
        fileTypeOf filename = Target.receivedFileType op.statusV.kind)
    (h : Target.Origin lib op event o) (kind : OperationType) :
    Authentic lib kind past (.target (.call o)) := by
  cases h with
  | plain hplain => cases o <;> first | exact trivial | cases hplain
  | initialisation | status | targetInformation | downloadingList | receive => exact trivial
  | loadList data rest file hkind hdecode =>
    obtain ⟨filename, hfrom, htype⟩ := hreceived data rfl
    rw [hkind] at htype
    cases hfrom with
    | loadList loads version hsent hsentType hdata =>
      obtain ⟨-, rfl, -⟩ :=
        (UploadOperationRequestFile.decode_encode_done_iff lib.raw hdata).mp hdecode
      exact ⟨loads, hsent, rfl⟩
    | request _ _ _ _ hsentType | answer _ _ _ hsentType =>
      rw [htype] at hsentType
      rcases hsentType with hsame | hsame <;> cases hsame
  | downloadingRequest data rest file hkind hdecode =>
    obtain ⟨filename, hfrom, htype⟩ := hreceived data rfl
    rw [hkind] at htype
    cases hfrom with
    | request files userDefinedData version hsent hsentType hdata =>
      obtain ⟨-, rfl, -⟩ :=
        (DownloadOperationRequestFile.decode_encode_done_iff lib.raw hdata).mp hdecode
      exact ⟨files, hsent, rfl⟩
    | loadList _ _ _ hsentType | answer _ _ _ hsentType =>
      rw [htype] at hsentType
      rcases hsentType with hsame | hsame <;> cases hsame
  | downloadingAnswer data rest file hkind hdecode =>
    obtain ⟨filename, hfrom, htype⟩ := hreceived data rfl
    rw [hkind] at htype
    cases hfrom with
    | answer files version hsent hsentType hdata =>
      obtain ⟨-, rfl, -⟩ :=
        (DownloadOperationAnswerFile.decode_encode_done_iff lib.raw hdata).mp hdecode
      exact ⟨files, hsent, rfl⟩
    | loadList _ _ _ hsentType | request _ _ _ _ hsentType =>
      rw [htype] at hsentType
      rcases hsentType with hsame | hsame <;> cases hsame

end

/-! ## Runs -/

/-- All that is on the network is explained, and so is the status of the target. -/
structure NetworkInv (lib : Library) (kind : OperationType) (s : Network)
    (past : List NetworkObservation) : Prop where
  hostKind : s.host.operation.kind = kind
  initialisations : ∀ data ∈ s.initialisations, InitialisationFrom lib past data
  files : ∀ file ∈ s.files, FileFrom lib past file
  links : ∀ link ∈ s.links,
    FileFrom lib past link.2 ∧ LinkFits kind link.2 link.1
  requests : ∀ request ∈ s.requests, RequestFrom lib past request.1 request.2
  accepted : ∀ request ∈ s.accepted, RequestFrom lib past request.1 request.2 ∧
    fileTypeOf request.1 = Target.receivedFileType s.target.operation.statusV.kind
  status : Vouched past (s.target.operation.statusV.kind = .information)
    s.target.operation.statusV.status.code s.target.operation.statusV.status.description
  lists : s.target.operation.statusV.kind = .information → .list ∈ s.target.loop.pending →
    ∃ targetsHardware type, HandlerCalled past (.targetInformation targetsHardware type)

section

variable {lib : Library} {kind : OperationType} {s : Network}
  {past more : List NetworkObservation}

theorem NetworkInv.lasting (h : NetworkInv lib kind s past) :
    NetworkInv lib kind s (past ++ more) where
  hostKind := h.hostKind
  initialisations data hdata := (h.initialisations data hdata).lasting
  files file hfile := (h.files file hfile).lasting
  links link hlink := ⟨(h.links link hlink).1.lasting, (h.links link hlink).2⟩
  requests request hrequest := (h.requests request hrequest).lasting
  accepted request hrequest :=
    ⟨(h.accepted request hrequest).1.lasting, (h.accepted request hrequest).2⟩
  status := h.status.lasting
  lists hkind hpending := by
    obtain ⟨hw, type, hcalled⟩ := h.lists hkind hpending
    exact ⟨hw, type, List.mem_append_left _ hcalled⟩

theorem mem_hostCalls {out : List Host.Observation} {o : Host.Output} :
    o ∈ hostCalls out ↔ .call o ∈ out := by
  unfold hostCalls
  rw [List.mem_filterMap]
  constructor
  · rintro ⟨observation, hmem, hcall⟩
    cases observation with
    | started => cases hcall
    | call output =>
      cases hcall
      exact hmem
  · intro hmem
    exact ⟨_, hmem, rfl⟩

theorem mem_targetCalls {out : List Target.Observation} {o : Target.Output} :
    o ∈ targetCalls out ↔ .call o ∈ out := by
  unfold targetCalls
  rw [List.mem_filterMap]
  constructor
  · rintro ⟨observation, hmem, hcall⟩
    cases observation with
    | started => cases hcall
    | call output =>
      cases hcall
      exact hmem
  · intro hmem
    exact ⟨_, hmem, rfl⟩

/-- What the host has on the network is explained, whatever it has been told. -/
theorem NetworkInv.afterHost (hinv : NetworkInv lib kind s past) {event : Host.Event}
    {host : Host.World} {out : List Host.Observation}
    (hstep : s.host.step lib event = some (host, out))
    (hsent : ∀ request, event = .send request → UserSent past request) :
    NetworkInv lib kind (s.afterHost host out) past := by
  have hcomes := Host.World.comes_step hstep
  have hkind := (Host.World.configured_step hstep).kind.trans hinv.hostKind
  refine ⟨hkind, hinv.initialisations, hinv.files, hinv.links, ?_, hinv.accepted, hinv.status,
    hinv.lists⟩
  refine List.forall_mem_append.mpr ⟨hinv.requests, fun request hrequest => ?_⟩
  obtain ⟨o, ho, htransmitted⟩ := List.mem_filterMap.mp hrequest
  cases o with
  | transmitFile fileType filename data =>
    cases htransmitted
    exact requestFrom_host hsent (hcomes _ (mem_hostCalls.mp ho))
  | _ => cases htransmitted

/-- A step of the host, after its event has been seen. -/
theorem NetworkInv.host (hinv : NetworkInv lib kind s past) {event : Host.Event} {host : Host.World}
    {out : List Host.Observation} (hstep : s.host.step lib event = some (host, out))
    (hfed : Fed lib past kind event)
    (hsent : ∀ request, event = .send request → UserSent past request)
    (hterminate : ∀ reason, event = .terminate reason →
      .event (.host (.terminate reason)) ∈ past) :
    NetworkInv lib kind (s.afterHost host out) past ∧
      ∀ o ∈ out.map NetworkObservation.host, Authentic lib kind past o := by
  have hcomes := Host.World.comes_step hstep
  refine ⟨hinv.afterHost hstep hsent, List.forall_mem_map.mpr fun o ho => ?_⟩
  rw [← hinv.hostKind] at hfed ⊢
  cases o with
  | started => trivial
  | call output => exact authentic_host hfed hterminate (hcomes output ho)

/-- The transfers that a request starts are linked with its file. -/
theorem NetworkInv.link (hinv : NetworkInv lib kind s past) {file : SentFile}
    (hfile : FileFrom lib past file) {transfers : List Host.Transfer}
    (hfits : ∀ transfer ∈ transfers, LinkFits kind file transfer) :
    NetworkInv lib kind
      { s with links := s.links ++ transfers.map fun transfer => (transfer, file) } past := by
  refine { hinv with links := ?_ }
  refine List.forall_mem_append.mpr ⟨hinv.links, List.forall_mem_map.mpr fun transfer ht => ?_⟩
  exact ⟨hfile, hfits transfer ht⟩

/-- A file that the target sends is explained. -/
theorem fileFrom_target {op : Target.Operation} {event : Target.Event} {o : Target.Output}
    {file : SentFile} (hfile : SentFile.ofOutput o = some file)
    (hmem : .target (.call o) ∈ past)
    (hvouched : ∀ {status : Status}, Target.StatusFrom op event status →
      Vouched past (op.statusV.kind = .information) status.code status.description)
    (hcalled : ∀ call, event = .call call → HandlerCalled past call)
    (h : Target.Origin lib op event o) : FileFrom lib past file := by
  cases h with
  | plain hplain =>
    cases o with
    | protocolFile => cases hplain
    | _ => cases hfile
  | initialisation | receive | loadList | downloadingRequest | downloadingAnswer => cases hfile
  | status remote sent data hkind hfrom hencode =>
    cases hfile
    exact .status sent _ ⟨_, _, _, _, _, hmem⟩ (hkind ▸ hvouched hfrom)
      (ProtocolFilename.fileTypeV_ofText_toText _ _) hencode
  | targetInformation remote hw type data hkind hencode =>
    cases hfile
    exact .targetInformation hw type _ (hcalled _ rfl)
      (ProtocolFilename.fileTypeV_ofText_toText _ _) hencode rfl
  | downloadingList remote files data hkind hencode =>
    cases hfile
    exact .downloadingList files _ (hcalled _ rfl) (ProtocolFilename.fileTypeV_ofText_toText _ _)
      hencode

/-- The list transfer of an information operation is started by its handler. -/
theorem listCalled_target {op : Target.Operation} {event : Target.Event} {o : Target.Output}
    (hkind : op.statusV.kind = .information) (hlaunch : o.command = .launch .list)
    (hcalled : ∀ call, event = .call call → HandlerCalled past call)
    (h : Target.Origin lib op event o) :
    ∃ targetsHardware type, HandlerCalled past (.targetInformation targetsHardware type) := by
  cases h with
  | plain hplain =>
    cases o with
    | protocolFile => cases hplain
    | _ => cases hlaunch
  | initialisation | receive | loadList | downloadingRequest | downloadingAnswer | status =>
    cases hlaunch
  | targetInformation remote hw type data _ hencode => exact ⟨hw, type, hcalled _ rfl⟩
  | downloadingList remote files data hother hencode =>
    rw [hkind] at hother
    cases hother

/-- A step of the target, after its event has been seen. -/
theorem NetworkInv.target (hinv : NetworkInv lib kind s past) {event : Target.Event}
    {target : Target.World} {out : List Target.Observation}
    (hstep : s.target.step lib event = some (target, out))
    (hcalled : ∀ call, event = .call call → HandlerCalled past call)
    (hreceived : ∀ data, event = .completed .request .successful data →
      ∃ filename, (filename, data) ∈ s.accepted) :
    NetworkInv lib kind (s.afterTarget target out) (past ++ out.map .target) ∧
      ∀ o ∈ out.map NetworkObservation.target, Authentic lib kind past o := by
  obtain ⟨hcomes, hstatus⟩ := Target.World.comes_step hstep
  have hkind := (Target.World.fixed_step hstep).kind
  have hlist : ∀ data, s.target.operation.statusV.kind = .information →
      event = .completed .list .successful data →
      ∃ hw type, HandlerCalled past (.targetInformation hw type) := by
    intro data hinformation hevent
    subst hevent
    obtain ⟨loop, hloop, -⟩ := Option.map_eq_some_iff.mp hstep
    exact hinv.lists hinformation (EventLoop.complete_eq_some hloop).1
  have hvouched : ∀ {status : Status}, Target.StatusFrom s.target.operation event status →
      Vouched past (s.target.operation.statusV.kind = .information) status.code
        status.description :=
    vouched_target hinv.status hcalled hlist
  have hseen : ∀ {o}, o ∈ targetCalls out →
      NetworkObservation.target (.call o) ∈ past ++ out.map .target := fun ho =>
    List.mem_append_right _ (List.mem_map_of_mem (mem_targetCalls.mp ho))
  constructor
  · refine { hinv.lasting with
      initialisations := ?_, files := ?_, accepted := ?_, status := ?_, lists := ?_ }
    · refine List.forall_mem_append.mpr ⟨hinv.lasting.initialisations, fun data hdata => ?_⟩
      obtain ⟨o, ho, hsent⟩ := List.mem_filterMap.mp hdata
      cases o with
      | sendInitFile remote data port =>
        cases hsent
        have horigin := hcomes _ (mem_targetCalls.mp ho)
        cases horigin with
        | plain hplain => cases hplain
        | initialisation _ _ _ hencode => exact ⟨⟨_, hencode⟩, _, _, hseen ho⟩
      | _ => cases hsent
    · refine List.forall_mem_append.mpr ⟨hinv.lasting.files, fun file hfile => ?_⟩
      obtain ⟨o, ho, hsent⟩ := List.mem_filterMap.mp hfile
      exact fileFrom_target hsent (hseen ho) (fun h => (hvouched h).lasting)
        (fun call hevent => List.mem_append_left _ (hcalled call hevent))
        (hcomes o (mem_targetCalls.mp ho))
    · intro request hrequest
      rw [Network.afterTarget, hkind]
      exact hinv.lasting.accepted request hrequest
    · rw [Network.afterTarget, hkind]
      exact (hvouched hstatus).lasting
    · intro hinformation hpending
      rw [Network.afterTarget, hkind] at hinformation
      rcases Target.World.launched_step hstep hpending with hbefore | ⟨o, ho, hlaunch⟩
      · exact hinv.lasting.lists hinformation hbefore
      · exact listCalled_target hinformation hlaunch
          (fun call hevent => List.mem_append_left _ (hcalled call hevent)) (hcomes o ho)
  · refine List.forall_mem_map.mpr fun o ho => ?_
    cases o with
    | started => trivial
    | call output =>
      refine authentic_target (fun data hevent => ?_) (hcomes output ho) kind
      obtain ⟨filename, hmem⟩ := hreceived data hevent
      exact ⟨filename, hinv.accepted _ hmem⟩

end

section

variable {lib : Library} {kind : OperationType} {s s' : Network}
  {past out calls : List NetworkObservation} {e : NetworkEvent}

/-- The event comes first, and explains what follows. -/
theorem explained_event (hinv : NetworkInv lib kind s' (past ++ [.event e] ++ calls))
    (hcalls : ∀ o ∈ calls, Authentic lib kind (past ++ [.event e]) o) :
    NetworkInv lib kind s' (past ++ .event e :: calls) ∧
      Preceded (Authentic lib kind) past (.event e :: calls) := by
  rw [List.append_cons]
  exact ⟨hinv, .cons trivial (.of_forall (lasting_authentic lib kind) hcalls)⟩

theorem fed_of_not_receivesFile {event : Host.Event} (h : receivesFile event = false)
    (kind : OperationType) : Fed lib past kind event := by
  cases event with
  | completed transfer status data =>
    cases status with
    | successful =>
      cases transfer with
      | request => trivial
      | initialisation | status | list => cases h
    | _ => cases transfer <;> trivial
  | _ => trivial

/-- A callback of the host, with the event that it belongs to. -/
theorem NetworkInv.hostStep (hinv : NetworkInv lib kind s past) {event : Host.Event}
    {host : Host.World} {seen : List Host.Observation}
    (hstep : s.host.step lib event = some (host, seen))
    (hfed : Fed lib (past ++ [.event e]) kind event)
    (hsent : ∀ request, event = .send request → e = .host (.send request))
    (hterminate : ∀ reason, event = .terminate reason → e = .host (.terminate reason)) :
    NetworkInv lib kind (s.afterHost host seen) (past ++ .event e :: seen.map .host) ∧
      Preceded (Authentic lib kind) past (.event e :: seen.map .host) := by
  have hmem : NetworkObservation.event e ∈ past ++ [.event e] :=
    List.mem_append_right _ List.mem_cons_self
  have hevent : NetworkInv lib kind s (past ++ [.event e]) := hinv.lasting
  obtain ⟨hnext, hcalls⟩ := hevent.host hstep hfed
    (fun request heq => by rw [UserSent, ← hsent request heq]; exact hmem)
    (fun reason heq => by rw [← hterminate reason heq]; exact hmem)
  exact explained_event hnext.lasting hcalls

/-- A callback of the target, with the event that it belongs to. -/
theorem NetworkInv.targetStep (hinv : NetworkInv lib kind s past) {event : Target.Event}
    {target : Target.World} {seen : List Target.Observation}
    (hstep : s.target.step lib event = some (target, seen))
    (hcalled : ∀ call, event = .call call → e = .target (.call call))
    (hreceived : ∀ data, event = .completed .request .successful data →
      ∃ filename, (filename, data) ∈ s.accepted) :
    NetworkInv lib kind (s.afterTarget target seen) (past ++ .event e :: seen.map .target) ∧
      Preceded (Authentic lib kind) past (.event e :: seen.map .target) := by
  have hmem : NetworkObservation.event e ∈ past ++ [.event e] :=
    List.mem_append_right _ List.mem_cons_self
  have hevent : NetworkInv lib kind s (past ++ [.event e]) := hinv.lasting
  obtain ⟨hnext, hcalls⟩ := hevent.target hstep
    (fun call heq => by rw [HandlerCalled, ← hcalled call heq]; exact hmem) hreceived
  exact explained_event hnext hcalls

/-- A step keeps the invariant, and all that it leads to is explained. -/
theorem Network.authentic_step (hinv : NetworkInv lib kind s past)
    (hstep : (networkSystem lib).step s e = some (s', out)) :
    NetworkInv lib kind s' (past ++ out) ∧ Preceded (Authentic lib kind) past out := by
  have hevent : NetworkInv lib kind s (past ++ [.event e]) := hinv.lasting
  cases e with
  | host event =>
    simp only [networkSystem, Network.step] at hstep
    split at hstep
    · cases hstep
    next hreceives =>
      obtain ⟨⟨host, seen⟩, hhost, heq⟩ := Option.map_eq_some_iff.mp hstep
      cases heq
      exact hinv.hostStep hhost (fed_of_not_receivesFile (eq_false_of_ne_true hreceives) _)
        (fun request heq => by rw [heq]) (fun reason heq => by rw [heq])
  | target event =>
    simp only [networkSystem, Network.step] at hstep
    split at hstep
    · cases hstep
    next hreceives =>
      obtain ⟨⟨target, seen⟩, htarget, heq⟩ := Option.map_eq_some_iff.mp hstep
      cases heq
      refine hinv.targetStep htarget (fun call heq => by rw [heq]) fun data heq => ?_
      subst heq
      exact absurd rfl hreceives
  | initialisationReceived data =>
    simp only [networkSystem, Network.step] at hstep
    split at hstep
    next hsent =>
      obtain ⟨⟨host, seen⟩, hhost, heq⟩ := Option.map_eq_some_iff.mp hstep
      cases heq
      exact hinv.hostStep hhost (hevent.initialisations data hsent) nofun nofun
    · cases hstep
  | requestArrives file remote =>
    simp only [networkSystem, Network.step] at hstep
    split at hstep
    next hsent =>
      obtain ⟨⟨host, seen⟩, hhost, heq⟩ := Option.map_eq_some_iff.mp hstep
      cases heq
      obtain ⟨hnext, hcalls⟩ := hinv.hostStep (e := .requestArrives file remote) hhost trivial
        nofun nofun
      refine ⟨hnext.link (hnext.files file hsent) fun transfer ht => ?_, hcalls⟩
      obtain ⟨o, ho, hstarted⟩ := List.mem_filterMap.mp ht
      cases o with
      | transferStart started =>
        cases hstarted
        rw [← hinv.hostKind]
        exact linkFits_host (Host.World.comes_step hhost _ (mem_hostCalls.mp ho))
      | _ => cases hstarted
    · cases hstep
  | fileReceived transfer file =>
    simp only [networkSystem, Network.step] at hstep
    split at hstep
    next hlinked =>
      obtain ⟨⟨host, seen⟩, hhost, heq⟩ := Option.map_eq_some_iff.mp hstep
      cases heq
      obtain ⟨hfile, hfits⟩ := hevent.links _ hlinked
      refine hinv.hostStep hhost ?_ nofun nofun
      cases transfer with
      | initialisation | request => cases hfits
      | status | list => exact ⟨file, hfile, hfits, rfl⟩
    · cases hstep
  | requestFileArrives filename data remote =>
    simp only [networkSystem, Network.step] at hstep
    split at hstep
    next hsent =>
      obtain ⟨⟨target, seen⟩, htarget, heq⟩ := Option.map_eq_some_iff.mp hstep
      cases heq
      obtain ⟨hnext, hcalls⟩ := hinv.targetStep (e := .requestFileArrives filename data remote)
        htarget nofun nofun
      refine ⟨{ hnext with accepted := ?_ }, hcalls⟩
      refine List.forall_mem_append.mpr ⟨hnext.accepted, fun request hrequest => ?_⟩
      split at hrequest
      next hreceives =>
        cases List.mem_singleton.mp hrequest
        refine ⟨hnext.requests _ hsent, ?_⟩
        obtain ⟨o, ho, hreceive⟩ := List.any_eq_true.mp hreceives
        cases o with
        | receiveFile remote' =>
          have horigin := (Target.World.comes_step htarget).1 _ (mem_targetCalls.mp ho)
          cases horigin with
          | plain hplain => cases hplain
          | receive _ _ _ _ htype =>
            rw [Network.afterTarget, (Target.World.fixed_step htarget).kind]
            exact htype
        | _ => cases hreceive
      · cases hrequest
    · cases hstep
  | requestFileReceived filename data =>
    simp only [networkSystem, Network.step] at hstep
    split at hstep
    next haccepted =>
      obtain ⟨⟨target, seen⟩, htarget, heq⟩ := Option.map_eq_some_iff.mp hstep
      cases heq
      refine hinv.targetStep htarget nofun fun data' heq => ?_
      cases heq
      exact ⟨filename, haccepted⟩
    · cases hstep

theorem networkInv_created (lib : Library) (kind targetKind : OperationType)
    (targetId targetId' : TargetId) (dlpTimeout : Nat) (portOption : Bool)
    (version : Arinc615aVersion) (rate : Nat) (port : UInt16) :
    NetworkInv lib kind (.created kind targetId dlpTimeout portOption
      (.ofOperation targetKind targetId' version rate port)) [] where
  hostKind := rfl
  initialisations := List.forall_mem_nil _
  files := List.forall_mem_nil _
  links := List.forall_mem_nil _
  requests := List.forall_mem_nil _
  accepted := List.forall_mem_nil _
  status := .inl (by cases targetKind <;> rfl)
  lists _ hpending := nomatch hpending

variable {targetKind : OperationType} {targetId targetId' : TargetId} {dlpTimeout rate : Nat}
  {portOption : Bool} {version : Arinc615aVersion} {port : UInt16} {events : List NetworkEvent}
  {after : Network} {seen : List NetworkObservation}

theorem Network.authentic_run
    (hrun : (networkSystem lib).run (.created kind targetId dlpTimeout portOption
      (.ofOperation targetKind targetId' version rate port)) events = some (after, seen)) :
    Preceded (Authentic lib kind) [] seen :=
  (networkSystem lib).run_preceded (fun _ _ _ _ _ hinv _ => Network.authentic_step hinv)
    (networkInv_created lib kind targetKind targetId targetId' dlpTimeout portOption version rate
      port) ((networkSystem lib).throughout_of_forall fun _ _ _ => trivial) hrun

/-- Over any run, everything that either side is told has been said by the other side before. -/
theorem network_authentic
    (hrun : (networkSystem lib).run (.created kind targetId dlpTimeout portOption
      (.ofOperation targetKind targetId' version rate port)) events = some (after, seen)) :
    ∀ pre o post, seen = pre ++ o :: post → Authentic lib kind pre o :=
  Network.authentic_run hrun

/-- The load list that the user of the host sends arrives at the handler of the target. -/
theorem network_loadList_arrives :
    ∃ after pre post,
      (networkSystem { raw := .bigEndian, generateCheckValue := fun _ _ => {} }).run
          (.created .upload (.ofText (text "ABCD_1")) 10 false
            (.ofOperation .upload (.ofText (text "ABCD_1")) .arinc615a34 1 59))
          [.host (.start .started), .target (.start ⟨1, 2⟩ none .started),
            .initialisationReceived [0, 0, 0, 9, 65, 52, 0, 1, 0],
            .host (.send (.loadList [⟨text "A.LUH", text "PN"⟩])),
            .requestFileArrives (text "ABCD_1.LUR")
              [0, 0, 0, 19, 65, 52, 0, 1, 6, 65, 46, 76, 85, 72, 0, 3, 80, 78, 0] ⟨1, 2⟩,
            .requestFileReceived (text "ABCD_1.LUR")
              [0, 0, 0, 19, 65, 52, 0, 1, 6, 65, 46, 76, 85, 72, 0, 3, 80, 78, 0]] =
        some (after, pre ++ .target (.call (.loadList [⟨text "A.LUH", text "PN"⟩])) :: post) ∧
      ∃ sent, .event (.host (.send (.loadList sent))) ∈ pre ∧
        [⟨text "A.LUH", text "PN"⟩] = sent.map UploadLoad.cutAtNul := by
  have hseen : ((networkSystem { raw := .bigEndian, generateCheckValue := fun _ _ => {} }).run
      (.created .upload (.ofText (text "ABCD_1")) 10 false
        (.ofOperation .upload (.ofText (text "ABCD_1")) .arinc615a34 1 59))
      [.host (.start .started), .target (.start ⟨1, 2⟩ none .started),
        .initialisationReceived [0, 0, 0, 9, 65, 52, 0, 1, 0],
        .host (.send (.loadList [⟨text "A.LUH", text "PN"⟩])),
        .requestFileArrives (text "ABCD_1.LUR")
          [0, 0, 0, 19, 65, 52, 0, 1, 6, 65, 46, 76, 85, 72, 0, 3, 80, 78, 0] ⟨1, 2⟩,
        .requestFileReceived (text "ABCD_1.LUR")
          [0, 0, 0, 19, 65, 52, 0, 1, 6, 65, 46, 76, 85, 72, 0, 3, 80, 78, 0]]).map
      (fun r => decide (.target (.call (.loadList [⟨text "A.LUH", text "PN"⟩])) ∈ r.2)) =
        some true := by
    decide +kernel
  obtain ⟨⟨after, seen⟩, hrun, hmem⟩ := Option.map_eq_some_iff.mp hseen
  obtain ⟨pre, post, rfl⟩ := List.append_of_mem (of_decide_eq_true hmem)
  exact ⟨after, pre, post, hrun, network_authentic hrun pre _ post rfl⟩

/-- The host finishes as completed only if the handler of the target has finished the operation as
completed, with a description that begins like this; or, for an information operation, if it has
handed over its list. -/
theorem network_completed_reported
    (hrun : (networkSystem lib).run (.created kind targetId dlpTimeout portOption
      (.ofOperation targetKind targetId' version rate port)) events = some (after, seen))
    {pre post : List NetworkObservation} {description : Text}
    (hseen : seen = pre ++ .host (.call (.finished .operationCompleted description)) :: post) :
    (∃ reported, .event (.target (.call (.finished .completed reported))) ∈ pre ∧
        description = cutAtNul reported) ∨
      (kind = .information ∧ description = [] ∧ ∃ targetsHardware type,
        .event (.target (.call (.targetInformation targetsHardware type))) ∈ pre) := by
  have hearned : Earned pre (kind = .information) .operationCompleted description :=
    Network.authentic_run hrun pre _ post hseen
  rcases hearned with h | ⟨reason, -, h⟩ | ⟨sent, -, hvouched, hcode, hdescription⟩ |
    ⟨hinformation, -, hempty, hlist⟩
  · cases h
  · cases reason <;> cases h
  · rw [← hcode] at hvouched
    rcases hvouched with h | h | h | ⟨finalStatus, hcalled, h⟩ | ⟨hinformation, -, hempty, hlist⟩
    · cases h
    · rcases h with h | h | h <;> cases h
    · cases h
    · cases finalStatus with
      | completed => exact .inl ⟨_, hcalled, hdescription⟩
      | _ => cases h
    · rw [hempty] at hdescription
      exact .inr ⟨hinformation, hdescription, hlist⟩
  · exact .inr ⟨hinformation, hempty, hlist⟩

end

/-- An upload whose target reports a success, with a description that the host reads up to its
NUL.  The status file arrives twice. -/
theorem network_upload_completed :
    let status : SentFile :=
      { filename := text "ABCD_1.LUS"
        data := [0, 0, 0, 25, 65, 52, 0, 3, 5, 79, 75, 0, 1, 0, 0, 0, 0, 0, 0, 0, 32, 32, 48, 0, 0]
        checkValue := {} }
    ∃ after pre post,
      (networkSystem { raw := .bigEndian, generateCheckValue := fun _ _ => {} }).run
          (.created .upload (.ofText (text "ABCD_1")) 10 false
            (.ofOperation .upload (.ofText (text "ABCD_1")) .arinc615a34 1 59))
          [.host (.start .started), .target (.start ⟨1, 2⟩ none .started),
            .initialisationReceived [0, 0, 0, 9, 65, 52, 0, 1, 0],
            .target (.completed .initialisation .successful []),
            .target (.call (.finished .completed [79, 75, 0, 1])),
            .target (.timerElapses .expired), .target (.timerHandler .expired),
            .requestArrives status ⟨1, 2⟩, .requestArrives status ⟨1, 2⟩,
            .fileReceived (.status 1) status] =
        some (after, pre ++ .host (.call (.finished .operationCompleted (text "OK"))) :: post) ∧
      ((∃ reported, .event (.target (.call (.finished .completed reported))) ∈ pre ∧
          text "OK" = cutAtNul reported) ∨
        (OperationType.upload = .information ∧ text "OK" = [] ∧ ∃ targetsHardware type,
          .event (.target (.call (.targetInformation targetsHardware type))) ∈ pre)) := by
  intro status
  have hseen : ((networkSystem { raw := .bigEndian, generateCheckValue := fun _ _ => {} }).run
      (.created .upload (.ofText (text "ABCD_1")) 10 false
        (.ofOperation .upload (.ofText (text "ABCD_1")) .arinc615a34 1 59))
      [.host (.start .started), .target (.start ⟨1, 2⟩ none .started),
        .initialisationReceived [0, 0, 0, 9, 65, 52, 0, 1, 0],
        .target (.completed .initialisation .successful []),
        .target (.call (.finished .completed [79, 75, 0, 1])),
        .target (.timerElapses .expired), .target (.timerHandler .expired),
        .requestArrives status ⟨1, 2⟩, .requestArrives status ⟨1, 2⟩,
        .fileReceived (.status 1) status]).map
      (fun r => decide (.host (.call (.finished .operationCompleted (text "OK"))) ∈ r.2)) =
        some true := by
    decide +kernel
  obtain ⟨⟨after, seen⟩, hrun, hmem⟩ := Option.map_eq_some_iff.mp hseen
  obtain ⟨pre, post, rfl⟩ := List.append_of_mem (of_decide_eq_true hmem)
  exact ⟨after, pre, post, hrun, network_completed_reported hrun rfl⟩

end Exchange

end Arinc615a
