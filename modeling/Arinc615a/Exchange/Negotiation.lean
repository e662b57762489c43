import Arinc615a.Host.Frame
import Arinc615a.Target.Negotiation
import Arinc615a.Target.Origins
import Arinc615a.Target.Protocol

/-!
# Option negotiation between host and target

Which options either side asks for, which ones the other side confirms, and what the negotiation
handlers make of the answer: `optionNegotiationHandler` and `negotiatedArinc615aOptions` of the
transfers in `host/implementation` and `target/implementation`.
-/

open Reasoning

namespace Arinc615a

open Files Information Tftp

/-! ## What is asked for, and what is confirmed -/

namespace Host.Operation

/-- The options of the request in `initialise`. -/
def initialisationOptions (options : OptionsLibrary) (op : Operation) (localPort : UInt16) :
    Options :=
  readOperationOptions options (if op.portOption then some localPort else none) [] {}

/-- What `statusFileRequest` and `listFileRequest` confirm: the checksum of a list of hardware, and
nothing else. -/
def protocolFileAnswer (options : OptionsLibrary) (kind : OperationType)
    (fileType : ProtocolFileType) (clientArinc615aOptions : Arinc615aOptions) : Options :=
  match kind, fileType with
  | .information, .loadConfigurationList =>
    { checksum := clientArinc615aOptions.checksum : Arinc615aOptions }.options options
  | _, _ => ∅

/-- What `fileTransfer` confirms. -/
def fileTransferAnswer (options : OptionsLibrary) (partNumber : Text) (checkValue : CheckValue) :
    Options :=
  let negotiated : Arinc615aOptions := {}
  let negotiated :=
    if partNumber.isEmpty then negotiated else { negotiated with partNumber := partNumber }
  let negotiated :=
    if checkValue.type = .notUsed then negotiated else { negotiated with checksum := checkValue }
  negotiated.options options

end Host.Operation

namespace Target.Operation

/-- What `sendInitFile` confirms. -/
def initFileAnswer (options : OptionsLibrary) (port : Option UInt16) : Options :=
  { port := port, partNumber := [], checksum := {} : Arinc615aOptions }.options options

/-- The options of a request in `protocolFileOperation`. -/
def protocolFileOptions (options : OptionsLibrary) (checkValue : CheckValue) : Options :=
  writeOperationOptions options [] checkValue

/-- A target reads the files of an upload, and writes those of a download. -/
def transferFileRequestType : OperationType → RequestType
  | .upload => .read
  | .information | .mediaDefinedDownload | .operatorDefinedDownload => .write

/-- The options of a request in `transferFile`. -/
def transferFileOptions (options : OptionsLibrary) (kind : OperationType) (partNumber : Text)
    (checkValue : CheckValue) : Options :=
  match transferFileRequestType kind with
  | .read => readOperationOptions options none partNumber checkValue
  | .write => writeOperationOptions options partNumber checkValue

def fileOptionNegotiation (optionNegotiationHandler : Text → CheckValue → Bool)
    (options : Arinc615aOptions) : Bool :=
  if options.port.isSome then false
  else optionNegotiationHandler options.partNumber options.checksum

end Target.Operation

namespace Exchange

variable (options : OptionsLibrary)

/-- No check value, or a valid one. -/
def Transferable (checkValue : CheckValue) : Prop := checkValue = {} ∨ options.Valid checkValue

/-- What the request handler behind a server makes of a request. -/
def serve {α : Type} (remote : Endpoint) (requestType : RequestType) (filename : Text)
    (clientOptions : Options) (requestHandler : Arinc615aOptions → α) : Option α :=
  match tftpRequestHandler options remote requestType filename .octet clientOptions with
  | .tftpRequestHandler _ _ _ read => some (requestHandler read)
  | .errorOperation .. => none

/-- The handler of the client accepts the answer, and nothing of it is left over. -/
def Negotiated (optionNegotiationHandler : Arinc615aOptions → Bool) (answer : Options) : Prop :=
  handleOptionNegotiation options optionNegotiationHandler answer = (true, ∅)

/-! ## Options are read as they have been sent -/

variable {options}

theorem checksum_eq_of_transferable {checkValue : CheckValue} {tftpOptions : Options}
    (htransferable : Transferable options checkValue)
    (h : OnlyChecksum options checkValue tftpOptions) :
    checksum options tftpOptions =
      ((true, checkValue),
        if checkValue = {} then tftpOptions else tftpOptions.erase checkValue.type.name) := by
  rcases htransferable with rfl | hvalid
  · rw [if_pos rfl]
    exact checksumLoop_missing options fun type htype => by rw [h type htype, if_neg (by simp)]
  · exact checksum_eq options hvalid h

theorem handleOptionNegotiation_options {answer : Arinc615aOptions}
    (htransferable : Transferable options answer.checksum)
    (optionNegotiationHandler : Arinc615aOptions → Bool) :
    handleOptionNegotiation options optionNegotiationHandler (answer.options options) =
      (optionNegotiationHandler answer, ∅) := by
  have h : Carries options (answer.options options) answer := fun _ => rfl
  have hunread := unread_options options answer
  unfold unread at hunread
  simp only [handleOptionNegotiation, h.port, h.partNumber, partNumber_read, Bool.not_true,
    Bool.false_eq_true, if_false, checksum_eq_of_transferable htransferable h.checksum, hunread]

theorem negotiated_options_iff {answer : Arinc615aOptions}
    (htransferable : Transferable options answer.checksum)
    (optionNegotiationHandler : Arinc615aOptions → Bool) :
    Negotiated options optionNegotiationHandler (answer.options options) ↔
      optionNegotiationHandler answer = true := by
  rw [Negotiated, handleOptionNegotiation_options htransferable, Prod.mk.injEq]
  exact and_iff_left rfl

/-- Whatever else a request asks for, its handler gets the options of the protocol. -/
theorem serve_options {α : Type} {asked : Arinc615aOptions} {clientOptions unrelated : Options}
    (htransferable : Transferable options asked.checksum)
    (hasked : clientOptions = asked.options options)
    (hunrelated : ∀ option : KnownOptions, option.name ∉ unrelated) (remote : Endpoint)
    (requestType : RequestType) (filename : Text) (requestHandler : Arinc615aOptions → α) :
    serve options remote requestType filename (unrelated ∪ clientOptions) requestHandler =
      some (requestHandler asked) := by
  have hcarries : Carries options (unrelated ∪ clientOptions) asked :=
    Carries.union (fun _ => by rw [hasked]) hunrelated
  simp only [serve, tftpRequestHandler, ne_eq, not_true_eq_false, if_false, hcarries.port,
    hcarries.partNumber, partNumber_read,
    checksum_eq_of_transferable htransferable hcarries.checksum]

theorem readOperationOptions_eq_options {port : Option UInt16} {partNumber : Text}
    {checkValue : CheckValue} (htransferable : Transferable options checkValue) :
    readOperationOptions options port partNumber checkValue =
      { port := port, partNumber := partNumber, checksum := checkValue : Arinc615aOptions }.options
        options := by
  rcases htransferable with rfl | hvalid
  · rfl
  · exact readOperationOptions_eq options ⟨port, partNumber, checkValue⟩ hvalid

theorem writeOperationOptions_eq_options {partNumber : Text} {checkValue : CheckValue}
    (htransferable : Transferable options checkValue) :
    writeOperationOptions options partNumber checkValue =
      { partNumber := partNumber, checksum := checkValue : Arinc615aOptions }.options options := by
  rcases htransferable with rfl | hvalid
  · rfl
  · exact writeOperationOptions_eq options ⟨none, partNumber, checkValue⟩ hvalid

/-! ## The initialisation file -/

theorem initialisationType_initialisationFileType (kind : OperationType) :
    Target.initialisationType (Host.Operation.initialisationFileType kind) = some kind := by
  cases kind <;> rfl

theorem isProtocolFilename_toText {targetId : TargetId} (htargetId : targetId.toBool = true)
    {fileType : ProtocolFileType} (htype : fileType ≠ .invalid) :
    ProtocolFilename.isProtocolFilename
      (ProtocolFilename.toText { targetIdV := targetId, fileTypeV := fileType }) = true := by
  rw [← ProtocolFilename.fileType_extension fileType] at htype
  obtain ⟨info, hmem, hextension⟩ := ProtocolFilename.fileType_ne_invalid_iff.mp htype
  refine ProtocolFilename.isProtocolFilename_iff.mpr ⟨targetId.toString, info, ?_, ?_, hmem⟩
  · rw [hextension]
    rfl
  · exact TargetId.isTargetId_iff.mpr ⟨_, _, rfl, Bool.and_eq_true_iff.mp htargetId⟩

/-- The dispatcher of the target takes the request of a host for one of its initialisation files. -/
theorem receivedTftpRequest_initialisation (lib : Library) (protocol : Target.Protocol)
    {op : Host.Operation} (htargetId : op.targetId.toBool = true) (remote : Endpoint)
    (asked : Arinc615aOptions) :
    protocol.receivedTftpRequest lib remote .read
        (op.protocolFilename (Host.Operation.initialisationFileType op.kind)) asked =
      some (protocol, [.newOperationRequest op.kind remote
        (if protocol.protocolVersion = .arinc615a34 then asked.port else none) op.targetId]) := by
  have hread := ProtocolFilename.ofText_toText htargetId
    (Host.Operation.initialisationFileType op.kind)
  have hname := isProtocolFilename_toText htargetId
    (show Host.Operation.initialisationFileType op.kind ≠ .invalid by cases op.kind <;> nofun)
  unfold Target.Protocol.receivedTftpRequest
  rw [Host.Operation.protocolFilename, hname, hread]
  simp only [Bool.not_true, Bool.false_eq_true, if_false]
  simp only [initialisationType_initialisationFileType]
  rfl

/-- Without the port option, the target keeps the port of the configuration. -/
theorem hostPort_start (lib : Library) (target : Target.Operation) (remote : Endpoint)
    (port : Option UInt16) (result : Target.Operation.StartResult) :
    (target.start lib remote port result).1.hostPort = port.getD target.hostPort := by
  have hsend : ∀ op : Target.Operation,
      (op.sendInitFile lib remote port result).1.hostPort = op.hostPort := by
    intro op
    unfold Target.Operation.sendInitFile
    split
    · rfl
    · cases result <;> rfl
  unfold Target.Operation.start
  cases port with
  | none => exact hsend _
  | some port => exact hsend _

/-- The initialisation file of a host is negotiated exactly if the host does not ask for a port, or
the target speaks the version that knows the option; and then the target sends its files to the port
at which the host listens. -/
theorem initialisation_negotiated_iff (lib : Library) (op : Host.Operation)
    (protocol : Target.Protocol) (remote : Endpoint) (localPort : UInt16) (unrelated : Options)
    (hunrelated : ∀ option : KnownOptions, option.name ∉ unrelated)
    (htargetId : op.targetId.toBool = true)
    (hlocal : op.portOption = false → localPort = protocol.tftpServerPort) :
    ∃ port,
      serve options remote .read
          (op.protocolFilename (Host.Operation.initialisationFileType op.kind))
          (unrelated ∪ op.initialisationOptions options localPort)
          (protocol.receivedTftpRequest lib remote .read
            (op.protocolFilename (Host.Operation.initialisationFileType op.kind))) =
        some (some (protocol, [.newOperationRequest op.kind remote port op.targetId])) ∧
      (Negotiated options (op.initialisationFileOptionsNegotiation localPort)
          (Target.Operation.initFileAnswer options port) ↔
        (op.portOption = true → protocol.protocolVersion = .arinc615a34)) ∧
      ((op.portOption = true → protocol.protocolVersion = .arinc615a34) →
        ∀ target : Target.Operation, target.hostPort = protocol.tftpServerPort → ∀ result,
          (target.start lib remote port result).1.hostPort = localPort) := by
  have hasked : op.initialisationOptions options localPort =
      { port := if op.portOption then some localPort else none : Arinc615aOptions }.options
        options :=
    readOperationOptions_eq_options (.inl rfl)
  refine ⟨if protocol.protocolVersion = .arinc615a34 then
    if op.portOption then some localPort else none else none, ?_, ?_,
    fun hversion target hport result => ?_⟩
  · rw [serve_options (.inl rfl) hasked hunrelated,
      receivedTftpRequest_initialisation lib protocol htargetId]
  · unfold Target.Operation.initFileAnswer
    rw [negotiated_options_iff (.inl rfl)]
    unfold Host.Operation.initialisationFileOptionsNegotiation
    cases op.portOption with
    | true => by_cases hversion : protocol.protocolVersion = .arinc615a34 <;> simp [hversion]
    | false => simp
  · rw [hostPort_start]
    cases hoption : op.portOption with
    | true => simp [hversion hoption]
    | false => simpa [hport] using (hlocal hoption).symm

/-- A target of version 2 confirms no port. -/
theorem initialisation_negotiated_iff_a2 :
    let op : Host.Operation :=
      { kind := .upload, targetId := .ofText (text "ABCD_1"), dlpTimeout := 10, portOption := true }
    ∃ port, ¬Negotiated .hexadecimal (op.initialisationFileOptionsNegotiation 1024)
      (Target.Operation.initFileAnswer .hexadecimal port) := by
  intro op
  obtain ⟨port, -, hiff, -⟩ := @initialisation_negotiated_iff .hexadecimal
    { raw := .bigEndian, generateCheckValue := fun _ _ => {} } op
    { protocolVersion := .arinc615a2, tftpServerPort := 59 } ⟨1, 2⟩ 1024
    (AList.singleton (text "blksize") (text "1024"))
    (fun option => by cases option <;> decide) (by decide +kernel) nofun
  exact ⟨port, fun h => absurd (hiff.mp h rfl) (by decide)⟩

/-! ## Protocol files -/

/-- Only a list of hardware has a checksum, and this one is confirmed. -/
theorem protocolFileAnswer_eq (options : OptionsLibrary) {lib : Library} {op : Target.Operation}
    {event : Target.Event}
    {remote : Endpoint} {fileType : ProtocolFileType} {filename : Text} {data : Bytes}
    {checkValue : CheckValue} {transfer : Target.Transfer}
    (h : Target.Origin lib op event
      (.protocolFile remote fileType filename data checkValue transfer)) :
    filename = op.protocolFilename fileType ∧
      Host.Operation.protocolFileAnswer options op.statusV.kind fileType
          { checksum := checkValue } =
        { checksum := checkValue : Arinc615aOptions }.options options ∧
      (checkValue = {} ∨ ∃ type, checkValue = lib.generateCheckValue type data) := by
  have hnone : ∀ kind type, Host.Operation.protocolFileAnswer options kind type {} =
      ({} : Arinc615aOptions).options options := by
    intro kind type
    unfold Host.Operation.protocolFileAnswer
    split
    · rfl
    · rfl
  cases h with
  | plain hplain => cases hplain
  | status remote sent data hkind hfrom hencode => exact ⟨rfl, hnone _ _, .inl rfl⟩
  | targetInformation remote targetsHardware type data hkind hencode =>
    rw [hkind]
    exact ⟨rfl, rfl, .inr ⟨type, rfl⟩⟩
  | downloadingList remote files data hkind hencode => exact ⟨rfl, hnone _ _, .inl rfl⟩

/-- A protocol file is sent under its name, and what its host confirms is what it is sent with. -/
def Fits (options : OptionsLibrary) (kind : OperationType) (targetId : TargetId) :
    Target.Observation → Prop
  | .call (.protocolFile _ fileType filename _ checkValue _) =>
    filename = ProtocolFilename.toText { targetIdV := targetId, fileTypeV := fileType } ∧
      Host.Operation.protocolFileAnswer options kind fileType { checksum := checkValue } =
        { checksum := checkValue : Arinc615aOptions }.options options ∧
      Transferable options checkValue
  | _ => True

theorem fits_of_origin {lib : Library} {op : Target.Operation} {event : Target.Event}
    {kind : OperationType} {targetId : TargetId} {out : List Target.Observation}
    (htargetId : op.targetId = targetId) (hkind : op.statusV.kind = kind)
    (hgenerate : ∀ type data, Transferable options (lib.generateCheckValue type data))
    (h : ∀ o, .call o ∈ out → Target.Origin lib op event o) :
    ∀ o ∈ out, Fits options kind targetId o := by
  intro o ho
  cases o with
  | started => trivial
  | call output =>
    cases output with
    | protocolFile remote fileType filename data checkValue transfer =>
      obtain ⟨hname, hanswer, hchecksum⟩ := protocolFileAnswer_eq options (h _ ho)
      rw [hkind] at hanswer
      refine ⟨?_, hanswer, ?_⟩
      · rw [hname, Target.Operation.protocolFilename, htargetId]
      · rcases hchecksum with rfl | ⟨type, rfl⟩
        · exact .inl rfl
        · exact hgenerate _ _
    | _ => trivial

/-- The status files and lists that a target sends are negotiated with every host of its class. -/
theorem protocolFiles_negotiated {lib : Library} {kind : OperationType} {targetId : TargetId}
    {version : Arinc615aVersion} {rate : Nat} {port : UInt16} {events : List Target.Event}
    {w : Target.World} {out : List Target.Observation} (htargetId : targetId.toBool = true)
    (hgenerate : ∀ type data, Transferable options (lib.generateCheckValue type data))
    (hrun : (Target.system lib).run (.ofOperation kind targetId version rate port) events =
      some (w, out))
    {remote : Endpoint} {fileType : ProtocolFileType} {filename : Text} {data : Bytes}
    {checkValue : CheckValue} {transfer : Target.Transfer}
    (hsent : .call (.protocolFile remote fileType filename data checkValue transfer) ∈ out)
    (sender : Endpoint) (unrelated : Options)
    (hunrelated : ∀ option : KnownOptions, option.name ∉ unrelated) :
    ∃ answer,
      serve options sender .write filename
          (unrelated ∪ Target.Operation.protocolFileOptions options checkValue)
          (Host.Operation.protocolFileAnswer options kind
            (ProtocolFilename.ofText filename).fileTypeV) = some answer ∧
      Negotiated options (Target.Operation.protocolFileOptionsNegotiation checkValue) answer := by
  have hstep : ∀ s e s' out,
      (s.operation.targetId = targetId ∧ s.operation.statusV.kind = kind) → True →
      (Target.system lib).step s e = some (s', out) →
      (s'.operation.targetId = targetId ∧ s'.operation.statusV.kind = kind) ∧
        ∀ o ∈ out, Fits options kind targetId o := by
    intro s e s' out hinv _ hstep
    have hfixed := Target.World.fixed_step hstep
    exact ⟨⟨hfixed.targetId.trans hinv.1, hfixed.kind.trans hinv.2⟩,
      fits_of_origin hinv.1 hinv.2 hgenerate (Target.World.comes_step hstep).1⟩
  have hkind : (Target.World.ofOperation kind targetId version rate port).operation.statusV.kind =
      kind := by
    cases kind <;> rfl
  have hfits := (Target.system lib).forall_run hstep ⟨rfl, hkind⟩
    ((Target.system lib).throughout_of_forall fun _ _ _ => trivial) hrun
  obtain ⟨rfl, hanswer, htransferable⟩ := hfits _ hsent
  have hasked : Target.Operation.protocolFileOptions options checkValue =
      { checksum := checkValue : Arinc615aOptions }.options options :=
    writeOperationOptions_eq_options htransferable
  refine ⟨_, serve_options htransferable hasked hunrelated _ _ _ _, ?_⟩
  · rw [ProtocolFilename.ofText_toText htargetId, hanswer, negotiated_options_iff htransferable]
    unfold Target.Operation.protocolFileOptionsNegotiation
    by_cases hnone : checkValue = {} <;> simp [hnone]

/-- A list of hardware with a checksum. -/
theorem protocolFiles_negotiated_checksum :
    let checkValue : CheckValue := ⟨.crc16, [0x12, 0xAB]⟩
    ∃ answer,
      serve .hexadecimal ⟨1, 1024⟩ .write (text "ABCD_1.LCL")
          (AList.singleton (text "blksize") (text "1024") ∪
            Target.Operation.protocolFileOptions .hexadecimal checkValue)
          (Host.Operation.protocolFileAnswer .hexadecimal .information
            (ProtocolFilename.ofText (text "ABCD_1.LCL")).fileTypeV) = some answer ∧
      Negotiated .hexadecimal (Target.Operation.protocolFileOptionsNegotiation checkValue)
        answer := by
  intro checkValue
  have hseen : ((Target.system { raw := .bigEndian, generateCheckValue := fun type _ =>
        if type = .crc16 then ⟨.crc16, [0x12, 0xAB]⟩ else {} }).run
      (.ofOperation .information (.ofText (text "ABCD_1")) .arinc615a34 1 59)
      [.start ⟨1, 2⟩ none .started, .completed .initialisation .successful [],
        .call (.targetInformation [] .crc16)]).map
      (fun r => decide (.call (.protocolFile ⟨1, 59⟩ .loadConfigurationList (text "ABCD_1.LCL")
        [0, 0, 0, 8, 65, 52, 0, 0] checkValue .list) ∈ r.2)) = some true := by
    decide +kernel
  obtain ⟨⟨w, out⟩, hrun, hsent⟩ := Option.map_eq_some_iff.mp hseen
  refine protocolFiles_negotiated (by decide +kernel) (fun type _ => ?_) hrun
    (of_decide_eq_true hsent) ⟨1, 1024⟩ _ fun option => by cases option <;> decide
  dsimp only
  split
  · exact .inr rfl
  · exact .inl rfl

/-! ## Files of loads and downloads -/

theorem fileTransferAnswer_eq {partNumber : Text} {checkValue : CheckValue}
    (htransferable : Transferable options checkValue) :
    Host.Operation.fileTransferAnswer options partNumber checkValue =
      { partNumber := partNumber, checksum := checkValue : Arinc615aOptions }.options options := by
  have hchecksum : checkValue.type = .notUsed → checkValue = {} := by
    rcases htransferable with rfl | hvalid
    · exact fun _ => rfl
    · exact options.notUsed_of_valid checkValue hvalid
  have hpartNumber : ∀ checksum : CheckValue,
      (if partNumber.isEmpty then ({ checksum := checksum } : Arinc615aOptions)
        else { partNumber := partNumber, checksum := checksum }) =
      { partNumber := partNumber, checksum := checksum } := by
    intro checksum
    cases partNumber <;> rfl
  unfold Host.Operation.fileTransferAnswer
  by_cases hnone : checkValue.type = .notUsed
  · rw [hchecksum hnone, ← hpartNumber]
    rfl
  · dsimp only
    rw [if_neg hnone, ← hpartNumber]
    cases partNumber <;> rfl

/-- A request of a target for a file reaches the host with the part number and the check value that
the target asks for; and whatever the handler of the host confirms, the handler of the target
decides on just that. -/
theorem fileTransfer_negotiated_iff (op : Host.Operation) (kind : OperationType) (remote : Endpoint)
    (filename partNumber : Text) (checkValue : CheckValue) (unrelated : Options)
    (htransferable : Transferable options checkValue)
    (hunrelated : ∀ option : KnownOptions, option.name ∉ unrelated) :
    serve options remote (Target.Operation.transferFileRequestType kind) filename
        (unrelated ∪ Target.Operation.transferFileOptions options kind partNumber checkValue)
        (op.tftpRequest remote (Target.Operation.transferFileRequestType kind) filename) =
      some (op.tftpRequest remote (Target.Operation.transferFileRequestType kind) filename
        { partNumber := partNumber, checksum := checkValue }) ∧
    ∀ partNumber' checkValue', Transferable options checkValue' → ∀ optionNegotiationHandler,
      (Negotiated options (Target.Operation.fileOptionNegotiation optionNegotiationHandler)
          (Host.Operation.fileTransferAnswer options partNumber' checkValue') ↔
        optionNegotiationHandler partNumber' checkValue' = true) := by
  constructor
  · have hasked : Target.Operation.transferFileOptions options kind partNumber checkValue =
        { partNumber := partNumber, checksum := checkValue : Arinc615aOptions }.options
          options := by
      unfold Target.Operation.transferFileOptions
      split
      · exact readOperationOptions_eq_options htransferable
      · exact writeOperationOptions_eq_options htransferable
    exact serve_options htransferable hasked hunrelated _ _ _ _
  · intro partNumber' checkValue' htransferable' handler
    rw [fileTransferAnswer_eq htransferable', negotiated_options_iff htransferable']
    rfl

/-- The host confirms the part number, but not the check value. -/
theorem fileTransfer_negotiated_iff_partNumber :
    ¬Negotiated .hexadecimal
      (Target.Operation.fileOptionNegotiation fun partNumber checkValue =>
        partNumber = text "PN" && checkValue = ⟨.crc16, [0x12, 0xAB]⟩)
      (Host.Operation.fileTransferAnswer .hexadecimal (text "PN") {}) := by
  intro h
  have hiff := @fileTransfer_negotiated_iff .hexadecimal
    { kind := .upload, targetId := .ofText (text "ABCD_1"), dlpTimeout := 10, portOption := false }
    .upload ⟨1, 1024⟩ (text "LOAD.LUH") (text "PN") ⟨.crc16, [0x12, 0xAB]⟩ ∅ (.inr rfl)
    (fun option => by cases option <;> decide)
  exact absurd ((hiff.2 (text "PN") {} (.inl rfl) _).mp h) (by decide)

end Exchange

end Arinc615a
