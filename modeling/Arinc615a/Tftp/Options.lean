import Mathlib.Data.List.AList
import Arinc615a.Reasoning.Numeral
import Arinc615a.Tftp

/-!
# Options of the protocol in TFTP requests

`tftp/Arinc615aOptions.cpp`, and the four places that turn the options into texts or read them
back: the client operations when they send a request and when the server has answered, and the
request handler of the server.
-/

open Reasoning

namespace Arinc615a.Tftp

/-- `::Tftp::Packets::Options`: a value for each name. -/
abbrev Options := AList fun _ : Text => Text

/-- `try_emplace`: a value that is there already is kept. -/
def Options.tryEmplace (options : Options) (name value : Text) : Options :=
  if name ∈ options then options else options.insert name value

/-- What the options take from the TFTP library and from the check values of ARINC 649. -/
structure OptionsLibrary where
  /-- `Options_getOption< uint16_t >`: whether the option is valid, its value, and what is left. -/
  getOption : Options → Text → Bool × Option UInt16 × Options
  /-- `CheckValue( type, checkValue )`, where `none` stands for an exception. -/
  checkValue : CheckValueType → Text → Option CheckValue
  /-- `CheckValue::operator bool` -/
  isSet : CheckValue → Bool
  /-- `CheckValue::toString` -/
  toText : CheckValue → Text
  /-- The types and bytes that a `CheckValue` can have. -/
  Valid : CheckValue → Prop
  /-- An option that is missing is not an error. -/
  getOption_missing : ∀ options name, options.lookup name = none →
    (getOption options name).1 = true ∧ (getOption options name).2.1 = none
  getOption_writeDecimal : ∀ options name (value : UInt16),
    options.lookup name = some (Numeral.writeDecimal value.toNat) →
    (getOption options name).1 = true ∧ (getOption options name).2.1 = some value
  /-- The option is taken out, whatever its value is. -/
  getOption_rest : ∀ options name, (getOption options name).2.2 = options.erase name
  checkValue_toText : ∀ value, Valid value → value.type ≠ .notUsed →
    checkValue value.type (toText value) = some value ∧ isSet value = true
  notUsed_of_valid : ∀ value, Valid value → value.type = .notUsed → value = {}
  isSet_noCheckValue : isSet {} = false

/-! ## Names -/

inductive KnownOptions where
  | partNumber
  | checksumCrc8
  | checksumCrc16
  | checksumCrc32
  | checksumMd5
  | checksumSha1
  | checksumSha256
  | checksumSha512
  | checksumCrc64
  | port
  deriving DecidableEq, Repr

/-- `Arinc615aOptions_name( KnownOptions )` -/
def KnownOptions.name : KnownOptions → Text
  | .partNumber => text "part number"
  | .checksumCrc8 => text "checksum_1"
  | .checksumCrc16 => text "checksum_2"
  | .checksumCrc32 => text "checksum_3"
  | .checksumMd5 => text "checksum_4"
  | .checksumSha1 => text "checksum_5"
  | .checksumSha256 => text "checksum_6"
  | .checksumSha512 => text "checksum_7"
  | .checksumCrc64 => text "checksum_8"
  | .port => text "port"

/-- `Arinc615aOptions_name( CheckValueType )`, a second table of the same names. -/
def CheckValueType.name : CheckValueType → Text
  | .crc8 => text "checksum_1"
  | .crc16 => text "checksum_2"
  | .crc32 => text "checksum_3"
  | .md5 => text "checksum_4"
  | .sha1 => text "checksum_5"
  | .sha256 => text "checksum_6"
  | .sha512 => text "checksum_7"
  | .crc64 => text "checksum_8"
  | .notUsed => []

/-- The types in the order in which their options are looked for. -/
def checksumTypes : List CheckValueType :=
  [.crc8, .crc16, .crc32, .md5, .sha1, .sha256, .sha512, .crc64]

theorem mem_checksumTypes {type : CheckValueType} : type ∈ checksumTypes ↔ type ≠ .notUsed := by
  cases type <;> decide

theorem nodup_checksumTypes : (checksumTypes.map CheckValueType.name).Nodup := by decide

/-- The known option of a type. -/
def CheckValueType.knownOption : CheckValueType → Option KnownOptions
  | .crc8 => some .checksumCrc8
  | .crc16 => some .checksumCrc16
  | .crc32 => some .checksumCrc32
  | .md5 => some .checksumMd5
  | .sha1 => some .checksumSha1
  | .sha256 => some .checksumSha256
  | .sha512 => some .checksumSha512
  | .crc64 => some .checksumCrc64
  | .notUsed => none

/-- The two tables agree. -/
theorem CheckValueType.name_knownOption {type : CheckValueType} {option : KnownOptions}
    (h : type.knownOption = some option) : type.name = option.name := by
  cases type <;> cases h <;> rfl

/-! ## Writing options -/

/-- `Arinc615aOptions::options` -/
def Arinc615aOptions.options (lib : OptionsLibrary) (options : Arinc615aOptions) : Options :=
  let tftpOptions : Options := ∅
  let tftpOptions := match options.port with
    | some port => tftpOptions.tryEmplace KnownOptions.port.name (Numeral.writeDecimal port.toNat)
    | none => tftpOptions
  let tftpOptions :=
    if options.partNumber.isEmpty then tftpOptions
    else tftpOptions.tryEmplace KnownOptions.partNumber.name options.partNumber
  if options.checksum = {} then tftpOptions
  else tftpOptions.tryEmplace options.checksum.type.name (lib.toText options.checksum)

/-- The options of `WriteOperationImpl::tftpOperation`. -/
def writeOperationOptions (lib : OptionsLibrary) (partNumberOption : Text)
    (checksumOption : CheckValue) : Options :=
  let additionalOptions : Options := ∅
  let additionalOptions :=
    if partNumberOption.isEmpty then additionalOptions
    else additionalOptions.tryEmplace KnownOptions.partNumber.name partNumberOption
  if checksumOption.type = .notUsed then additionalOptions
  else additionalOptions.tryEmplace checksumOption.type.name (lib.toText checksumOption)

/-- The options of `ReadOperationImpl::tftpOperation`, which alone can ask for a port. -/
def readOperationOptions (lib : OptionsLibrary) (portOption : Option UInt16)
    (partNumberOption : Text) (checksumOption : CheckValue) : Options :=
  let additionalOptions : Options := ∅
  let additionalOptions := match portOption with
    | some port =>
      additionalOptions.tryEmplace KnownOptions.port.name (Numeral.writeDecimal port.toNat)
    | none => additionalOptions
  let additionalOptions :=
    if partNumberOption.isEmpty then additionalOptions
    else additionalOptions.tryEmplace KnownOptions.partNumber.name partNumberOption
  if checksumOption.type = .notUsed then additionalOptions
  else additionalOptions.tryEmplace checksumOption.type.name (lib.toText checksumOption)

/-! ## Reading options -/

/-- The loop of `Arinc615aOptions_checksum` over the remaining types. -/
def checksumLoop (lib : OptionsLibrary) :
    List CheckValueType → Bool × CheckValue → Options → (Bool × CheckValue) × Options
  | [], retVal, options => (retVal, options)
  | type :: types, retVal, options =>
    match options.lookup type.name with
    | none => checksumLoop lib types retVal options
    | some option =>
      let options := options.erase type.name
      -- another checksum option has been found already
      if retVal ≠ (true, {}) then ((false, {}), options)
      else
        match lib.checkValue type option with
        | none => ((false, {}), options)
        | some checkValue =>
          if lib.isSet checkValue then checksumLoop lib types (true, checkValue) options
          else ((false, {}), options)

/-- `Arinc615aOptions_checksum`: whether there is at most one checksum option, and that a valid
one, its value, and the options that are left. -/
def checksum (lib : OptionsLibrary) (options : Options) : (Bool × CheckValue) × Options :=
  checksumLoop lib checksumTypes (true, {}) options

/-- `handleOptionNegotiation` of the client operations, with the options that are left for the TFTP
operation to reject. -/
def handleOptionNegotiation (lib : OptionsLibrary)
    (optionNegotiationHandler : Arinc615aOptions → Bool) (serverOptions : Options) :
    Bool × Options :=
  let options : Arinc615aOptions := {}
  let (portValid, portValue, serverOptions) := lib.getOption serverOptions KnownOptions.port.name
  if !portValid then (false, serverOptions)
  else
    let options := { options with port := portValue }
    let partNumber := serverOptions.lookup KnownOptions.partNumber.name
    let serverOptions := serverOptions.erase KnownOptions.partNumber.name
    let options := match partNumber with
      | some partNumber => { options with partNumber := partNumber }
      | none => options
    -- whether the checksum options are valid is not looked at
    let ((_, checksumValue), serverOptions) := checksum lib serverOptions
    let options := { options with checksum := checksumValue }
    (optionNegotiationHandler options, serverOptions)

inductive TransferMode where
  | octet
  | netascii
  | mail
  deriving DecidableEq, Repr

/-- What the server does with a request. -/
inductive ServerReaction where
  | errorOperation (remote : Endpoint) (errorCode : ErrorCode) (errorMessage : String)
  | tftpRequestHandler (remote : Endpoint) (requestType : RequestType) (filename : Text)
      (options : Arinc615aOptions)
  deriving DecidableEq, Repr

/-- `ServerImpl::tftpRequestHandler`; options that are not known are ignored. -/
def tftpRequestHandler (lib : OptionsLibrary) (remote : Endpoint) (requestType : RequestType)
    (filename : Text) (mode : TransferMode) (additionalClientOptions : Options) : ServerReaction :=
  if mode ≠ .octet then .errorOperation remote .illegalTftpOperation "Wrong transfer mode"
  else
    let options : Arinc615aOptions := {}
    let (_, portValue, remainingOptions) :=
      lib.getOption additionalClientOptions KnownOptions.port.name
    let options := { options with port := portValue }
    let partNumber := remainingOptions.lookup KnownOptions.partNumber.name
    let remainingOptions := remainingOptions.erase KnownOptions.partNumber.name
    let options := match partNumber with
      | some partNumber => { options with partNumber := partNumber }
      | none => options
    let ((_, checksumValue), _) := checksum lib remainingOptions
    let options := { options with checksum := checksumValue }
    .tftpRequestHandler remote requestType filename options

/-! ## A library with check values in hexadecimal digits -/

/-- The number of bytes of a check value. -/
def CheckValueType.size : CheckValueType → Nat
  | .notUsed => 0
  | .crc8 | .crc16 => 2
  | .crc32 => 4
  | .crc64 => 8
  | .md5 => 16
  | .sha1 => 20
  | .sha256 => 32
  | .sha512 => 64

/-- A number that is nothing but figures. -/
def readPort (value : Text) : Option UInt16 :=
  if (Numeral.leadingDigits 10 value).length = value.length then
    (Numeral.read 10 65536 value).map Nat.toUInt16
  else none

theorem readPort_writeDecimal (port : UInt16) :
    readPort (Numeral.writeDecimal port.toNat) = some port := by
  obtain ⟨hlength, hne, hvalue⟩ := Numeral.leadingDigits_writeDecimal port.toNat
  unfold readPort
  rw [if_pos hlength, Numeral.read_eq hne, hvalue, if_pos port.toNat_lt]
  exact congrArg some (UInt16.ofNat_toNat)

def OptionsLibrary.hexadecimal : OptionsLibrary where
  getOption options name :=
    match options.lookup name with
    | none => (true, none, options.erase name)
    | some value =>
      match readPort value with
      | some port => (true, some port, options.erase name)
      | none => (false, none, options.erase name)
  checkValue type checkValue := do
    let value ← Numeral.readHexBytes checkValue
    if value.length = type.size then some ⟨type, value⟩ else none
  isSet checkValue := checkValue.type ≠ .notUsed
  toText checkValue := Numeral.writeHexBytes checkValue.value
  Valid checkValue := checkValue.value.length = checkValue.type.size
  getOption_missing options name h := by simp [h]
  getOption_writeDecimal options name port h := by simp [h, readPort_writeDecimal]
  getOption_rest options name := by
    cases h : options.lookup name with
    | none => rfl
    | some value =>
      cases hread : readPort value <;> simp [hread]
  checkValue_toText checkValue hvalid hused := by
    simp [Numeral.readHexBytes_writeHexBytes, hvalid, hused]
  notUsed_of_valid checkValue hvalid hnone := by
    obtain ⟨type, value⟩ := checkValue
    cases hnone
    cases List.length_eq_zero_iff.mp hvalid
    rfl
  isSet_noCheckValue := rfl

/-! ## What was written is read back -/

theorem Options.lookup_tryEmplace (options : Options) (name name' value : Text) :
    (options.tryEmplace name value).lookup name' =
      if name' = name then some ((options.lookup name).getD value) else options.lookup name' := by
  unfold Options.tryEmplace
  by_cases hmem : name ∈ options
  · obtain ⟨old, hold⟩ := Option.isSome_iff_exists.mp (AList.lookup_isSome.mpr hmem)
    rw [if_pos hmem, hold]
    split
    case isTrue heq => rw [heq, hold, Option.getD_some]
    case isFalse => rfl
  · rw [if_neg hmem, AList.lookup_eq_none.mpr hmem]
    split
    case isTrue heq => rw [heq, AList.lookup_insert, Option.getD_none]
    case isFalse hne => exact AList.lookup_insert_ne hne

/-- For a valid check value the two conditions of the writers are the same. -/
theorem OptionsLibrary.type_eq_notUsed_iff (lib : OptionsLibrary) {checkValue : CheckValue}
    (hvalid : lib.Valid checkValue) : checkValue.type = .notUsed ↔ checkValue = {} := by
  constructor
  · exact lib.notUsed_of_valid checkValue hvalid
  · rintro rfl
    rfl

/-- A read operation sends its options as a server answers them. -/
theorem readOperationOptions_eq (lib : OptionsLibrary) (options : Arinc615aOptions)
    (hvalid : lib.Valid options.checksum) :
    readOperationOptions lib options.port options.partNumber options.checksum =
      options.options lib := by
  unfold readOperationOptions Arinc615aOptions.options
  simp only [lib.type_eq_notUsed_iff hvalid]

theorem writeOperationOptions_eq (lib : OptionsLibrary) (options : Arinc615aOptions)
    (hvalid : lib.Valid options.checksum) :
    writeOperationOptions lib options.partNumber options.checksum =
      { options with port := none }.options lib := by
  unfold writeOperationOptions Arinc615aOptions.options
  simp only [lib.type_eq_notUsed_iff hvalid]

/-- The text that the options have under a name. -/
def Arinc615aOptions.value (lib : OptionsLibrary) (options : Arinc615aOptions) (name : Text) :
    Option Text :=
  if name = KnownOptions.port.name then
    options.port.map fun port => Numeral.writeDecimal port.toNat
  else if name = KnownOptions.partNumber.name then
    if options.partNumber.isEmpty then none else some options.partNumber
  else if options.checksum ≠ {} ∧ name = options.checksum.type.name then
    some (lib.toText options.checksum)
  else none

/-- A check value has neither of the other two names. -/
theorem CheckValueType.name_ne (type : CheckValueType) :
    type.name ≠ KnownOptions.port.name ∧ type.name ≠ KnownOptions.partNumber.name := by
  cases type <;> decide

theorem Arinc615aOptions.lookup_options (lib : OptionsLibrary) (options : Arinc615aOptions)
    (name : Text) : (options.options lib).lookup name = options.value lib name := by
  have hchecksum := options.checksum.type.name_ne
  have hnames : KnownOptions.port.name ≠ KnownOptions.partNumber.name := by decide
  unfold Arinc615aOptions.options Arinc615aOptions.value
  -- the names are different, so no option is in the way of another
  cases hp : options.port <;> by_cases hpart : options.partNumber.isEmpty <;>
    by_cases hsum : options.checksum = {} <;>
    simp only [Options.lookup_tryEmplace, hpart, hsum, AList.lookup_empty, Bool.false_eq_true,
      if_true, if_false, Option.getD_none, Option.map_some, Option.map_none] <;>
    grind

theorem checksumLoop_append_missing (lib : OptionsLibrary) {before after : List CheckValueType}
    {retVal : Bool × CheckValue} {options : Options}
    (h : ∀ type ∈ before, options.lookup type.name = none) :
    checksumLoop lib (before ++ after) retVal options = checksumLoop lib after retVal options := by
  induction before with
  | nil => rfl
  | cons type before ih =>
    obtain ⟨hfirst, hrest⟩ := List.forall_mem_cons.mp h
    rw [List.cons_append, checksumLoop, hfirst]
    exact ih hrest

theorem checksumLoop_missing (lib : OptionsLibrary) {types : List CheckValueType}
    {retVal : Bool × CheckValue} {options : Options}
    (h : ∀ type ∈ types, options.lookup type.name = none) :
    checksumLoop lib types retVal options = (retVal, options) := by
  have hall : checksumLoop lib (types ++ []) retVal options = checksumLoop lib [] retVal options :=
    checksumLoop_append_missing lib h
  rwa [List.append_nil] at hall

/-- Options without another check value than `checkValue`. -/
def OnlyChecksum (lib : OptionsLibrary) (checkValue : CheckValue) (options : Options) : Prop :=
  ∀ type ∈ checksumTypes, options.lookup type.name =
    if checkValue ≠ {} ∧ type.name = checkValue.type.name then some (lib.toText checkValue)
    else none

theorem checksum_eq (lib : OptionsLibrary) {checkValue : CheckValue} {options : Options}
    (hvalid : lib.Valid checkValue) (h : OnlyChecksum lib checkValue options) :
    checksum lib options =
      ((true, checkValue),
        if checkValue = {} then options else options.erase checkValue.type.name) := by
  unfold checksum
  by_cases hnone : checkValue = {}
  · rw [if_pos hnone, hnone]
    exact checksumLoop_missing lib fun type htype => by rw [h type htype, if_neg (by simp [hnone])]
  · rw [if_neg hnone]
    have hused : checkValue.type ≠ .notUsed := mt (lib.type_eq_notUsed_iff hvalid).mp hnone
    obtain ⟨hread, hset⟩ := lib.checkValue_toText checkValue hvalid hused
    obtain ⟨before, after, htypes⟩ := List.append_of_mem (mem_checksumTypes.mpr hused)
    have hnodup := nodup_checksumTypes
    rw [htypes, List.map_append, List.map_cons] at hnodup
    obtain ⟨-, -, hbefore⟩ := List.nodup_append.mp hnodup
    have hfound : options.lookup checkValue.type.name = some (lib.toText checkValue) := by
      rw [h checkValue.type (mem_checksumTypes.mpr hused), if_pos ⟨hnone, rfl⟩]
    -- nothing is found before the option or behind it
    have hmissing : ∀ type ∈ before, options.lookup type.name = none := fun type htype => by
      have hne : type.name ≠ checkValue.type.name :=
        hbefore type.name (List.mem_map_of_mem htype) _ (List.mem_cons_self ..)
      rw [h type (htypes ▸ List.mem_append_left _ htype), if_neg fun hc => hne hc.2]
    have hgone : ∀ type ∈ after,
        (options.erase checkValue.type.name).lookup type.name = none := fun type htype => by
      by_cases heq : type.name = checkValue.type.name
      · rw [heq, AList.lookup_erase]
      · rw [AList.lookup_erase_ne heq, h type (htypes ▸ by simp [htype]), if_neg fun hc => heq hc.2]
    rw [htypes, checksumLoop_append_missing lib hmissing, checksumLoop, hfound]
    simp only [ne_eq, not_true_eq_false, if_false, hread, hset, if_true]
    exact checksumLoop_missing lib hgone

/-- Options in which those of the protocol are the given ones; any others may be there, too. -/
def Carries (lib : OptionsLibrary) (tftpOptions : Options) (options : Arinc615aOptions) : Prop :=
  ∀ option : KnownOptions, tftpOptions.lookup option.name = (options.options lib).lookup option.name

theorem Carries.lookup {lib : OptionsLibrary} {tftpOptions : Options} {options : Arinc615aOptions}
    (h : Carries lib tftpOptions options) (option : KnownOptions) :
    tftpOptions.lookup option.name = options.value lib option.name := by
  rw [h option, options.lookup_options]

theorem Carries.port {lib : OptionsLibrary} {tftpOptions : Options} {options : Arinc615aOptions}
    (h : Carries lib tftpOptions options) :
    lib.getOption tftpOptions KnownOptions.port.name =
      (true, options.port, tftpOptions.erase KnownOptions.port.name) := by
  have hlookup := h.lookup .port
  have hrest := lib.getOption_rest tftpOptions KnownOptions.port.name
  have hread : (lib.getOption tftpOptions KnownOptions.port.name).1 = true ∧
      (lib.getOption tftpOptions KnownOptions.port.name).2.1 = options.port := by
    simp only [Arinc615aOptions.value, if_true] at hlookup
    cases hport : options.port with
    | none =>
      rw [hport] at hlookup
      exact lib.getOption_missing _ _ hlookup
    | some port =>
      rw [hport] at hlookup
      exact lib.getOption_writeDecimal _ _ port hlookup
  exact Prod.ext hread.1 (Prod.ext hread.2 hrest)

theorem Carries.partNumber {lib : OptionsLibrary} {tftpOptions : Options}
    {options : Arinc615aOptions} (h : Carries lib tftpOptions options) :
    (tftpOptions.erase KnownOptions.port.name).lookup KnownOptions.partNumber.name =
      if options.partNumber.isEmpty then none else some options.partNumber := by
  have hne : KnownOptions.partNumber.name ≠ KnownOptions.port.name := by decide
  rw [AList.lookup_erase_ne hne, h.lookup .partNumber]
  simp only [Arinc615aOptions.value, hne, if_true, if_false]

theorem Carries.checksum {lib : OptionsLibrary} {tftpOptions : Options}
    {options : Arinc615aOptions} (h : Carries lib tftpOptions options) :
    OnlyChecksum lib options.checksum
      ((tftpOptions.erase KnownOptions.port.name).erase KnownOptions.partNumber.name) := by
  intro type htype
  obtain ⟨hport, hpartNumber⟩ := type.name_ne
  have hlookup : tftpOptions.lookup type.name = options.value lib type.name := by
    obtain ⟨option, hoption⟩ : ∃ option, type.knownOption = some option := by
      cases type with
      | notUsed => exact absurd rfl (mem_checksumTypes.mp htype)
      | _ => exact ⟨_, rfl⟩
    rw [CheckValueType.name_knownOption hoption]
    exact h.lookup option
  rw [AList.lookup_erase_ne hpartNumber, AList.lookup_erase_ne hport, hlookup]
  simp only [Arinc615aOptions.value, hport, hpartNumber, if_false]

/-- What the client and the server leave of the options they read. -/
def unread (tftpOptions : Options) (checkValue : CheckValue) : Options :=
  let tftpOptions :=
    (tftpOptions.erase KnownOptions.port.name).erase KnownOptions.partNumber.name
  if checkValue = {} then tftpOptions else tftpOptions.erase checkValue.type.name

/-- A part number that is missing is an empty one. -/
theorem partNumber_read (options : Arinc615aOptions) :
    (match if options.partNumber.isEmpty then none else some options.partNumber with
      | some partNumber => { port := options.port, partNumber := partNumber : Arinc615aOptions }
      | none => { port := options.port }) =
      { port := options.port, partNumber := options.partNumber } := by
  cases hpartNumber : options.partNumber <;> rfl

theorem handleOptionNegotiation_carries {lib : OptionsLibrary} {serverOptions : Options}
    {options : Arinc615aOptions} (hvalid : lib.Valid options.checksum)
    (h : Carries lib serverOptions options) (handler : Arinc615aOptions → Bool) :
    handleOptionNegotiation lib handler serverOptions =
      (handler options, unread serverOptions options.checksum) := by
  simp only [handleOptionNegotiation, h.port, h.partNumber, partNumber_read, Bool.not_true,
    Bool.false_eq_true, if_false, checksum_eq lib hvalid h.checksum, unread]

theorem tftpRequestHandler_carries {lib : OptionsLibrary} {clientOptions : Options}
    {options : Arinc615aOptions} (hvalid : lib.Valid options.checksum)
    (h : Carries lib clientOptions options) (remote : Endpoint) (requestType : RequestType)
    (filename : Text) :
    tftpRequestHandler lib remote requestType filename .octet clientOptions =
      .tftpRequestHandler remote requestType filename options := by
  simp only [tftpRequestHandler, ne_eq, not_true_eq_false, if_false, h.port, h.partNumber,
    partNumber_read, checksum_eq lib hvalid h.checksum]

theorem Options.eq_empty_of_lookup {options : Options} (h : ∀ name, options.lookup name = none) :
    options = ∅ := by
  refine AList.ext (List.eq_nil_iff_forall_not_mem.mpr fun entry hentry => ?_)
  exact AList.lookup_eq_none.mp (h entry.1) (List.mem_map_of_mem hentry)

/-- Options that hold nothing but those of the protocol are read completely. -/
theorem unread_options (lib : OptionsLibrary) (options : Arinc615aOptions) :
    unread (options.options lib) options.checksum = ∅ := by
  refine Options.eq_empty_of_lookup fun name => ?_
  have hlookup := options.lookup_options lib name
  by_contra hleft
  rw [AList.lookup_eq_none, not_not] at hleft
  -- what is left was there, and has none of the names that are read
  have hmem : name ≠ KnownOptions.port.name ∧ name ≠ KnownOptions.partNumber.name ∧
      ¬(options.checksum ≠ {} ∧ name = options.checksum.type.name) ∧ name ∈ options.options lib := by
    unfold unread at hleft
    split at hleft
    case isTrue hnone =>
      simp only [AList.mem_erase] at hleft
      exact ⟨hleft.2.1, hleft.1, fun hc => hc.1 hnone, hleft.2.2⟩
    case isFalse hsome =>
      simp only [AList.mem_erase] at hleft
      exact ⟨hleft.2.2.1, hleft.2.1, fun hc => hleft.1 hc.2, hleft.2.2.2⟩
  obtain ⟨hport, hpartNumber, hchecksum, hmem⟩ := hmem
  rw [Arinc615aOptions.value, if_neg hport, if_neg hpartNumber, if_neg hchecksum] at hlookup
  exact AList.lookup_eq_none.mp hlookup hmem

/-- Options that have nothing to do with the protocol do not change what is carried. -/
theorem Carries.union {lib : OptionsLibrary} {tftpOptions unrelated : Options}
    {options : Arinc615aOptions} (h : Carries lib tftpOptions options)
    (hunrelated : ∀ option : KnownOptions, option.name ∉ unrelated) :
    Carries lib (unrelated ∪ tftpOptions) options := fun option => by
  rw [AList.lookup_union_right (hunrelated option)]
  exact h option

/-- Each side reads the options that the other one has written: the server those of a request,
whatever else the request asks for, and the client those of the answer. -/
theorem options_roundTrip (lib : OptionsLibrary) (options : Arinc615aOptions)
    (hvalid : lib.Valid options.checksum) :
    (∀ remote filename unrelated, (∀ option : KnownOptions, option.name ∉ unrelated) →
      tftpRequestHandler lib remote .read filename .octet
          (unrelated ∪ readOperationOptions lib options.port options.partNumber options.checksum) =
        .tftpRequestHandler remote .read filename options) ∧
    (∀ remote filename unrelated, (∀ option : KnownOptions, option.name ∉ unrelated) →
      tftpRequestHandler lib remote .write filename .octet
          (unrelated ∪ writeOperationOptions lib options.partNumber options.checksum) =
        .tftpRequestHandler remote .write filename { options with port := none }) ∧
    ∀ optionNegotiationHandler : Arinc615aOptions → Bool,
      handleOptionNegotiation lib optionNegotiationHandler (options.options lib) =
        (optionNegotiationHandler options, ∅) := by
  refine ⟨fun remote filename unrelated hunrelated => ?_,
    fun remote filename unrelated hunrelated => ?_, fun handler => ?_⟩
  · rw [readOperationOptions_eq lib options hvalid]
    have hcarries : Carries lib (options.options lib) options := fun _ => rfl
    exact tftpRequestHandler_carries hvalid (hcarries.union hunrelated) remote .read filename
  · rw [writeOperationOptions_eq lib options hvalid]
    have hcarries : Carries lib ({ options with port := none }.options lib)
        { options with port := none } := fun _ => rfl
    have hvalid' : lib.Valid { options with port := none }.checksum := hvalid
    exact tftpRequestHandler_carries hvalid' (hcarries.union hunrelated) remote .write filename
  · have hcarries : Carries lib (options.options lib) options := fun _ => rfl
    rw [handleOptionNegotiation_carries hvalid hcarries handler, unread_options]

theorem options_roundTrip_crc16 :
    tftpRequestHandler .hexadecimal ⟨1, 1024⟩ .read (text "LOAD.LUH") .octet
        (AList.singleton (text "blksize") (text "1024") ∪
          readOperationOptions .hexadecimal (some 59) (text "PN") ⟨.crc16, [0x12, 0xAB]⟩) =
      .tftpRequestHandler ⟨1, 1024⟩ .read (text "LOAD.LUH")
        ⟨some 59, text "PN", ⟨.crc16, [0x12, 0xAB]⟩⟩ :=
  (options_roundTrip .hexadecimal ⟨some 59, text "PN", ⟨.crc16, [0x12, 0xAB]⟩⟩ rfl).1 ⟨1, 1024⟩
    (text "LOAD.LUH") (AList.singleton (text "blksize") (text "1024")) fun option => by
      cases option <;> decide

end Arinc615a.Tftp
