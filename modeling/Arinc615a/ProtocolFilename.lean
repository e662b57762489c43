import Arinc615a.Basic

/-!
# Target identifiers and protocol filenames

The parsers of `TargetId.cpp` and `ProtocolFilename.cpp`.
-/

namespace Arinc615a

/-- Splits at the first `separator`.  Both parts are empty when there is none. -/
def splitAt (separator : UInt8) (s : Text) : Text × Text :=
  if separator ∈ s then
    (s.takeWhile (· ≠ separator), (s.dropWhile (· ≠ separator)).drop 1)
  else ([], [])

theorem splitAt_join {separator : UInt8} {s : Text} (h : separator ∈ s) :
    (splitAt separator s).1 ++ separator :: (splitAt separator s).2 = s := by
  unfold splitAt
  rw [if_pos h]
  induction s with
  | nil => cases h
  | cons c s ih =>
    by_cases hc : c = separator
    · simp [hc]
    · have hs : separator ∈ s := by
        rcases List.mem_cons.mp h with h | h
        · exact absurd h.symm hc
        · exact h
      simpa [hc] using ih hs

theorem splitAt_append {separator : UInt8} {s : Text} (h : separator ∉ s) (rest : Text) :
    splitAt separator (s ++ separator :: rest) = (s, rest) := by
  unfold splitAt
  rw [if_pos (by simp)]
  have hall : ∀ c ∈ s, (fun c => decide (c ≠ separator)) c = true := by
    intro c hc
    simpa using fun heq : c = separator => h (heq ▸ hc)
  have hstop : (fun c => decide (c ≠ separator)) separator = false := by simp
  rw [List.takeWhile_append_of_pos hall, List.dropWhile_append_of_pos hall,
    List.takeWhile_cons_of_neg (by simp), List.dropWhile_cons_of_neg (by simp), List.append_nil]
  rfl

structure TargetId where
  thwId : Text
  position : Text
  deriving DecidableEq, Repr

namespace TargetId

def thwIdSizeMin : Nat := 4

def thwIdSizeMax : Nat := 15

def positionSizeMin : Nat := 0

def positionSizeMax : Nat := 8

/-- `std::isalnum` in the classic locale. -/
def isAlnum (c : UInt8) : Bool :=
  (0x30 ≤ c && c ≤ 0x39) || (0x41 ≤ c && c ≤ 0x5A) || (0x61 ≤ c && c ≤ 0x7A)

theorem isAlnum_iff {c : UInt8} :
    isAlnum c = true ↔
      c ∈ text "0123456789ABCDEFGHIJKLMNOPQRSTUVWXYZabcdefghijklmnopqrstuvwxyz" := by
  have hall : ∀ n < 256, isAlnum (.ofNat n) = true ↔ UInt8.ofNat n ∈
      text "0123456789ABCDEFGHIJKLMNOPQRSTUVWXYZabcdefghijklmnopqrstuvwxyz" := by
    decide +kernel
  have h := hall c.toNat c.toNat_lt
  rwa [UInt8.ofNat_toNat] at h

def splitTargetId (targetId : Text) : Text × Text := splitAt 0x5F targetId

def isCompliant (stringToCheck : Text) (minLength maxLength : Nat) : Bool :=
  minLength ≤ stringToCheck.length && stringToCheck.length ≤ maxLength &&
    stringToCheck.all isAlnum

def isThwId (thwId : Text) : Bool := isCompliant thwId thwIdSizeMin thwIdSizeMax

def isPosition (position : Text) : Bool := isCompliant position positionSizeMin positionSizeMax

def isTargetId (targetId : Text) : Bool :=
  isThwId (splitTargetId targetId).1 && isPosition (splitTargetId targetId).2

def ofText (targetId : Text) : TargetId where
  thwId := (splitTargetId targetId).1
  position := (splitTargetId targetId).2

def toString (targetId : TargetId) : Text := targetId.thwId ++ 0x5F :: targetId.position

/-- `operator bool` -/
def toBool (targetId : TargetId) : Bool := isThwId targetId.thwId && isPosition targetId.position

/-- A compliant identifier has an underscore, and is put together again from its two parts. -/
theorem toString_ofText {targetId : Text} (h : isTargetId targetId = true) :
    (ofText targetId).toString = targetId := by
  have hmem : 0x5F ∈ targetId := by
    by_contra hnone
    have hsplit : splitTargetId targetId = ([], []) := if_neg hnone
    rw [isTargetId, hsplit] at h
    exact absurd h (by decide)
  exact splitAt_join hmem

/-- Separators do not occur in compliant parts. -/
theorem not_mem_of_isCompliant {s : Text} {minLength maxLength : Nat} {c : UInt8}
    (h : isCompliant s minLength maxLength = true) (hc : isAlnum c = false) : c ∉ s := by
  intro hmem
  simp only [isCompliant, Bool.and_eq_true, List.all_eq_true] at h
  rw [h.2 c hmem] at hc
  cases hc

theorem ofText_toString {targetId : TargetId} (h : targetId.toBool = true) :
    ofText targetId.toString = targetId := by
  have hthwId := (Bool.and_eq_true_iff.mp h).1
  have hsplit : splitTargetId targetId.toString = (targetId.thwId, targetId.position) :=
    splitAt_append (not_mem_of_isCompliant hthwId (by decide)) targetId.position
  rw [ofText, hsplit]

theorem isCompliant_iff {s : Text} {minLength maxLength : Nat} :
    isCompliant s minLength maxLength = true ↔
      minLength ≤ s.length ∧ s.length ≤ maxLength ∧ ∀ c ∈ s, isAlnum c = true := by
  simp only [isCompliant, Bool.and_eq_true, decide_eq_true_eq, List.all_eq_true, and_assoc]

/-- The identifiers are the compliant parts put together. -/
theorem isTargetId_iff {targetId : Text} :
    isTargetId targetId = true ↔
      ∃ thwId position, targetId = thwId ++ 0x5F :: position ∧ isThwId thwId = true ∧
        isPosition position = true := by
  constructor
  · intro h
    obtain ⟨hthwId, hposition⟩ := Bool.and_eq_true_iff.mp h
    exact ⟨_, _, (toString_ofText h).symm, hthwId, hposition⟩
  · rintro ⟨thwId, position, rfl, hthwId, hposition⟩
    have hsplit : splitTargetId (thwId ++ 0x5F :: position) = (thwId, position) :=
      splitAt_append (not_mem_of_isCompliant hthwId (by decide)) position
    rw [isTargetId, hsplit]
    exact Bool.and_eq_true_iff.mpr ⟨hthwId, hposition⟩

/-- An identifier has no separator of a filename. -/
theorem not_mem_of_isTargetId {targetId : Text} (h : isTargetId targetId = true) :
    0x2E ∉ targetId := by
  obtain ⟨thwId, position, rfl, hthwId, hposition⟩ := isTargetId_iff.mp h
  simp only [List.mem_append, List.mem_cons, not_or]
  exact ⟨not_mem_of_isCompliant hthwId (by decide), by decide,
    not_mem_of_isCompliant hposition (by decide)⟩

end TargetId

namespace Files

inductive ProtocolFileType where
  | invalid
  | loadConfigurationInitialization
  | loadConfigurationList
  | loadConfigurationStatus
  | uploadInitialization
  | uploadRequest
  | uploadStatus
  | mediaDefinedDownloadInitialization
  | mediaDefinedDownloadRequest
  | operatorDefinedDownloadInitialization
  | operatorDefinedDownloadList
  | operatorDefinedDownloadAnswer
  | downloadStatus
  deriving DecidableEq, Repr

namespace ProtocolFilename

/-- `extensionTypeInfoIndex` -/
def extensionTypeInfoIndex : List (Text × ProtocolFileType) :=
  [(text "LCI", .loadConfigurationInitialization),
    (text "LCL", .loadConfigurationList),
    (text "LCS", .loadConfigurationStatus),
    (text "LUI", .uploadInitialization),
    (text "LUR", .uploadRequest),
    (text "LUS", .uploadStatus),
    (text "LND", .mediaDefinedDownloadInitialization),
    (text "LNR", .mediaDefinedDownloadRequest),
    (text "LNO", .operatorDefinedDownloadInitialization),
    (text "LNL", .operatorDefinedDownloadList),
    (text "LNA", .operatorDefinedDownloadAnswer),
    (text "LNS", .downloadStatus)]

def extension (fileType : ProtocolFileType) : Text :=
  match extensionTypeInfoIndex.find? fun info => info.2 = fileType with
  | some info => info.1
  | none => []

def fileType (extension : Text) : ProtocolFileType :=
  match extensionTypeInfoIndex.find? fun info => info.1 = extension with
  | some info => info.2
  | none => .invalid

def split (filename : Text) : Text × Text := splitAt 0x2E filename

def isProtocolFilename (filename : Text) : Bool :=
  TargetId.isTargetId (split filename).1 && fileType (split filename).2 ≠ .invalid

/-- The extension of a file type is read back as this type. -/
theorem fileType_extension (type : ProtocolFileType) : fileType (extension type) = type := by
  cases type <;> rfl

theorem extension_of_mem :
    ∀ info ∈ extensionTypeInfoIndex, extension info.2 = info.1 ∧ info.2 ≠ .invalid := by
  decide

/-- The known extensions are those of the index. -/
theorem fileType_ne_invalid_iff {suffix : Text} :
    fileType suffix ≠ .invalid ↔ ∃ info ∈ extensionTypeInfoIndex, info.1 = suffix := by
  unfold fileType
  cases hfind : extensionTypeInfoIndex.find? fun info => info.1 = suffix with
  | none =>
    refine iff_of_false (fun h => h rfl) ?_
    rintro ⟨info, hmem, hsuffix⟩
    exact List.find?_eq_none.mp hfind info hmem (decide_eq_true hsuffix)
  | some info =>
    have hmem := List.mem_of_find?_eq_some hfind
    have hsuffix : info.1 = suffix := by simpa using List.find?_some hfind
    exact iff_of_true (extension_of_mem info hmem).2 ⟨info, hmem, hsuffix⟩

theorem extension_fileType {suffix : Text} (h : fileType suffix ≠ .invalid) :
    extension (fileType suffix) = suffix := by
  unfold fileType at h ⊢
  cases hfind : extensionTypeInfoIndex.find? fun info => info.1 = suffix with
  | none =>
    rw [hfind] at h
    exact absurd rfl h
  | some info =>
    have hsuffix : info.1 = suffix := by simpa using List.find?_some hfind
    rw [← hsuffix]
    exact (extension_of_mem info (List.mem_of_find?_eq_some hfind)).1

end ProtocolFilename

/-- A parsed filename. -/
structure ProtocolFilename where
  targetIdV : TargetId
  fileTypeV : ProtocolFileType
  deriving DecidableEq, Repr

namespace ProtocolFilename

def ofText (filename : Text) : ProtocolFilename where
  targetIdV := TargetId.ofText (split filename).1
  fileTypeV := fileType (split filename).2

/-- The conversion to `std::string`. -/
def toText (filename : ProtocolFilename) : Text :=
  filename.targetIdV.toString ++ 0x2E :: extension filename.fileTypeV

/-- `operator bool` -/
def toBool (filename : ProtocolFilename) : Bool :=
  filename.targetIdV.toBool && filename.fileTypeV ≠ .invalid

/-- The name of a protocol file is read back. -/
theorem ofText_toText {targetId : TargetId} (h : targetId.toBool = true)
    (fileType : ProtocolFileType) :
    ofText (toText { targetIdV := targetId, fileTypeV := fileType }) =
      { targetIdV := targetId, fileTypeV := fileType } := by
  have hdot : 0x2E ∉ targetId.toString :=
    TargetId.not_mem_of_isTargetId (TargetId.isTargetId_iff.mpr
      ⟨_, _, rfl, Bool.and_eq_true_iff.mp h⟩)
  have hsplit : split (toText { targetIdV := targetId, fileTypeV := fileType }) =
      (targetId.toString, extension fileType) :=
    splitAt_append hdot _
  rw [ofText, hsplit, TargetId.ofText_toString h, fileType_extension]

/-- The filenames are an identifier, a point, and a known extension. -/
theorem isProtocolFilename_iff {filename : Text} :
    isProtocolFilename filename = true ↔
      ∃ targetId info, filename = targetId ++ 0x2E :: info.1 ∧
        TargetId.isTargetId targetId = true ∧ info ∈ extensionTypeInfoIndex := by
  simp only [isProtocolFilename, Bool.and_eq_true, decide_eq_true_eq]
  constructor
  · rintro ⟨htargetId, htype⟩
    obtain ⟨info, hmem, hsuffix⟩ := fileType_ne_invalid_iff.mp htype
    have hpoint : 0x2E ∈ filename := by
      by_contra hnone
      have hsplit : split filename = ([], []) := if_neg hnone
      rw [hsplit] at htargetId
      exact absurd htargetId (by decide)
    refine ⟨(split filename).1, info, ?_, htargetId, hmem⟩
    rw [hsuffix]
    exact (splitAt_join hpoint).symm
  · rintro ⟨targetId, info, rfl, htargetId, hmem⟩
    have hsplit : split (targetId ++ 0x2E :: info.1) = (targetId, info.1) :=
      splitAt_append (TargetId.not_mem_of_isTargetId htargetId) info.1
    rw [hsplit]
    exact ⟨htargetId, fileType_ne_invalid_iff.mpr ⟨info, hmem, rfl⟩⟩

/-- The language of the filenames, and that parsing and printing are inverses of each other. -/
theorem filenames_accepted_comeBack :
    (∀ filename, isProtocolFilename filename = true ↔ ∃ thwId position suffix,
      filename = thwId ++ 0x5F :: position ++ 0x2E :: suffix ∧
        (4 ≤ thwId.length ∧ thwId.length ≤ 15 ∧ ∀ c ∈ thwId, TargetId.isAlnum c = true) ∧
        (position.length ≤ 8 ∧ ∀ c ∈ position, TargetId.isAlnum c = true) ∧
        suffix ∈ [text "LCI", text "LCL", text "LCS", text "LUI", text "LUR", text "LUS",
          text "LND", text "LNR", text "LNO", text "LNL", text "LNA", text "LNS"]) ∧
    (∀ filename, isProtocolFilename filename = true →
      (ofText filename).toText = filename ∧ (ofText filename).toBool = true) ∧
    ∀ filename : ProtocolFilename, filename.toBool = true →
      ofText filename.toText = filename := by
  refine ⟨fun filename => ?_, fun filename h => ?_, fun filename h => ?_⟩
  · rw [isProtocolFilename_iff]
    constructor
    · rintro ⟨targetId, info, rfl, htargetId, hmem⟩
      obtain ⟨thwId, position, rfl, hthwId, hposition⟩ := TargetId.isTargetId_iff.mp htargetId
      exact ⟨thwId, position, info.1, rfl, TargetId.isCompliant_iff.mp hthwId,
        (TargetId.isCompliant_iff.mp hposition).2, List.mem_map_of_mem hmem⟩
    · rintro ⟨thwId, position, suffix, rfl, hthwId, hposition, hsuffix⟩
      obtain ⟨info, hmem, rfl⟩ : ∃ info ∈ extensionTypeInfoIndex, info.1 = suffix :=
        List.mem_map.mp hsuffix
      exact ⟨_, info, rfl, TargetId.isTargetId_iff.mpr ⟨thwId, position, rfl,
        TargetId.isCompliant_iff.mpr hthwId,
        TargetId.isCompliant_iff.mpr ⟨Nat.zero_le _, hposition⟩⟩, hmem⟩
  · obtain ⟨targetId, info, rfl, htargetId, hmem⟩ := isProtocolFilename_iff.mp h
    have hsplit : split (targetId ++ 0x2E :: info.1) = (targetId, info.1) :=
      splitAt_append (TargetId.not_mem_of_isTargetId htargetId) info.1
    have htype : fileType info.1 ≠ .invalid := fileType_ne_invalid_iff.mpr ⟨info, hmem, rfl⟩
    constructor
    · rw [toText, ofText, hsplit]
      simp only [TargetId.toString_ofText htargetId, extension_fileType htype]
    · rw [toBool, ofText, hsplit]
      simpa using ⟨htargetId, htype⟩
  · exact ofText_toText (Bool.and_eq_true_iff.mp h).1 filename.fileTypeV

/-- An identifier with digits and letters of both cases, and the shortest one, with an empty
position. -/
theorem filenames_accepted_comeBack_letters :
    isProtocolFilename (text "FMCz9_L2.LUS") = true ∧
      (ofText (text "FMCz9_L2.LUS")).toText = text "FMCz9_L2.LUS" ∧
      ofText (toText ⟨⟨text "1234", []⟩, .uploadStatus⟩) = ⟨⟨text "1234", []⟩, .uploadStatus⟩ := by
  have hletters : ∀ s ∈ [text "FMCz9", text "L2"], ∀ c ∈ s, TargetId.isAlnum c = true := by
    simp only [TargetId.isAlnum_iff]
    decide +kernel
  have haccepted : isProtocolFilename (text "FMCz9_L2.LUS") = true :=
    (filenames_accepted_comeBack.1 _).mpr ⟨text "FMCz9", text "L2", text "LUS", rfl,
      ⟨by decide, by decide, hletters _ (by decide)⟩, ⟨by decide, hletters _ (by decide)⟩,
      by decide⟩
  exact ⟨haccepted, (filenames_accepted_comeBack.2.1 _ haccepted).1,
    filenames_accepted_comeBack.2.2 ⟨⟨text "1234", []⟩, .uploadStatus⟩ (by decide)⟩

end ProtocolFilename

end Files

end Arinc615a
