import Arinc615a.Files.Accepted
import Arinc615a.Reasoning.Assignment
import Arinc615a.Reasoning.Recognised

/-!
# Assigning a file to an object

`operator=` decodes into the object itself.  What was there already stays in the lists of the
request, list and answer files, and the fields in front of a fault stay written.
-/

open Reasoning Reasoning.Decoder

namespace Arinc615a.Files

open Information

variable (raw : RawDataCodec)

/-! ## Files that are accepted -/

/-- A complete file of a layout: neither cut off nor followed by anything. -/
structure WellFormedFile (minimumSize : Nat) (layout : Layout) (rawData : Bytes) : Prop where
  size : minimumSize ≤ rawData.length
  header : HeaderAccepted raw rawData
  fields : layout.Matches (rawData.drop headerSize)
  complete : ¬layout.Cut (rawData.drop headerSize)

section

variable {σ : Type}

/-- What a decoder accepts does not depend on the object: it accepts the well-formed files. -/
theorem ReadsFile.accepted_iff {minimumSize : Nat} {layout : Layout} {d : FileDecoder σ Unit}
    (h : ReadsFile raw minimumSize layout d) (o : σ) (rawData : Bytes) :
    (∃ o', (d o rawData).object? = some o') ↔ WellFormedFile raw minimumSize layout rawData := by
  have hover := h.cuts raw o rawData
  have hprobe := h Unit (fun _ => probe fun _ => True) (fun _ => True) (cuts_probe _) o rawData
  dsimp only at hprobe
  rw [overran_bind_probe, hover, Layout.cut_iff] at hprobe
  -- behind the fields of the layout nothing is left
  have hleaves : layout.Leaves (fun rest => rest = [] ∧ True) (rawData.drop headerSize) ↔
      layout.Matches (rawData.drop headerSize) := by
    constructor
    · rintro ⟨w, rest, hbs, hw, rfl, -⟩
      rwa [hbs, List.append_nil]
    · exact fun hw => ⟨_, [], (List.append_nil _).symm, hw, rfl, trivial⟩
  rw [hleaves] at hprobe
  constructor
  · rintro ⟨o', ho⟩
    obtain ⟨rest, hdone⟩ := done_of_object? ho
    have hnot : ¬Truncated raw minimumSize layout rawData := by
      rw [← hover, hdone]
      exact id
    obtain ⟨hsize, hheader, hfields⟩ := hprobe.mp (.inr ⟨(), o', rest, hdone, trivial⟩)
    have hcomplete := fun hcut => hnot ⟨hsize, hheader, hcut⟩
    exact ⟨hsize, hheader, hfields.resolve_left hcomplete, hcomplete⟩
  · rintro ⟨hsize, hheader, hfields, hcomplete⟩
    rcases hprobe.mpr ⟨hsize, hheader, .inr hfields⟩ with hcut | ⟨⟨⟩, o', rest, hdone, -⟩
    · exact absurd hcut.2.2 hcomplete
    · exact ⟨o', by rw [hdone]; rfl⟩

end

/-! ## Files at fault -/

section

variable {σ β : Type}

/-- The file is turned down before anything is written, or its version is that of the object and
`BodyKept` holds of the bytes behind the header. -/
def FileKept (minimumSize : Nat) (version : Arinc615aVersion) (BodyKept : Bytes → Prop)
    (rawData : Bytes) : Prop :=
  rawData.length < minimumSize ∨ (decodeHeader raw).Rejects rawData ∨
    (decodeHeader raw).Holds version BodyKept rawData

theorem decodeStart_restores {α : Type} {minimumSize : Nat} {tooSmall : String}
    {setVersion : Arinc615aVersion → σ → σ} {k : Unit → FileDecoder σ α} {o : σ}
    {version : Arinc615aVersion} {BodyKept : Bytes → Prop}
    (hk : ∀ v, Restores (k ()) o (setVersion v o) fun body => v = version ∧ BodyKept body) :
    Restores (decodeStart raw minimumSize tooSmall setVersion >>= k) o o
      (FileKept raw minimumSize version BodyKept) := by
  intro rawData
  unfold decodeStart FileKept
  simp only [bind_assoc]
  by_cases hmin : minimumSize ≤ rawData.length
  · rw [bind_run, require_pos (decide_eq_true hmin), Outcome.andThen_done,
      or_iff_right (Nat.not_lt.mpr hmin)]
    have hheader : Restores (read (decodeHeader raw) >>= _) o o _ :=
      Restores.read_bind fun v => Restores.update_bind (f := setVersion v) (hk v)
    rw [hheader rawData]
    apply or_congr (and_iff_right rfl)
    constructor
    · rintro ⟨_, body, hread, rfl, hkept⟩
      exact ⟨body, hread, hkept⟩
    · rintro ⟨body, hread, hkept⟩
      exact ⟨version, body, hread, rfl, hkept⟩
  · rw [bind_run, require_neg (decide_eq_false hmin), Outcome.andThen_thrown]
    exact iff_of_true ⟨_, rfl⟩ (.inl (Nat.not_le.mp hmin))

/-- Nothing is written behind the last field. -/
theorem decodeEnd_restores {moreData : String} {o₀ o : σ} {p : Prop} (ho : o = o₀ ↔ p) :
    Restores (decodeEnd moreData : FileDecoder σ Unit) o₀ o fun rest => p ∧ rest ≠ [] := by
  have hend : Restores (decodeEnd moreData >>= pure) o₀ o _ :=
    Restores.require_bind _ _ fun bs => ⟨(), o, bs, rfl⟩
  rw [bind_pure] at hend
  exact hend.congr fun rest => by rw [ho, List.isEmpty_eq_false_iff]

/-! ### Status files with a list -/

abbrev word {width : Nat} (codec : WordCodec β width) : FileReader β := codec.read

abbrev codeReader : FileReader StatusCode := Reader.checked raw.uint16.read statusCode

/-- The fault is in the entries, or the entries are those of the object and more data follow. -/
def EntriesKept (loop : Nat → FileDecoder σ (List β)) (o : σ) (entries : List β)
    (rest : Bytes) : Prop :=
  ∃ count, (word raw.uint16).Holds count (fun rest =>
    (∃ e, loop count.toNat o rest = .thrown (.exception e) o) ∨
    ∃ more, loop count.toNat o rest = .done entries o more ∧ more ≠ []) rest

def ListRatioKept (loop : Nat → FileDecoder σ (List β)) (o : σ) (listRatio : Ratio)
    (entries : List β) (rest : Bytes) : Prop :=
  ratioDecode.Rejects rest ∨ ratioDecode.Holds listRatio (EntriesKept raw loop o entries) rest

/-- The fields in front of the fault are those of the status.  The code drops the description, so
a fault in the description is only without effect when there is none. -/
def StatusListKept (loop : Nat → FileDecoder σ (List β)) (o : σ) (status : Status)
    (listRatio : Ratio) (entries : List β) (body : Bytes) : Prop :=
  (codeReader raw).Rejects body ∨ (codeReader raw).Holds status.code (fun rest =>
    (status.description = [] ∧ (stringDecode raw).Rejects rest) ∨
    (stringDecode raw).Holds status.description
      ((word raw.uint16).Holds status.counter
      ((word raw.uint16).Holds status.exceptionTimer
      ((word raw.int16).Holds status.estimatedTime
        (ListRatioKept raw loop o listRatio entries)))) rest) body

theorem decodeStatusList_restores {setVersion : Arinc615aVersion → σ → σ}
    {modifyStatus : (Status → Status) → σ → σ} {setListRatio : Ratio → σ → σ}
    {setEntries : List β → σ → σ} {decodeEntry : FileDecoder σ β}
    (mk : Arinc615aVersion → Status → Ratio → List β → σ)
    (hversion : ∀ v v' s r es, setVersion v' (mk v s r es) = mk v' s r es)
    (hstatus : ∀ f v s r es, modifyStatus f (mk v s r es) = mk v (f s) r es)
    (hratio : ∀ r' v s r es, setListRatio r' (mk v s r es) = mk v s r' es)
    (hentries : ∀ es' v s r es, setEntries es' (mk v s r es) = mk v s r es')
    (hinj : ∀ v s r es v' s' r' es',
      mk v s r es = mk v' s' r' es' ↔ v = v' ∧ s = s' ∧ r = r' ∧ es = es')
    (hentry : ReadsOnly decodeEntry) (version : Arinc615aVersion) (status : Status)
    (listRatio : Ratio) (entries : List β) :
    let o := mk version status listRatio entries
    Restores
      (decodeStatusList raw setVersion modifyStatus setListRatio setEntries decodeEntry) o o
      (FileKept raw (headerSize + 9) version
        (StatusListKept raw (fun n => collect n decodeEntry) o status listRatio entries)) := by
  obtain ⟨counter₀, exceptionTimer₀, estimatedTime₀, code₀, description₀⟩ := status
  intro o
  -- the object at hand is `o` again when each field so far has the value of `o`
  have hback : ∀ v s r es, mk v s r es = o ↔
      v = version ∧ s = ⟨counter₀, exceptionTimer₀, estimatedTime₀, code₀, description₀⟩ ∧
        r = listRatio ∧ es = entries := fun v s r es => hinj v s r es _ _ _ _
  unfold decodeStatusList
  apply decodeStart_restores
  intro v
  rw [hversion]
  refine Restores.checked ?_ fun code => Restores.update_bind ?_
  · simp [hback]
  rw [hstatus]
  refine Restores.field (q := description₀ = []) ?_ fun description => Restores.update_bind ?_
  · simp [hback, Status.setCode, and_assoc, eq_comm]
  rw [hstatus]
  refine Restores.word fun counter => Restores.update_bind ?_
  rw [hstatus]
  refine Restores.word fun exceptionTimer => Restores.update_bind ?_
  rw [hstatus]
  refine Restores.word fun estimatedTime => Restores.update_bind ?_
  rw [hstatus]
  refine (Restores.field (q := True) ?_ fun ratio => Restores.update_bind ?_).congr fun rest =>
    and_congr_right fun _ => or_congr_left (and_iff_right trivial)
  · simp [hback, Status.setCode, and_assoc, and_left_comm, and_comm]
  rw [hratio]
  refine Restores.count fun count => ?_
  refine (Restores.readsOnly_field (q := True) (hentry.collect _) ?_ fun es =>
    Restores.update_bind ?_).congr fun rest =>
      and_congr_right fun _ => or_congr (and_iff_right trivial) Iff.rfl
  · simp [hback, Status.setCode, and_assoc, and_left_comm, and_comm]
  rw [hentries]
  refine decodeEnd_restores ?_
  simp [hback, Status.setCode, and_assoc, and_left_comm, and_comm]

theorem decodeStart_forgets {α : Type} {minimumSize : Nat} {tooSmall : String}
    {setVersion : Arinc615aVersion → σ → σ} {k : Unit → FileDecoder σ α} {o₁ o₂ : σ}
    (hk : ∀ v, Forgets (k ()) (setVersion v o₁) (setVersion v o₂)) :
    Forgets (decodeStart raw minimumSize tooSmall setVersion >>= k) o₁ o₂ := by
  unfold decodeStart
  simp only [bind_assoc]
  apply Forgets.require_bind
  apply Forgets.read_bind
  intro v
  exact Forgets.update_bind (hk v)

/-- Every field of a status file is overwritten. -/
theorem decodeStatusList_forgets {setVersion : Arinc615aVersion → σ → σ}
    {modifyStatus : (Status → Status) → σ → σ} {setListRatio : Ratio → σ → σ}
    {setEntries : List β → σ → σ} {decodeEntry : FileDecoder σ β}
    (mk : Arinc615aVersion → Status → Ratio → List β → σ)
    (hversion : ∀ v v' s r es, setVersion v' (mk v s r es) = mk v' s r es)
    (hstatus : ∀ f v s r es, modifyStatus f (mk v s r es) = mk v (f s) r es)
    (hratio : ∀ r' v s r es, setListRatio r' (mk v s r es) = mk v s r' es)
    (hentries : ∀ es' v s r es, setEntries es' (mk v s r es) = mk v s r es')
    (hentry : ReadsOnly decodeEntry) (v₁ v₂ : Arinc615aVersion) (s₁ s₂ : Status) (r₁ r₂ : Ratio)
    (es₁ es₂ : List β) :
    Forgets
      (decodeStatusList raw setVersion modifyStatus setListRatio setEntries decodeEntry)
      (mk v₁ s₁ r₁ es₁) (mk v₂ s₂ r₂ es₂) := by
  unfold decodeStatusList
  refine decodeStart_forgets raw fun version => ?_
  rw [hversion, hversion]
  refine Forgets.read_bind fun intStatusCode => Forgets.check_bind fun code =>
    Forgets.update_bind ?_
  refine Forgets.read_bind fun description => Forgets.update_bind ?_
  refine Forgets.read_bind fun counter => Forgets.update_bind ?_
  refine Forgets.read_bind fun exceptionTimer => Forgets.update_bind ?_
  refine Forgets.read_bind fun estimatedTime => Forgets.update_bind ?_
  refine Forgets.read_bind fun listRatio => Forgets.update_bind ?_
  refine Forgets.read_bind fun count => Forgets.readsOnly_bind (hentry.collect _) fun entries =>
    Forgets.update_bind ?_
  simp only [hstatus, hratio, hentries, Status.setCode]
  exact Forgets.refl _ _

theorem decodeStatusList_assigns_iff {setVersion : Arinc615aVersion → σ → σ}
    {modifyStatus : (Status → Status) → σ → σ} {setListRatio : Ratio → σ → σ}
    {setEntries : List β → σ → σ} {decodeEntry : FileDecoder σ β} {layout : Layout}
    (hreads : ReadsFile raw (headerSize + 9) layout
      (decodeStatusList raw setVersion modifyStatus setListRatio setEntries decodeEntry))
    (mk : Arinc615aVersion → Status → Ratio → List β → σ)
    (hversion : ∀ v v' s r es, setVersion v' (mk v s r es) = mk v' s r es)
    (hstatus : ∀ f v s r es, modifyStatus f (mk v s r es) = mk v (f s) r es)
    (hratio : ∀ r' v s r es, setListRatio r' (mk v s r es) = mk v s r' es)
    (hentries : ∀ es' v s r es, setEntries es' (mk v s r es) = mk v s r es')
    (hinj : ∀ v s r es v' s' r' es',
      mk v s r es = mk v' s' r' es' ↔ v = v' ∧ s = s' ∧ r = r' ∧ es = es')
    (hentry : ReadsOnly decodeEntry) (v₁ v : Arinc615aVersion) (s₁ s : Status) (r₁ r : Ratio)
    (es₁ es : List β) (b : Bytes) :
    Assigns (decodeStatusList raw setVersion modifyStatus setListRatio setEntries decodeEntry)
        (mk v₁ s₁ r₁ es₁) (mk v s r es) b ↔
      FileKept raw (headerSize + 9) v
          (StatusListKept raw (fun n => collect n decodeEntry) (mk v s r es) s r es) b ∨
        WellFormedFile raw (headerSize + 9) layout b := by
  rw [← hreads.accepted_iff raw (mk v s r es)]
  exact Assigns.iff_of_forgets
    (decodeStatusList_forgets raw mk hversion hstatus hratio hentries hentry _ _ _ _ _ _ _ _)
    (decodeStatusList_restores raw mk hversion hstatus hratio hentries hinj hentry v s r es) b

/-! ### Files with a list -/

/-- The first entry is at fault, or there are none and more data follow. -/
def ListKept (decodeEntry : FileDecoder σ Unit) (o : σ) (body : Bytes) : Prop :=
  ∃ count, (word raw.uint16).Holds count (fun rest => (count.toNat = 0 ∧ rest ≠ []) ∨
    (count.toNat ≠ 0 ∧ ∃ e, decodeEntry o rest = .thrown (.exception e) o)) body

theorem decodeList_restores {minimumSize : Nat} {tooSmall moreData : String}
    {setVersion : Arinc615aVersion → σ → σ} {decodeEntry : FileDecoder σ Unit}
    {mk : Arinc615aVersion → List β → σ}
    (hversion : ∀ v v' es, setVersion v' (mk v es) = mk v' es)
    (hinj : ∀ v es v' es', mk v es = mk v' es' ↔ v = v' ∧ es = es')
    (hentry : Appends mk decodeEntry) (version : Arinc615aVersion) (entries : List β) :
    Restores (decodeList raw minimumSize tooSmall moreData setVersion decodeEntry)
      (mk version entries) (mk version entries)
      (FileKept raw minimumSize version (ListKept raw decodeEntry (mk version entries))) := by
  unfold decodeList
  refine decodeStart_restores raw fun v => ?_
  rw [hversion]
  refine Restores.count fun count => ?_
  refine Restores.times_bind hentry hinj fun added => ?_
  exact decodeEnd_restores (by simp [hinj])

theorem decodeStart_extends {α γ ι : Type} {mk : γ → List β → σ} {start : ι → List β → σ}
    {minimumSize : Nat} {tooSmall : String} {setVersion : Arinc615aVersion → σ → σ}
    {k : Unit → FileDecoder σ α}
    (hk : ∀ v, Extends mk (fun i es => setVersion v (start i es)) (k ())) :
    Extends mk start (decodeStart raw minimumSize tooSmall setVersion >>= k) := by
  unfold decodeStart
  simp only [bind_assoc]
  apply Extends.require_bind
  apply Extends.read_bind
  intro v
  exact Extends.update_bind (hk v)

theorem decodeList_extends {minimumSize : Nat} {tooSmall moreData : String}
    {setVersion : Arinc615aVersion → σ → σ} {decodeEntry : FileDecoder σ Unit}
    {mk : Arinc615aVersion → List β → σ}
    (hversion : ∀ v v' es, setVersion v' (mk v es) = mk v' es)
    (hentry : Appends mk decodeEntry) :
    Extends mk mk (decodeList raw minimumSize tooSmall moreData setVersion decodeEntry) := by
  unfold decodeList
  refine decodeStart_extends raw fun v => ?_
  simp only [hversion]
  refine Extends.read_bind fun count => Extends.times_bind (fun bs => ?_) ?_ _
  · rcases hentry bs with ⟨b, rest, hdone⟩ | ⟨e, hthrown⟩
    · exact .inl ⟨b, rest, fun _ es => hdone v es⟩
    · exact .inr ⟨e, fun _ es => hthrown v es⟩
  have hend : Extends mk (fun (_ : Arinc615aVersion) es => mk v es)
      (decodeEnd moreData >>= pure) := Extends.require_bind (Extends.pure v ())
  rwa [bind_pure] at hend

/-- An object with entries keeps them, so it is only replaced when it has none. -/
theorem decodeList_assigns_iff {minimumSize : Nat} {tooSmall moreData : String}
    {setVersion : Arinc615aVersion → σ → σ} {decodeEntry : FileDecoder σ Unit} {layout : Layout}
    {mk : Arinc615aVersion → List β → σ} (hentry : Appends mk decodeEntry)
    (hversion : ∀ v v' es, setVersion v' (mk v es) = mk v' es)
    (hinj : ∀ v es v' es', mk v es = mk v' es' ↔ v = v' ∧ es = es')
    (hreads : ReadsFile raw minimumSize layout
      (decodeList raw minimumSize tooSmall moreData setVersion decodeEntry))
    (fresh version : Arinc615aVersion) (entries : List β) (b : Bytes) :
    Assigns (decodeList raw minimumSize tooSmall moreData setVersion decodeEntry) (mk fresh [])
        (mk version entries) b ↔
      FileKept raw minimumSize version (ListKept raw decodeEntry (mk version entries)) b ∨
        (WellFormedFile raw minimumSize layout b ∧ entries = []) := by
  rw [← hreads.accepted_iff raw (mk version entries)]
  exact Assigns.iff_of_extends (decodeList_extends raw hversion hentry) hinj
    (decodeList_restores raw hversion hinj hentry version entries) b

end

/-! ## The nine assignments -/

namespace InitializationFile

/-- The code is written before the description is read. -/
def BodyKept (response : InitializationResponse) (body : Bytes) : Prop :=
  let code : FileReader OperationAcceptanceStatusCode :=
    Reader.checked raw.uint16.read operationAcceptanceStatusCode
  code.Rejects body ∨ code.Holds response.code (fun rest =>
    (stringDecode raw).Rejects rest ∨
    (stringDecode raw).Holds response.description (fun more => more ≠ []) rest) body

def Kept (o : InitializationFile) : Bytes → Prop :=
  FileKept raw minFileSize o.protocolVersion (BodyKept raw o.response)

theorem decode_restores (o : InitializationFile) : Restores (decode raw) o o (Kept raw o) := by
  obtain ⟨⟨version⟩, code₀, description₀⟩ := o
  unfold decode Kept
  refine decodeStart_restores raw fun v => ?_
  refine Restores.checked ?_ fun code => Restores.update_bind ?_
  · simp
  refine (Restores.field (q := True) ?_ fun description => Restores.update_bind ?_).congr
    fun rest => and_congr_right fun _ => or_congr_left (and_iff_right trivial)
  · simp
  exact decodeEnd_restores (by simp [and_assoc])

theorem assigns_iff (o : InitializationFile) (b : Bytes) :
    Assigns (decode raw) {} o b ↔
      Kept raw o b ∨ WellFormedFile raw minFileSize (layout raw) b := by
  have hforgets : Forgets (decode raw) o {} := by
    unfold decode
    refine decodeStart_forgets raw fun v => ?_
    refine Forgets.read_bind fun intStatusCode => Forgets.check_bind fun code =>
      Forgets.update_bind ?_
    refine Forgets.read_bind fun description => Forgets.update_bind ?_
    exact Forgets.refl _ _
  rw [Assigns.iff_of_forgets hforgets (decode_restores raw o), (decode_reads raw).accepted_iff]

end InitializationFile

namespace InformationOperationStatusFile

/-- The counter comes first; the description is dropped with the code and read last. -/
def BodyKept (status : InformationStatus) (body : Bytes) : Prop :=
  (word raw.uint16).Holds status.counter (fun rest =>
    (codeReader raw).Rejects rest ∨ (codeReader raw).Holds status.code
      ((word raw.uint16).Holds status.exceptionTimer
      ((word raw.int16).Holds status.estimatedTime fun rest =>
        (status.description = [] ∧ (stringDecode raw).Rejects rest) ∨
        (stringDecode raw).Holds status.description (fun more => more ≠ []) rest)) rest) body

def Kept (o : InformationOperationStatusFile) : Bytes → Prop :=
  FileKept raw (headerSize + 9) o.protocolVersion (BodyKept raw o.status)

theorem decode_restores (o : InformationOperationStatusFile) :
    Restores (decode raw) o o (Kept raw o) := by
  obtain ⟨⟨version⟩, ⟨counter₀, exceptionTimer₀, estimatedTime₀, code₀, description₀⟩⟩ := o
  unfold decode Kept
  refine decodeStart_restores raw fun v => ?_
  refine Restores.word fun counter => Restores.update_bind ?_
  refine Restores.checked ?_ fun code => Restores.update_bind ?_
  · simp
  refine Restores.word fun exceptionTimer => Restores.update_bind ?_
  refine Restores.word fun estimatedTime => Restores.update_bind ?_
  refine Restores.field ?_ fun description => Restores.update_bind ?_
  · simp [Status.setCode, and_assoc, and_left_comm, and_comm, eq_comm]
  refine decodeEnd_restores ?_
  simp [Status.setCode, and_assoc, and_left_comm, and_comm]

theorem assigns_iff (o : InformationOperationStatusFile) (b : Bytes) :
    Assigns (decode raw) {} o b ↔
      Kept raw o b ∨ WellFormedFile raw (headerSize + 9) (layout raw) b := by
  have hforgets : Forgets (decode raw) o {} := by
    unfold decode
    refine decodeStart_forgets raw fun v => ?_
    refine Forgets.read_bind fun counter => Forgets.update_bind ?_
    refine Forgets.read_bind fun intStatusCode => Forgets.check_bind fun code =>
      Forgets.update_bind ?_
    refine Forgets.read_bind fun exceptionTimer => Forgets.update_bind ?_
    refine Forgets.read_bind fun estimatedTime => Forgets.update_bind ?_
    refine Forgets.read_bind fun description => Forgets.update_bind ?_
    exact Forgets.refl _ _
  rw [Assigns.iff_of_forgets hforgets (decode_restores raw o), (decode_reads raw).accepted_iff]

end InformationOperationStatusFile

namespace LoadConfigurationListFile

theorem decodePartNumber_readsOnly : ReadsOnly (decodePartNumber raw) := by
  refine (ReadsOnly.read _).bind fun partNumber => (ReadsOnly.read _).bind fun amendment =>
    (ReadsOnly.read _).bind fun partDesignation => ReadsOnly.pure _

theorem decodeTargetHardware_appends :
    Appends (fun v records => ⟨⟨v⟩, records⟩) (decodeTargetHardware raw) := by
  -- a record is read as a whole and then added
  have hrecord : decodeTargetHardware raw = (do
      let literalName ← read (stringDecode raw)
      let serialNumber ← read (stringDecode raw)
      let partNumbersCount ← read raw.uint16.read
      let partNumbers ← collect partNumbersCount.toNat (decodePartNumber raw)
      pure { literalName, serialNumber, partNumbers }) >>= fun thw : TargetHardware =>
        update fun file => { file with targetsHardware := file.targetsHardware ++ [thw] } := by
    simp only [decodeTargetHardware, bind_assoc, pure_bind]
  rw [hrecord]
  refine ReadsOnly.appends ?_ fun _ _ _ => rfl
  exact (ReadsOnly.read _).bind fun _ => (ReadsOnly.read _).bind fun _ => (ReadsOnly.read _).bind
    fun _ => ((decodePartNumber_readsOnly raw).collect _).bind fun _ => ReadsOnly.pure _

def Kept (o : LoadConfigurationListFile) : Bytes → Prop :=
  FileKept raw (headerSize + 13) o.protocolVersion (ListKept raw (decodeTargetHardware raw) o)

theorem assigns_iff (o : LoadConfigurationListFile) (b : Bytes) :
    Assigns (decode raw) {} o b ↔ Kept raw o b ∨
      (WellFormedFile raw (headerSize + 13) (layout raw) b ∧ o.targetsHardware = []) := by
  obtain ⟨⟨version⟩, records⟩ := o
  exact decodeList_assigns_iff raw (decodeTargetHardware_appends raw) (fun _ _ _ => rfl)
    (fun _ _ _ _ => by simp) (decode_reads raw) .arinc615a34 version records b

end LoadConfigurationListFile

namespace UploadOperationRequestFile

theorem decodeLoad_appends : Appends (fun v loads => ⟨⟨v⟩, loads⟩) (decodeLoad raw) := by
  have hload : decodeLoad raw = (do
      let headerFilename ← read (stringDecode raw)
      let partNumber ← read (stringDecode raw)
      pure { headerFilename, partNumber }) >>= fun load : UploadLoad =>
        update fun file => { file with loads := file.loads ++ [load] } := by
    simp only [decodeLoad, bind_assoc, pure_bind]
  rw [hload]
  refine ReadsOnly.appends ?_ fun _ _ _ => rfl
  exact (ReadsOnly.read _).bind fun _ => (ReadsOnly.read _).bind fun _ => ReadsOnly.pure _

def Kept (o : UploadOperationRequestFile) : Bytes → Prop :=
  FileKept raw minimumSize o.protocolVersion (ListKept raw (decodeLoad raw) o)

theorem assigns_iff (o : UploadOperationRequestFile) (b : Bytes) :
    Assigns (decode raw) {} o b ↔
      Kept raw o b ∨ (WellFormedFile raw minimumSize (layout raw) b ∧ o.loads = []) := by
  obtain ⟨⟨version⟩, loads⟩ := o
  exact decodeList_assigns_iff raw (decodeLoad_appends raw) (fun _ _ _ => rfl)
    (fun _ _ _ _ => by simp) (decode_reads raw) .arinc615a34 version loads b

end UploadOperationRequestFile

namespace UploadOperationStatusFile

theorem decodeLoad_readsOnly : ReadsOnly (decodeLoad raw) :=
  (ReadsOnly.read _).bind fun _ => (ReadsOnly.read _).bind fun _ => (ReadsOnly.read _).bind fun _ =>
    (ReadsOnly.read _).bind fun _ => (ReadsOnly.read _).bind fun _ => (ReadsOnly.check _).bind
      fun _ => ReadsOnly.pure _

def Kept (o : UploadOperationStatusFile) : Bytes → Prop :=
  FileKept raw (headerSize + 9) o.protocolVersion
    (StatusListKept raw (fun n => collect n (decodeLoad raw)) o o.status.toStatus
      o.status.listRatio o.status.loads)

theorem assigns_iff (o : UploadOperationStatusFile) (b : Bytes) :
    Assigns (decode raw) {} o b ↔
      Kept raw o b ∨ WellFormedFile raw (headerSize + 9) (layout raw) b := by
  obtain ⟨⟨version⟩, ⟨status, listRatio, loads⟩⟩ := o
  exact decodeStatusList_assigns_iff raw (decode_reads raw) (fun v s r es => ⟨⟨v⟩, ⟨s, r, es⟩⟩)
    (fun _ _ _ _ _ => rfl) (fun _ _ _ _ _ => rfl) (fun _ _ _ _ _ => rfl) (fun _ _ _ _ _ => rfl)
    (fun _ _ _ _ _ _ _ _ => by simp) (decodeLoad_readsOnly raw) .arinc615a34 version {} status
    .zero listRatio [] loads b

end UploadOperationStatusFile

namespace DownloadOperationRequestFile

/-- A file from its filenames and the rest. -/
def assemble (rest : Arinc615aVersion × Bytes) (files : List Text) :
    DownloadOperationRequestFile := ⟨⟨rest.1⟩, files, rest.2⟩

theorem assemble_inj (r : Arinc615aVersion × Bytes) (files : List Text)
    (r' : Arinc615aVersion × Bytes) (files' : List Text) :
    assemble r files = assemble r' files' ↔ r = r' ∧ files = files' := by
  simp only [assemble, DownloadOperationRequestFile.mk.injEq, ProtocolFile.mk.injEq, Prod.ext_iff]
  exact ⟨fun ⟨h1, h2, h3⟩ => ⟨⟨h1, h3⟩, h2⟩, fun ⟨⟨h1, h3⟩, h2⟩ => ⟨h1, h2, h3⟩⟩

theorem decodeFile_appends : Appends assemble (decodeFile raw) :=
  ReadsOnly.appends (ReadsOnly.read _) fun _ _ _ => rfl

/-- The first filename is at fault, or there are none and the length is not that of the rest. -/
def BodyKept (o : DownloadOperationRequestFile) (body : Bytes) : Prop :=
  ∃ count, (word raw.uint16).Holds count (fun rest =>
    (count.toNat = 0 ∧ ∃ length, (word raw.uint8).Holds length
      (fun data => data.length ≠ length.toNat) rest) ∨
    (count.toNat ≠ 0 ∧ ∃ e, decodeFile raw o rest = .thrown (.exception e) o)) body

def Kept (o : DownloadOperationRequestFile) : Bytes → Prop :=
  FileKept raw minimumSize o.protocolVersion (BodyKept raw o)

theorem decode_restores (o : DownloadOperationRequestFile) :
    Restores (decode raw) o o (Kept raw o) := by
  obtain ⟨⟨version⟩, files, data⟩ := o
  unfold decode Kept
  refine decodeStart_restores raw fun v => ?_
  refine Restores.count fun count => ?_
  -- what decode does behind the loop over the filenames
  have hdata : ∀ added, Restores (do
      let userDefinedDataLength ← read raw.uint8.read
      require (fun remainingData => remainingData.length == userDefinedDataLength.toNat)
        (⟨"user defined data length"⟩ : Arinc615aException)
      let remainingData ← unread
      update fun file => { file with userDefinedData := remainingData })
      (assemble (version, data) files) (assemble (v, data) (files ++ added)) fun bs =>
        ((v, data) = (version, data) ∧ added = []) ∧ ∃ length, (word raw.uint8).Holds length
          (fun data => data.length ≠ length.toNat) bs := by
    intro added
    refine Restores.count fun length => ?_
    refine (Restores.require_bind _ _ fun data => ⟨(), _, [], rfl⟩).congr fun bs => ?_
    rw [assemble_inj, List.append_right_eq_self, beq_eq_false_iff_ne]
  refine (Restores.times_bind (k := fun _ => _) (decodeFile_appends raw) assemble_inj
    hdata).congr fun rest => ?_
  rw [Prod.mk.injEq, and_iff_left rfl]
  exact Iff.rfl

theorem decode_extends : Extends assemble assemble (decode raw) := by
  unfold decode
  refine decodeStart_extends raw fun v => ?_
  refine Extends.read_bind fun count => Extends.times_bind ?_ ?_ _
  · exact ReadsOnly.appends (ReadsOnly.read _) fun _ _ _ => rfl
  refine Extends.read_bind fun length => Extends.require_bind (Extends.unread_bind fun data => ?_)
  have hend : Extends assemble (fun (g : Arinc615aVersion × Bytes) files => assemble (v, g.2) files)
      ((update fun file => { file with userDefinedData := data } :
        FileDecoder DownloadOperationRequestFile Unit) >>= pure) :=
    Extends.update_bind (Extends.pure (v, data) ())
  rwa [bind_pure] at hend

theorem assigns_iff (o : DownloadOperationRequestFile) (b : Bytes) :
    Assigns (decode raw) {} o b ↔
      Kept raw o b ∨ (WellFormedFile raw minimumSize (wholeLayout raw) b ∧ o.files = []) := by
  obtain ⟨⟨version⟩, files, data⟩ := o
  rw [← (decode_reads raw).accepted_iff raw (assemble (version, data) files)]
  change Assigns _ (assemble (.arinc615a34, []) []) (assemble (version, data) files) b ↔ _
  exact Assigns.iff_of_extends (decode_extends raw) assemble_inj
    (decode_restores raw (assemble (version, data) files)) b

end DownloadOperationRequestFile

namespace DownloadOperationListFile

theorem decodeFile_appends : Appends (fun v files => ⟨⟨v⟩, files⟩) (decodeFile raw) := by
  have hfile : decodeFile raw = (do
      let filename ← read (stringDecode raw)
      let description ← read (stringDecode raw)
      pure { filename, description }) >>= fun info : DownloadFileInformation =>
        update fun file => { file with files := file.files ++ [info] } := by
    simp only [decodeFile, bind_assoc, pure_bind]
  rw [hfile]
  refine ReadsOnly.appends ?_ fun _ _ _ => rfl
  exact (ReadsOnly.read _).bind fun _ => (ReadsOnly.read _).bind fun _ => ReadsOnly.pure _

def Kept (o : DownloadOperationListFile) : Bytes → Prop :=
  FileKept raw minimumSize o.protocolVersion (ListKept raw (decodeFile raw) o)

theorem assigns_iff (o : DownloadOperationListFile) (b : Bytes) :
    Assigns (decode raw) {} o b ↔
      Kept raw o b ∨ (WellFormedFile raw minimumSize (layout raw) b ∧ o.files = []) := by
  obtain ⟨⟨version⟩, files⟩ := o
  exact decodeList_assigns_iff raw (decodeFile_appends raw) (fun _ _ _ => rfl)
    (fun _ _ _ _ => by simp) (decode_reads raw) .arinc615a34 version files b

end DownloadOperationListFile

namespace DownloadOperationAnswerFile

theorem decodeFile_appends : Appends (fun v files => ⟨⟨v⟩, files⟩) (decodeFile raw) :=
  ReadsOnly.appends (ReadsOnly.read _) fun _ _ _ => rfl

def Kept (o : DownloadOperationAnswerFile) : Bytes → Prop :=
  FileKept raw minimumSize o.protocolVersion (ListKept raw (decodeFile raw) o)

theorem assigns_iff (o : DownloadOperationAnswerFile) (b : Bytes) :
    Assigns (decode raw) {} o b ↔
      Kept raw o b ∨ (WellFormedFile raw minimumSize (layout raw) b ∧ o.files = []) := by
  obtain ⟨⟨version⟩, files⟩ := o
  exact decodeList_assigns_iff raw (decodeFile_appends raw) (fun _ _ _ => rfl)
    (fun _ _ _ _ => by simp) (decode_reads raw) .arinc615a34 version files b

end DownloadOperationAnswerFile

namespace DownloadOperationStatusFile

theorem decodeFile_readsOnly : ReadsOnly (decodeFile raw) :=
  (ReadsOnly.read _).bind fun _ => (ReadsOnly.read _).bind fun _ => (ReadsOnly.read _).bind fun _ =>
    (ReadsOnly.check _).bind fun _ => ReadsOnly.pure _

def Kept (o : DownloadOperationStatusFile) : Bytes → Prop :=
  FileKept raw (headerSize + 9) o.protocolVersion
    (StatusListKept raw (fun n => collect n (decodeFile raw)) o o.status.toStatus
      o.status.listRatio o.status.files)

theorem assigns_iff (o : DownloadOperationStatusFile) (b : Bytes) :
    Assigns (decode raw) {} o b ↔
      Kept raw o b ∨ WellFormedFile raw (headerSize + 9) (layout raw) b := by
  obtain ⟨⟨version⟩, ⟨status, listRatio, files⟩⟩ := o
  exact decodeStatusList_assigns_iff raw (decode_reads raw) (fun v s r es => ⟨⟨v⟩, ⟨s, r, es⟩⟩)
    (fun _ _ _ _ _ => rfl) (fun _ _ _ _ _ => rfl) (fun _ _ _ _ _ => rfl) (fun _ _ _ _ _ => rfl)
    (fun _ _ _ _ _ _ _ _ => by simp) (decodeFile_readsOnly raw) .arinc615a34 version {} status
    .zero listRatio [] files b

end DownloadOperationStatusFile

/-- An assignment replaces the object or leaves it as it was exactly in these cases: the file is
well formed (and, where there is a list, the object has none yet), or the fields in front of the
fault are those that the object has already. -/
theorem assignment_iff :
    (∀ o b, Assigns (InitializationFile.decode raw) {} o b ↔ o.Kept raw b ∨
      WellFormedFile raw InitializationFile.minFileSize (InitializationFile.layout raw) b) ∧
    (∀ o b, Assigns (InformationOperationStatusFile.decode raw) {} o b ↔ o.Kept raw b ∨
      WellFormedFile raw (headerSize + 9) (InformationOperationStatusFile.layout raw) b) ∧
    (∀ o b, Assigns (LoadConfigurationListFile.decode raw) {} o b ↔ o.Kept raw b ∨
      (WellFormedFile raw (headerSize + 13) (LoadConfigurationListFile.layout raw) b ∧
        o.targetsHardware = [])) ∧
    (∀ o b, Assigns (UploadOperationRequestFile.decode raw) {} o b ↔ o.Kept raw b ∨
      (WellFormedFile raw UploadOperationRequestFile.minimumSize
        (UploadOperationRequestFile.layout raw) b ∧ o.loads = [])) ∧
    (∀ o b, Assigns (UploadOperationStatusFile.decode raw) {} o b ↔ o.Kept raw b ∨
      WellFormedFile raw (headerSize + 9) (UploadOperationStatusFile.layout raw) b) ∧
    (∀ o b, Assigns (DownloadOperationRequestFile.decode raw) {} o b ↔ o.Kept raw b ∨
      (WellFormedFile raw DownloadOperationRequestFile.minimumSize
        (DownloadOperationRequestFile.wholeLayout raw) b ∧ o.files = [])) ∧
    (∀ o b, Assigns (DownloadOperationListFile.decode raw) {} o b ↔ o.Kept raw b ∨
      (WellFormedFile raw DownloadOperationListFile.minimumSize
        (DownloadOperationListFile.layout raw) b ∧ o.files = [])) ∧
    (∀ o b, Assigns (DownloadOperationAnswerFile.decode raw) {} o b ↔ o.Kept raw b ∨
      (WellFormedFile raw DownloadOperationAnswerFile.minimumSize
        (DownloadOperationAnswerFile.layout raw) b ∧ o.files = [])) ∧
    (∀ o b, Assigns (DownloadOperationStatusFile.decode raw) {} o b ↔ o.Kept raw b ∨
      WellFormedFile raw (headerSize + 9) (DownloadOperationStatusFile.layout raw) b) :=
  ⟨InitializationFile.assigns_iff raw, InformationOperationStatusFile.assigns_iff raw,
    LoadConfigurationListFile.assigns_iff raw, UploadOperationRequestFile.assigns_iff raw,
    UploadOperationStatusFile.assigns_iff raw, DownloadOperationRequestFile.assigns_iff raw,
    DownloadOperationListFile.assigns_iff raw, DownloadOperationAnswerFile.assigns_iff raw,
    DownloadOperationStatusFile.assigns_iff raw⟩

/-- A request with one load assigned to an object with another load: the object has both. -/
theorem uploadOperationRequestFile_assigned_twice :
    let o : UploadOperationRequestFile :=
      { loads := [{ headerFilename := text "A", partNumber := [] }] }
    let b : Bytes := [0, 0, 0, 12, 0x41, 0x34, 0, 1, 2, 0x42, 0, 0]
    UploadOperationRequestFile.decode .bigEndian o b =
        .done ()
          { loads := [{ headerFilename := text "A", partNumber := [] },
              { headerFilename := text "B", partNumber := [] }] } [] ∧
      ¬Assigns (UploadOperationRequestFile.decode .bigEndian) {} o b := by
  intro o b
  have hdone : UploadOperationRequestFile.decode .bigEndian o b = .done ()
      { loads := [{ headerFilename := text "A", partNumber := [] },
          { headerFilename := text "B", partNumber := [] }] } [] := by decide +kernel
  have hfresh : UploadOperationRequestFile.decode .bigEndian {} b =
      .done () { loads := [{ headerFilename := text "B", partNumber := [] }] } [] := by
    decide +kernel
  refine ⟨hdone, ?_⟩
  rintro (⟨o', hobject, hobject'⟩ | ⟨e, he⟩)
  · rw [hdone] at hobject
    rw [hfresh] at hobject'
    cases hobject
    cases hobject'
  · rw [hdone] at he
    cases he

end Arinc615a.Files
