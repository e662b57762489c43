import Arinc615a.Find.Packet
import Arinc615a.ProtocolFilename
import Arinc615a.Reasoning.OrderedMap
import Arinc615a.Reasoning.PropertyTree
import Mathlib.Data.List.Find
import Mathlib.Data.List.Lex

/-!
# Targets and their addresses

`find/TargetInformation.cpp`: lists of targets as property trees, and the map by which the commands
look up the address of a target.
-/

open Reasoning

namespace Arinc615a

namespace TargetId

/-- `operator<=>` compares the joined texts, by their characters as unsigned numbers. -/
def rank (targetId : TargetId) : List Nat := targetId.toString.map UInt8.toNat

/-- Neither is less than the other. -/
def Equivalent (a b : TargetId) : Prop := ¬rank a < rank b ∧ ¬rank b < rank a

/-- The identifiers differ in which underscore ends the hardware identifier. -/
def Straddles (a b : TargetId) : Prop :=
  ∃ s, b.thwId = a.thwId ++ 0x5F :: s ∧ a.position = s ++ 0x5F :: b.position

theorem rank_inj {a b : TargetId} : rank a = rank b ↔ a.toString = b.toString := by
  have hinjective : Function.Injective (List.map UInt8.toNat) :=
    List.map_injective_iff.mpr fun _ _ => UInt8.toNat_inj.mp
  exact hinjective.eq_iff

theorem equivalent_iff {a b : TargetId} : Equivalent a b ↔ a.toString = b.toString := by
  rw [Equivalent, not_lt, not_lt, and_comm, ← le_antisymm_iff, rank_inj]

theorem toString_eq_iff {a b : TargetId} :
    a.toString = b.toString ↔ a = b ∨ Straddles a b ∨ Straddles b a := by
  obtain ⟨thwIdA, positionA⟩ := a
  obtain ⟨thwIdB, positionB⟩ := b
  simp only [toString, Straddles, mk.injEq]
  constructor
  · intro h
    rcases List.append_eq_append_iff.mp h with ⟨s, rfl, hrest⟩ | ⟨s, rfl, hrest⟩
    · cases s with
      | nil => exact .inl ⟨(List.append_nil _).symm, (List.cons.inj hrest).2⟩
      | cons c s =>
        obtain ⟨rfl, hposition⟩ := List.cons.inj hrest
        exact .inr (.inl ⟨s, rfl, hposition⟩)
    · cases s with
      | nil => exact .inl ⟨List.append_nil _, (List.cons.inj hrest).2.symm⟩
      | cons c s =>
        obtain ⟨rfl, hposition⟩ := List.cons.inj hrest
        exact .inr (.inr ⟨s, rfl, hposition⟩)
  · rintro (⟨rfl, rfl⟩ | ⟨s, rfl, rfl⟩ | ⟨s, rfl, rfl⟩)
    · rfl
    · simp
    · simp

theorem Straddles.ne {a b : TargetId} (h : Straddles a b) : a ≠ b := by
  rintro rfl
  obtain ⟨s, hthwId, -⟩ := h
  have hlength := congrArg List.length hthwId
  rw [List.length_append, List.length_cons] at hlength
  omega

end TargetId

namespace Find

abbrev Properties := PropertyTree String Text

/-- The addresses of the network library.  An address is read back from its text. -/
structure AddressLibrary (A : Type) where
  any : A
  toText : A → Text
  /-- `none` if the text is no address, which is an error. -/
  makeAddress : Text → Option A
  makeAddress_toText : ∀ address, makeAddress (toText address) = some address

/-- Addresses by their canonical texts. -/
def AddressLibrary.canonical : AddressLibrary Text where
  any := text "0.0.0.0"
  toText address := address
  makeAddress := some
  makeAddress_toText _ := rfl

abbrev TargetAddressInformation (A : Type) := A × TargetInformation

/-- `std::map`, with the comparison of `TargetId`. -/
abbrev TargetsAddressInformationMap (A : Type) :=
  OrderedMap TargetId.rank (TargetAddressInformation A)

namespace TargetInformation

variable {A : Type} (lib : AddressLibrary A)

def targetId (information : TargetInformation) : TargetId :=
  ⟨information.thwId, information.thwPosition⟩

/-- What a property is missing keeps its value. -/
def fromProperties (information : TargetInformation) (properties : Properties) :
    TargetInformation where
  thwId := properties.get "thwId" information.thwId
  thwTypeName := properties.get "thwTypeName" information.thwTypeName
  thwPosition := properties.get "thwPosition" information.thwPosition
  literalName := properties.get "literalName" information.literalName
  manufacturerCode := properties.get "manufacturerCode" information.manufacturerCode

def toProperties (information : TargetInformation) : Properties :=
  (((((PropertyTree.node [] []).add "thwId" information.thwId).add
    "thwTypeName" information.thwTypeName).add
    "thwPosition" information.thwPosition).add
    "literalName" information.literalName).add
    "manufacturerCode" information.manufacturerCode

/-- A target without an address has the unspecified one. -/
def targetAddressInformationOf (properties : Properties) : Option (TargetAddressInformation A) := do
  let address ← match properties.getOptional "address" with
    | some address => lib.makeAddress address
    | none => some lib.any
  some (address, fromProperties {} properties)

def targetAddressInformation (information : TargetAddressInformation A) : Properties :=
  ((PropertyTree.node [] []).add "address" (lib.toText information.1)).append
    information.2.toProperties.children

/-- The names of the children are ignored. -/
def targetsAddressInformationOf (properties : Properties) :
    Option (List (TargetAddressInformation A)) :=
  properties.children.mapM fun entry => targetAddressInformationOf lib entry.2

def targetsAddressInformation (information : List (TargetAddressInformation A)) : Properties :=
  information.foldl
    (fun properties target => properties.addChild "target" (targetAddressInformation lib target))
    (.node [] [])

end TargetInformation

open TargetInformation

variable {A : Type} (lib : AddressLibrary A)

/-- `TargetsAddressInformationMap_fromTargetsAddressInformation` -/
def mapOfTargets (targets : List (TargetAddressInformation A)) : TargetsAddressInformationMap A :=
  .ofList TargetId.rank (targets.map fun target => (target.2.targetId, target))

/-! ## Property trees -/

/-- The properties of a target are found behind others that have none of their names. -/
theorem fromProperties_toProperties (information : TargetInformation) (properties : Properties)
    (h : ∀ name ∈ ["thwId", "thwTypeName", "thwPosition", "literalName", "manufacturerCode"],
      properties.getOptional name = none) :
    fromProperties {} (properties.append information.toProperties.children) = information := by
  have hbehind : ∀ name ∈ ["thwId", "thwTypeName", "thwPosition", "literalName",
      "manufacturerCode"],
      (properties.append information.toProperties.children).getOptional name =
        information.toProperties.getOptional name := by
    intro name hname
    rw [PropertyTree.getOptional_append, h name hname]
    rfl
  simp only [List.forall_mem_cons] at hbehind
  obtain ⟨hthwId, hthwTypeName, hthwPosition, hliteralName, hmanufacturerCode, -⟩ := hbehind
  unfold fromProperties PropertyTree.get
  rw [hthwId, hthwTypeName, hthwPosition, hliteralName, hmanufacturerCode]
  simp [toProperties, PropertyTree.getOptional_add]

theorem targetAddressInformation_roundTrip (target : TargetAddressInformation A) :
    targetAddressInformationOf lib (targetAddressInformation lib target) = some target := by
  obtain ⟨address, information⟩ := target
  have haddress : (targetAddressInformation lib (address, information)).getOptional "address" =
      some (lib.toText address) := by
    rw [targetAddressInformation, PropertyTree.getOptional_append, PropertyTree.getOptional_add]
    simp
  have hinformation :
      fromProperties {} (targetAddressInformation lib (address, information)) = information :=
    fromProperties_toProperties information _ (by simp [PropertyTree.getOptional_add])
  unfold targetAddressInformationOf
  rw [haddress, hinformation]
  simp [lib.makeAddress_toText]

/-- A list of targets comes back from its property tree. -/
theorem targetsAddressInformation_roundTrip (targets : List (TargetAddressInformation A)) :
    targetsAddressInformationOf lib (targetsAddressInformation lib targets) = some targets := by
  unfold targetsAddressInformationOf targetsAddressInformation
  rw [PropertyTree.children_foldl_addChild, PropertyTree.children_node, List.nil_append]
  induction targets with
  | nil => rfl
  | cons target targets ih =>
    rw [List.map_cons, List.mapM_cons, ih, targetAddressInformation_roundTrip]
    rfl

/-! ## The map -/

/-- The table of the commands for a list of targets that was stored as a property tree. -/
def storedTargets (targets : List (TargetAddressInformation A)) :
    Option (TargetsAddressInformationMap A) :=
  (targetsAddressInformationOf lib (targetsAddressInformation lib targets)).map mapOfTargets

/-- The map has one entry for each identifier of the list, the first target that is listed for
it. -/
structure HoldsFirsts (targets : List (TargetAddressInformation A))
    (map : TargetsAddressInformationMap A) : Prop where
  distinct : (map.entries.map Prod.fst).Nodup
  first : ∀ targetId target, (targetId, target) ∈ map.entries ↔
    targets.find? (fun target => target.2.targetId = targetId) = some target

/-- The entries of the map, by the texts of their identifiers. -/
theorem mem_mapOfTargets {targets : List (TargetAddressInformation A)} {targetId : TargetId}
    {target : TargetAddressInformation A} :
    (targetId, target) ∈ (mapOfTargets targets).entries ↔
      target.2.targetId = targetId ∧
        targets.find? (fun earlier => earlier.2.targetId.toString = targetId.toString) =
          some target := by
  rw [mapOfTargets, OrderedMap.mem_ofList, List.find?_map]
  simp only [Function.comp_def, TargetId.rank_inj, Option.map_eq_some_iff, Prod.mk.injEq]
  constructor
  · rintro ⟨_, hfind, hid, rfl⟩
    exact ⟨hid, hfind⟩
  · rintro ⟨hid, hfind⟩
    exact ⟨target, hfind, hid, rfl⟩

/-- Where no listed targets straddle, the text of an identifier tells it. -/
theorem find?_toString {targets : List (TargetAddressInformation A)}
    (h : ∀ a ∈ targets, ∀ b ∈ targets, ¬TargetId.Straddles a.2.targetId b.2.targetId)
    {target : TargetAddressInformation A} (htarget : target ∈ targets) :
    targets.find? (fun earlier => earlier.2.targetId.toString = target.2.targetId.toString) =
      targets.find? fun earlier => earlier.2.targetId = target.2.targetId := by
  refine List.find?_congr fun earlier hearlier => ?_
  rw [decide_eq_decide, TargetId.toString_eq_iff]
  refine or_iff_left ?_
  rintro (hstraddles | hstraddles)
  · exact h earlier hearlier target htarget hstraddles
  · exact h target htarget earlier hearlier hstraddles

theorem holdsFirsts_mapOfTargets_iff (targets : List (TargetAddressInformation A)) :
    HoldsFirsts targets (mapOfTargets targets) ↔
      ∀ a ∈ targets, ∀ b ∈ targets, ¬TargetId.Straddles a.2.targetId b.2.targetId := by
  constructor
  · intro h a ha b hb hstraddles
    -- each of the two identifiers has its entry, and the map has one for both
    have hentry : ∀ c ∈ targets, ∃ target, (c.2.targetId, target) ∈ (mapOfTargets targets).entries := by
      intro c hc
      have hsome : (targets.find? fun target => target.2.targetId = c.2.targetId).isSome :=
        List.find?_isSome.mpr ⟨c, hc, decide_eq_true rfl⟩
      obtain ⟨target, hfind⟩ := Option.isSome_iff_exists.mp hsome
      exact ⟨target, (h.first _ _).mpr hfind⟩
    obtain ⟨ta, hta⟩ := hentry a ha
    obtain ⟨tb, htb⟩ := hentry b hb
    have hrank : TargetId.rank a.2.targetId = TargetId.rank b.2.targetId :=
      TargetId.rank_inj.mpr (TargetId.toString_eq_iff.mpr (.inr (.inl hstraddles)))
    exact hstraddles.ne (congrArg Prod.fst (OrderedMap.eq_of_rank_eq hta htb hrank))
  · intro h
    refine ⟨?_, fun targetId target => ?_⟩
    · refine List.pairwise_map.mpr ((mapOfTargets targets).sorted.imp fun hlt heq => ?_)
      exact hlt.ne (congrArg TargetId.rank heq)
    · rw [mem_mapOfTargets]
      constructor
      · rintro ⟨rfl, hfind⟩
        rwa [find?_toString h (List.mem_of_find?_eq_some hfind)] at hfind
      · intro hfind
        have hid : target.2.targetId = targetId := by simpa using List.find?_some hfind
        subst hid
        refine ⟨rfl, ?_⟩
        rwa [find?_toString h (List.mem_of_find?_eq_some hfind)]

/-- Two listed targets that straddle are all that the map confuses. -/
theorem storedTargets_holdFirsts_iff (targets : List (TargetAddressInformation A)) :
    ((∃ map, storedTargets lib targets = some map ∧ HoldsFirsts targets map) ↔
      ∀ a ∈ targets, ∀ b ∈ targets, ¬TargetId.Straddles a.2.targetId b.2.targetId) ∧
    ∀ a b : TargetId, (TargetId.Equivalent a b → a = b) ↔
      ¬(TargetId.Straddles a b ∨ TargetId.Straddles b a) := by
  constructor
  · rw [storedTargets, targetsAddressInformation_roundTrip, ← holdsFirsts_mapOfTargets_iff]
    simp
  · intro a b
    rw [TargetId.equivalent_iff, TargetId.toString_eq_iff]
    constructor
    · rintro h (hstraddles | hstraddles)
      · exact hstraddles.ne (h (.inr (.inl hstraddles)))
      · exact hstraddles.ne (h (.inr (.inr hstraddles))).symm
    · exact fun hnone h => h.resolve_right hnone

/-- ABCD_1 at position 2 and ABCD at position 1_2: the second one is lost. -/
theorem storedTargets_lose_target :
    let first : TargetAddressInformation Text :=
      (text "192.168.1.1", { thwId := text "ABCD_1", thwPosition := text "2" })
    let second : TargetAddressInformation Text :=
      (text "192.168.1.2", { thwId := text "ABCD", thwPosition := text "1_2" })
    (storedTargets .canonical [first, second]).map (·.entries) =
        some [(first.2.targetId, first)] ∧
      (¬∃ map, storedTargets .canonical [first, second] = some map ∧
        HoldsFirsts [first, second] map) ∧
      TargetId.Equivalent first.2.targetId second.2.targetId ∧
      first.2.targetId ≠ second.2.targetId := by
  intro first second
  have hstraddles : TargetId.Straddles second.2.targetId first.2.targetId :=
    ⟨text "1", by decide, by decide⟩
  refine ⟨?_, ?_, TargetId.equivalent_iff.mpr (by decide), by decide⟩
  · rw [storedTargets, targetsAddressInformation_roundTrip]
    decide +kernel
  · rw [storedTargets, targetsAddressInformation_roundTrip]
    rintro ⟨map, hmap, hfirsts⟩
    cases hmap
    exact (holdsFirsts_mapOfTargets_iff _).mp hfirsts second (by simp) first (by simp) hstraddles

end Find

end Arinc615a
