import Arinc615a.Find.Network
import Arinc615a.Find.TargetInformation

/-!
# The address of a target

`FindQueryCommand.cpp` writes a list of the targets that have answered a query, in which the
commands in `arinc_615a_commands/operations/` look up the address of their target.
-/

open Reasoning

namespace Arinc615a.Commands

open Files Find Find.TargetInformation

/-! ## The query -/

namespace FindQueryCommand

def response (targets : List (TargetAddressInformation Nat)) (target : Nat)
    (information : TargetInformation) : List (TargetAddressInformation Nat) :=
  targets ++ [(target, information)]

/-- Only the response handler changes the list. -/
def handle (targets : List (TargetAddressInformation Nat)) :
    Find.NetworkObservation → List (TargetAddressInformation Nat)
  | .query (.response target information) => response targets target information
  | _ => targets

/-- `targetsV` behind all that has been seen of the query. -/
def targets (out : List Find.NetworkObservation) : List (TargetAddressInformation Nat) :=
  out.foldl handle []

/-- The list that `execute` writes when the query is done; an empty one is not written. -/
def targetsList (lib : AddressLibrary Nat) (targets : List (TargetAddressInformation Nat)) :
    Option Properties :=
  if targets = [] then none else some (targetsAddressInformation lib targets)

end FindQueryCommand

/-! ## The operations -/

/-- The map compares a text with the joined texts of its keys. -/
def findText? {A : Type} (map : TargetsAddressInformationMap A) (targetId : Text) :
    Option (TargetAddressInformation A) :=
  (map.entries.find? fun entry => entry.1.rank = targetId.map UInt8.toNat).map (·.2)

/-- The beginning of `execute`, for a list that is given; `none` if it throws. -/
def lookupTargetAddress {A : Type} (lib : AddressLibrary A) (isUnspecified : A → Bool)
    (targetsList : Properties) (targetId : Text) (targetAddress : A) : Option A := do
  let targets ← targetsAddressInformationOf lib targetsList
  let targetAddress := match findText? (mapOfTargets targets) targetId with
    | some target => target.1
    | none => targetAddress
  if isUnspecified targetAddress then none else some targetAddress

/-- The map finds the target that is listed first of those with the text. -/
theorem findText?_mapOfTargets {A : Type} (targets : List (TargetAddressInformation A))
    (targetId : Text) :
    findText? (mapOfTargets targets) targetId =
      targets.find? fun target => target.2.targetId.toString = targetId := by
  have hinjective : Function.Injective (List.map UInt8.toNat) :=
    List.map_injective_iff.mpr fun _ _ => UInt8.toNat_inj.mp
  have hentry : ∀ entry : TargetId × TargetAddressInformation A,
      entry.1.rank = targetId.map UInt8.toNat ↔ entry.1.toString = targetId :=
    fun entry => hinjective.eq_iff
  unfold findText?
  cases hfind : (mapOfTargets targets).entries.find? fun entry =>
      entry.1.rank = targetId.map UInt8.toNat with
  | some entry =>
    obtain ⟨key, target⟩ := entry
    have hkey : key.toString = targetId :=
      (hentry (key, target)).mp (by simpa using List.find?_some hfind)
    obtain ⟨-, hfirst⟩ := mem_mapOfTargets.mp (List.mem_of_find?_eq_some hfind)
    rw [hkey] at hfirst
    exact hfirst.symm
  | none =>
    symm
    refine List.find?_eq_none.mpr fun target htarget htext => ?_
    -- the first listed target of the text has an entry
    have hsome : (targets.find? fun target => target.2.targetId.toString = targetId).isSome :=
      List.find?_isSome.mpr ⟨target, htarget, htext⟩
    obtain ⟨first, hfirst⟩ := Option.isSome_iff_exists.mp hsome
    have htext : first.2.targetId.toString = targetId := by simpa using List.find?_some hfirst
    have hmem : (first.2.targetId, first) ∈ (mapOfTargets targets).entries :=
      mem_mapOfTargets.mpr ⟨rfl, by rw [htext]; exact hfirst⟩
    exact List.find?_eq_none.mp hfind _ hmem (decide_eq_true ((hentry _).mpr htext))

/-! ## From the answers to the address -/

def answered : Find.NetworkObservation → Option (TargetAddressInformation Nat)
  | .query (.response target information) => some (target, information)
  | _ => none

theorem targets_eq_filterMap (out : List Find.NetworkObservation) :
    FindQueryCommand.targets out = out.filterMap answered := by
  have hfoldl : ∀ targets, out.foldl FindQueryCommand.handle targets =
      targets ++ out.filterMap answered := by
    intro targets
    induction out generalizing targets with
    | nil => rw [List.foldl_nil, List.filterMap_nil, List.append_nil]
    | cons o out ih =>
      rw [List.foldl_cons, ih, List.filterMap_cons]
      unfold FindQueryCommand.handle answered
      split
      · rw [FindQueryCommand.response, List.append_assoc]
        rfl
      · rfl
  exact hfoldl []

theorem answered_eq_some {o : Find.NetworkObservation} {target : TargetAddressInformation Nat}
    (h : answered o = some target) : o = .query (.response target.1 target.2) := by
  unfold answered at h
  split at h
  · cases h
    rfl
  · cases h

/-- The target that is found has been the first to answer with its identifier. -/
theorem first_of_find? {out : List Find.NetworkObservation} {targetId : Text}
    {target : TargetAddressInformation Nat}
    (hfind : ((FindQueryCommand.targets out).find? fun target =>
      target.2.targetId.toString = targetId) = some target) :
    ∃ pre post, out = pre ++ .query (.response target.1 target.2) :: post ∧
      target.2.targetId.toString = targetId ∧
      ∀ address other, .query (.response address other) ∈ pre →
        other.targetId.toString ≠ targetId := by
  rw [targets_eq_filterMap] at hfind
  obtain ⟨htext, front, back, hsplit, hfront⟩ := List.find?_eq_some_iff_append.mp hfind
  -- the list splits where the observations do
  obtain ⟨pre, rest, rfl, rfl, hrest⟩ := List.filterMap_eq_append_iff.mp hsplit
  obtain ⟨skipped, o, post, rfl, hskipped, ho, rfl⟩ := List.filterMap_eq_cons_iff.mp hrest
  obtain rfl := answered_eq_some ho
  refine ⟨pre ++ skipped, post, by rw [List.append_assoc], of_decide_eq_true htext, ?_⟩
  intro address other hmem
  rcases List.mem_append.mp hmem with hmem | hmem
  · simpa using hfront _ (List.mem_filterMap.mpr ⟨_, hmem, rfl⟩)
  · exact absurd (hskipped _ hmem) (by simp [answered])

/-- An address is looked up in the list that has been read, and used unless it is unspecified. -/
theorem lookupTargetAddress_eq_some {A : Type} {lib : AddressLibrary A} {isUnspecified : A → Bool}
    {targets : List (TargetAddressInformation A)} {targetId : Text} {targetAddress address : A}
    (h : lookupTargetAddress lib isUnspecified (targetsAddressInformation lib targets) targetId
      targetAddress = some address) :
    isUnspecified address = false ∧
      address = match targets.find? fun target => target.2.targetId.toString = targetId with
        | some target => target.1
        | none => targetAddress := by
  unfold lookupTargetAddress at h
  rw [targetsAddressInformation_roundTrip] at h
  dsimp only [Option.bind_eq_bind, Option.bind_some] at h
  rw [findText?_mapOfTargets] at h
  obtain ⟨hspecified, heq⟩ := Option.ite_none_left_eq_some.mp h
  cases heq
  exact ⟨eq_false_of_ne_true hspecified, rfl⟩

/-- A command that looks up its target in the list of a query uses the address that the first
answer with the identifier of the target has come from, and that is one of a server that has sent
this answer; without such an answer it uses the address that it has been given. -/
theorem lookupTargetAddress_found {raw : RawDataCodec} {s s' : Find.Network}
    {events : List Find.NetworkEvent} {out : List Find.NetworkObservation}
    {lib : AddressLibrary Nat} {isUnspecified : Nat → Bool} {targetsList : Properties}
    {targetId : Text} {targetAddress address : Nat} (hunstarted : s.Unstarted)
    (horderly : (Find.networkSystem raw).Throughout (Find.Orderly raw) s events)
    (hrun : (Find.networkSystem raw).run s events = some (s', out))
    (hlist : FindQueryCommand.targetsList lib (FindQueryCommand.targets out) = some targetsList)
    (hlookup : lookupTargetAddress lib isUnspecified targetsList targetId targetAddress =
      some address) :
    (address = targetAddress ∧ ∀ target information, .query (.response target information) ∈ out →
        information.targetId.toString ≠ targetId) ∨
      ∃ pre information post, out = pre ++ .query (.response address information) :: post ∧
        information.targetId.toString = targetId ∧
        (∀ target other, .query (.response target other) ∈ pre →
          other.targetId.toString ≠ targetId) ∧
        ∃ number source destination, (s.nodes.map (·.endpoint))[number]? = some source ∧
          source.address = address ∧ .node number (.response destination information) ∈ pre := by
  obtain ⟨-, hwritten⟩ := Option.ite_none_left_eq_some.mp hlist
  cases hwritten
  obtain ⟨-, haddress⟩ := lookupTargetAddress_eq_some hlookup
  cases hfind : (FindQueryCommand.targets out).find? fun target =>
      target.2.targetId.toString = targetId with
  | none =>
    rw [hfind] at haddress
    refine .inl ⟨haddress, fun target information hmem => ?_⟩
    have hlisted : (target, information) ∈ FindQueryCommand.targets out := by
      rw [targets_eq_filterMap]
      exact List.mem_filterMap.mpr ⟨_, hmem, rfl⟩
    simpa using List.find?_eq_none.mp hfind _ hlisted
  | some target =>
    rw [hfind] at haddress
    obtain rfl : address = target.1 := haddress
    obtain ⟨pre, post, hout, htext, hfirst⟩ := first_of_find? hfind
    have hexplained := find_authentic hunstarted horderly hrun pre
      (.query (.response target.1 target.2)) post hout
    obtain ⟨number, source, destination, hnumber, hsource, hsent, -⟩ := hexplained
    exact .inr ⟨pre, target.2, post, hout, htext, hfirst, number, source, destination, hnumber,
      hsource, hsent⟩

/-- A server that is found, and looked up by its identifier. -/
theorem lookupTargetAddress_found_answer :
    let found : TargetInformation := { thwId := text "HNPFMS", thwPosition := text "L" }
    let lib : AddressLibrary Nat :=
      { any := 0, toText := fun address => List.replicate address 0
        makeAddress := fun address => some address.length, makeAddress_toText := by simp }
    let events : List Find.NetworkEvent :=
      [.query (.start none), .node 0 (.start none),
        .nodeReceives 0 ⟨⟨1, 1001⟩, [0, 1, 0, 0x10]⟩, .node 0 (.receiveHandler (.received 4)),
        .node 0 (.response ⟨1, 1001⟩ found false),
        .queryReceives ⟨⟨7, 1001⟩, Server.response .bigEndian found⟩,
        .query (.receiveHandler (.received 15))]
    ∃ after out targetsList,
      (Find.networkSystem .bigEndian).run
          { endpoint := ⟨1, 1001⟩, nodes := [{ endpoint := ⟨7, 1001⟩ }] } events =
        some (after, out) ∧
      FindQueryCommand.targetsList lib (FindQueryCommand.targets out) = some targetsList ∧
      lookupTargetAddress lib (· == 0) targetsList (text "HNPFMS_L") 0 = some 7 ∧
      ∃ pre information post, out = pre ++ .query (.response 7 information) :: post ∧
        information.targetId.toString = text "HNPFMS_L" ∧
        ∃ number source destination, [(⟨7, 1001⟩ : Tftp.Endpoint)][number]? = some source ∧
          source.address = 7 ∧ .node number (.response destination information) ∈ pre := by
  intro found lib events
  have hunstarted : Find.Network.Unstarted
      { endpoint := ⟨1, 1001⟩, nodes := [{ endpoint := ⟨7, 1001⟩ }] } :=
    ⟨rfl, rfl, List.forall_mem_singleton.mpr rfl, rfl⟩
  have horderly : (Find.networkSystem .bigEndian).Throughout (Find.Orderly .bigEndian)
      { endpoint := ⟨1, 1001⟩, nodes := [{ endpoint := ⟨7, 1001⟩ }] } events := by
    refine (Reactive.throughout_cons _ rfl).mpr ⟨⟨rfl, rfl⟩, ?_⟩
    refine (Reactive.throughout_cons _ rfl).mpr ⟨fun node hnode => ?_, ?_⟩
    · cases hnode
      rfl
    -- whatever the state, the other events are in order
    · have hothers : ∀ e ∈ events.drop 2, ∀ s, Find.Orderly .bigEndian s e := by
        have hfree : Presentable .bigEndian found := .inl (by decide)
        simp [events, Find.Orderly, hfree]
      exact Reactive.throughout_of_forall _ hothers
  obtain ⟨after, out, hrun, htargets⟩ : ∃ after out,
      (Find.networkSystem .bigEndian).run
          { endpoint := ⟨1, 1001⟩, nodes := [{ endpoint := ⟨7, 1001⟩ }] } events =
        some (after, out) ∧ FindQueryCommand.targets out = [(7, found)] :=
    Reactive.exists_run_of_any _ (by decide +kernel)
  have hlist : FindQueryCommand.targetsList lib (FindQueryCommand.targets out) =
      some (targetsAddressInformation lib [(7, found)]) := by
    rw [htargets]
    rfl
  have hlookup : lookupTargetAddress lib (· == 0) (targetsAddressInformation lib [(7, found)])
      (text "HNPFMS_L") 0 = some 7 := by
    unfold lookupTargetAddress
    rw [targetsAddressInformation_roundTrip]
    dsimp only [Option.bind_eq_bind, Option.bind_some]
    rw [findText?_mapOfTargets]
    decide
  refine ⟨after, out, _, hrun, hlist, hlookup, ?_⟩
  rcases lookupTargetAddress_found hunstarted horderly hrun hlist hlookup with
    ⟨hgiven, -⟩ | ⟨pre, information, post, hout, htext, -, hsent⟩
  · cases hgiven
  · exact ⟨pre, information, post, hout, htext, hsent⟩

end Arinc615a.Commands
