import Arinc615a.Target.Operation
import Arinc615a.Tftp.Options

/-!
# Checksum options that a host answers

The client operations take the checksum options of an answer out of it, and do not look at whether
they are valid.  An answer with an invalid one is rejected only for another reason.
-/

open Reasoning

namespace Arinc615a.Tftp

section

variable (lib : OptionsLibrary) (options : Options)

/-- The option of a type is there, and no check value can be made of it. -/
def MalformedChecksum (type : CheckValueType) : Prop :=
  ∃ option, options.lookup type.name = some option ∧
    ∀ checkValue, lib.checkValue type option = some checkValue → lib.isSet checkValue = false

/-- Among the options of some types there is a malformed one, or more than one. -/
def ChecksumsInvalid (types : List CheckValueType) : Prop :=
  (∃ type ∈ types, MalformedChecksum lib options type) ∨
    ∃ type ∈ types, ∃ type' ∈ types, type ≠ type' ∧ type.name ∈ options ∧ type'.name ∈ options

/-- An option of another kind is there, or a checksum option that comes when the ones before it are
invalid already. -/
def Unconsumed : Prop :=
  (∃ name ∈ options, ∀ option : KnownOptions, name ≠ option.name) ∨
    ∃ before type after, checksumTypes = before ++ type :: after ∧ type.name ∈ options ∧
      ChecksumsInvalid lib options before

/-- The TFTP operation fails when options are left over. -/
def NegotiationFails (result : Bool × Options) : Prop := result.1 = false ∨ result.2 ≠ ∅

/-- Whether the loop stops at one of the types, when a checksum option has been found before or
not. -/
def Stops : Bool → List CheckValueType → Prop
  | _, [] => False
  | found, type :: types =>
    if type.name ∈ options then
      found = true ∨ MalformedChecksum lib options type ∨ Stops true types
    else Stops found types

end

variable {lib : OptionsLibrary} {options : Options}

theorem not_malformed_of_notMem {type : CheckValueType} (h : type.name ∉ options) :
    ¬MalformedChecksum lib options type := by
  rintro ⟨option, hoption, -⟩
  rw [AList.lookup_eq_none.mpr h] at hoption
  cases hoption

theorem stops_iff {found : Bool} {types : List CheckValueType} (hnodup : types.Nodup) :
    Stops lib options found types ↔
      ChecksumsInvalid lib options types ∨ found = true ∧ ∃ type ∈ types, type.name ∈ options := by
  induction types generalizing found with
  | nil => simp [Stops, ChecksumsInvalid]
  | cons type types ih =>
    obtain ⟨hnew, hnodup⟩ := List.nodup_cons.mp hnodup
    have hne : ∀ type' ∈ types, type ≠ type' := fun type' htype' heq => hnew (heq ▸ htype')
    unfold Stops
    by_cases hmem : type.name ∈ options
    · rw [if_pos hmem, ih hnodup]
      unfold ChecksumsInvalid
      simp only [List.exists_mem_cons_iff]
      grind
    · -- an option that is missing changes nothing
      have hwell : ¬MalformedChecksum lib options type := not_malformed_of_notMem hmem
      rw [if_neg hmem, ih hnodup]
      unfold ChecksumsInvalid
      simp only [List.exists_mem_cons_iff]
      grind

/-- Taking out another option does not matter. -/
theorem malformed_erase {type : CheckValueType} {name : Text} (h : type.name ≠ name) :
    MalformedChecksum lib (options.erase name) type ↔ MalformedChecksum lib options type := by
  unfold MalformedChecksum
  rw [AList.lookup_erase_ne h]

theorem stops_erase {name : Text} {found : Bool} {types : List CheckValueType}
    (h : ∀ type ∈ types, type.name ≠ name) :
    Stops lib (options.erase name) found types ↔ Stops lib options found types := by
  induction types generalizing found with
  | nil => exact Iff.rfl
  | cons type types ih =>
    obtain ⟨htype, hrest⟩ := List.forall_mem_cons.mp h
    unfold Stops
    simp only [AList.mem_erase, htype, ne_eq, not_false_eq_true, true_and, malformed_erase htype,
      ih hrest]

/-- A checksum option that is found ends the loop, or its check value is noted. -/
theorem checksumLoop_found {type : CheckValueType} {option : Text}
    (h : options.lookup type.name = some option) (types : List CheckValueType)
    (retVal : Bool × CheckValue) :
    (retVal ≠ (true, {}) ∨ MalformedChecksum lib options type) ∧
        checksumLoop lib (type :: types) retVal options =
          ((false, {}), options.erase type.name) ∨
      retVal = (true, {}) ∧ ¬MalformedChecksum lib options type ∧
        ∃ checkValue : CheckValue, (true, checkValue) ≠ (true, ({} : CheckValue)) ∧
          checksumLoop lib (type :: types) retVal options =
            checksumLoop lib types (true, checkValue) (options.erase type.name) := by
  rw [checksumLoop, h]
  dsimp only
  by_cases hfound : retVal = (true, {})
  · rw [if_neg (not_not.mpr hfound)]
    cases hread : lib.checkValue type option with
    | none => exact .inl ⟨.inr ⟨option, h, fun checkValue hc => by simp [hread] at hc⟩, rfl⟩
    | some checkValue =>
      dsimp only
      cases hset : lib.isSet checkValue with
      | false =>
        refine .inl ⟨.inr ⟨option, h, fun checkValue' hc => ?_⟩, rfl⟩
        cases hread.symm.trans hc
        exact hset
      | true =>
        refine .inr ⟨hfound, ?_, checkValue, fun heq => ?_, rfl⟩
        · rintro ⟨option', hoption, hunset⟩
          cases h.symm.trans hoption
          exact absurd (hunset checkValue hread) (by simp [hset])
        · cases heq
          exact absurd lib.isSet_noCheckValue (by simp [hset])
  · rw [if_pos hfound]
    exact .inl ⟨.inl hfound, rfl⟩

/-- What comes before the members of a list: nothing, or the head and what comes before it in the
tail. -/
theorem forall_split_cons {α : Type} {Q : α → Prop} {P : List α → Prop} {a : α} {l : List α} :
    (∀ before b after, a :: l = before ++ b :: after → Q b → P before) ↔
      (Q a → P []) ∧ ∀ before b after, l = before ++ b :: after → Q b → P (a :: before) := by
  constructor
  · refine fun h => ⟨h [] a l rfl, fun before b after hl => ?_⟩
    exact h (a :: before) b after (by rw [hl, List.cons_append])
  · rintro ⟨hfirst, hrest⟩ before b after hl
    cases before with
    | nil =>
      cases hl
      exact hfirst
    | cons first before =>
      cases hl
      exact hrest before b after rfl

/-- What the loop leaves: all but the checksum options up to the one it stops at. -/
theorem mem_checksumLoop {types : List CheckValueType} {retVal : Bool × CheckValue}
    (hnodup : (types.map CheckValueType.name).Nodup) (name : Text) :
    name ∈ (checksumLoop lib types retVal options).2 ↔
      name ∈ options ∧ ∀ before type after, types = before ++ type :: after → type.name = name →
        Stops lib options (retVal ≠ (true, {})) before := by
  induction types generalizing retVal options with
  | nil => simp [checksumLoop]
  | cons type types ih =>
    obtain ⟨hnew, hnodup⟩ := List.nodup_cons.mp hnodup
    rw [forall_split_cons]
    have hnil (found : Bool) : ¬Stops lib options found [] := id
    cases hlookup : options.lookup type.name with
    | none =>
      have hmem : type.name ∉ options := AList.lookup_eq_none.mp hlookup
      have hstops (found : Bool) (before : List CheckValueType) :
          Stops lib options found (type :: before) ↔ Stops lib options found before := by
        rw [Stops, if_neg hmem]
      rw [checksumLoop, hlookup]
      dsimp only
      rw [ih hnodup]
      simp only [hstops, hnil, imp_false]
      grind
    | some option =>
      have hmem : type.name ∈ options := AList.lookup_isSome.mp (hlookup ▸ rfl)
      have hstops (found : Bool) (before : List CheckValueType) :
          Stops lib options found (type :: before) ↔
            found = true ∨ MalformedChecksum lib options type ∨ Stops lib options true before := by
        rw [Stops, if_pos hmem]
      rcases checksumLoop_found hlookup types retVal with
        ⟨hstop, hloop⟩ | ⟨hfound, hwell, checkValue, hne, hloop⟩
      · rw [hloop, AList.mem_erase]
        simp only [hstops, hnil]
        grind
      · rw [hloop, ih hnodup, AList.mem_erase]
        have herase : ∀ before type' after, types = before ++ type' :: after →
            (Stops lib (options.erase type.name) true before ↔ Stops lib options true before) :=
          fun before type' after htypes => stops_erase fun type'' htype'' heq =>
            hnew (heq ▸ List.mem_map_of_mem (htypes ▸ List.mem_append_left _ htype''))
        simp only [hstops, hnil, hfound, hne, ne_eq, not_true_eq_false, decide_false,
          not_false_eq_true, decide_true, Bool.false_eq_true, false_or, hwell]
        grind

theorem CheckValueType.name_injective : Function.Injective CheckValueType.name := by
  intro type type' h
  cases type <;> cases type' <;> first | rfl | exact absurd h (by decide)

/-- A known option is the one for the port, the one for the part number, or a checksum option. -/
theorem KnownOptions.cases_name (option : KnownOptions) :
    option.name = KnownOptions.port.name ∨ option.name = KnownOptions.partNumber.name ∨
      ∃ type ∈ checksumTypes, type.name = option.name := by
  cases option <;> decide

/-- A type has one place in the list. -/
theorem checksumTypes_split {before before' after after' : List CheckValueType}
    {type : CheckValueType} (h : checksumTypes = before ++ type :: after)
    (h' : checksumTypes = before' ++ type :: after') : before = before' := by
  have hnodup : (before ++ type :: after).Nodup := h ▸ nodup_checksumTypes.of_map
  have hafter : type ∉ after := (List.nodup_cons.mp (List.nodup_append.mp hnodup).2.1).1
  have hbefore : type ∉ before := fun hmem =>
    (List.nodup_append.mp hnodup).2.2 type hmem type (List.mem_cons_self ..) rfl
  exact ((List.append_cons_inj_of_notMem hbefore hafter).mp (h.symm.trans h')).1

/-- What is left of the options when the three kinds have been read. -/
def leftOver (lib : OptionsLibrary) (options : Options) : Options :=
  (checksum lib ((options.erase KnownOptions.port.name).erase KnownOptions.partNumber.name)).2

theorem mem_leftOver (name : Text) :
    name ∈ leftOver lib options ↔
      (name ≠ KnownOptions.port.name ∧ name ≠ KnownOptions.partNumber.name ∧ name ∈ options) ∧
        ∀ before type after, checksumTypes = before ++ type :: after → type.name = name →
          ChecksumsInvalid lib options before := by
  unfold leftOver checksum
  rw [mem_checksumLoop nodup_checksumTypes, AList.mem_erase, AList.mem_erase]
  have hstops : ∀ before type after, checksumTypes = before ++ type :: after →
      (Stops lib ((options.erase KnownOptions.port.name).erase KnownOptions.partNumber.name) false
          before ↔ ChecksumsInvalid lib options before) := by
    intro before type after htypes
    have hnodup : (before ++ type :: after).Nodup := htypes ▸ nodup_checksumTypes.of_map
    rw [stops_erase fun type _ => type.name_ne.2, stops_erase fun type _ => type.name_ne.1,
      stops_iff (List.nodup_append.mp hnodup).1]
    simp
  simp only [ne_eq, not_true_eq_false, decide_false]
  grind

theorem unconsumed_iff : Unconsumed lib options ↔ leftOver lib options ≠ ∅ := by
  constructor
  · rintro (⟨name, hmem, hunknown⟩ | ⟨before, type, after, htypes, hmem, hinvalid⟩) hempty
    · -- an option of another kind is never read
      refine AList.notMem_empty name (hempty ▸ (mem_leftOver name).mpr ⟨?_, ?_⟩)
      · exact ⟨hunknown .port, hunknown .partNumber, hmem⟩
      · rintro before type after htypes rfl
        obtain ⟨option, hoption⟩ : ∃ option, type.knownOption = some option := by
          have hused : type ≠ .notUsed := mem_checksumTypes.mp (htypes ▸ by simp)
          cases type with
          | notUsed => exact absurd rfl hused
          | _ => exact ⟨_, rfl⟩
        exact absurd (CheckValueType.name_knownOption hoption) (hunknown option)
    · refine AList.notMem_empty type.name (hempty ▸ (mem_leftOver type.name).mpr ⟨?_, ?_⟩)
      · exact ⟨type.name_ne.1, type.name_ne.2, hmem⟩
      · intro before' type' after' htypes' hname
        cases CheckValueType.name_injective hname
        exact checksumTypes_split htypes htypes' ▸ hinvalid
  · intro hleft
    obtain ⟨name, hname⟩ : ∃ name, name ∈ leftOver lib options := by
      by_contra hnone
      exact hleft (Options.eq_empty_of_lookup fun name =>
        AList.lookup_eq_none.mpr fun hmem => hnone ⟨name, hmem⟩)
    obtain ⟨⟨hport, hpartNumber, hmem⟩, hinvalid⟩ := (mem_leftOver name).mp hname
    by_cases hknown : ∃ option : KnownOptions, name = option.name
    · obtain ⟨option, rfl⟩ := hknown
      rcases option.cases_name with heq | heq | ⟨type, htype, heq⟩
      · exact absurd heq hport
      · exact absurd heq hpartNumber
      · obtain ⟨before, after, htypes⟩ := List.append_of_mem htype
        exact .inr ⟨before, type, after, htypes, heq ▸ hmem, hinvalid before type after htypes heq⟩
    · exact .inl ⟨name, hmem, fun option heq => hknown ⟨option, heq⟩⟩

/-- The handler is called with what has been read, and what has not is left for the TFTP
operation. -/
theorem handleOptionNegotiation_of_port (lib : OptionsLibrary) (options : Options)
    (hport : (lib.getOption options KnownOptions.port.name).1 = true) :
    ∃ read, ∀ handler, handleOptionNegotiation lib handler options =
      (handler read, leftOver lib options) := by
  refine ⟨?read, fun handler => ?called⟩
  case called =>
    unfold handleOptionNegotiation leftOver
    simp only [hport, lib.getOption_rest, Bool.not_true, Bool.false_eq_true, if_false]
    rfl

/-- An answer with a malformed checksum option, or with more than one, is rejected whatever the
operation would accept exactly when its port option is malformed or something is left over. -/
theorem negotiation_checksumsInvalid_iff (lib : OptionsLibrary) (serverOptions : Options) :
    (ChecksumsInvalid lib serverOptions checksumTypes → ∀ optionNegotiationHandler,
        NegotiationFails (handleOptionNegotiation lib optionNegotiationHandler serverOptions)) ↔
      (ChecksumsInvalid lib serverOptions checksumTypes →
        (lib.getOption serverOptions KnownOptions.port.name).1 = false ∨
          Unconsumed lib serverOptions) := by
  refine imp_congr_right fun _ => ?_
  cases hport : (lib.getOption serverOptions KnownOptions.port.name).1 with
  | false =>
    refine iff_of_true (fun handler => .inl ?_) (.inl rfl)
    simp [handleOptionNegotiation, hport]
  | true =>
    obtain ⟨read, hread⟩ := handleOptionNegotiation_of_port lib serverOptions hport
    simp only [hread, NegotiationFails, unconsumed_iff, Bool.true_eq_false, false_or]
    -- a handler may accept whatever has been read
    exact ⟨fun h => (h fun _ => true).resolve_left (by simp), fun h _ => .inr h⟩

/-- A check value of seven bytes for a code of 64 bits, which a target takes for no check value. -/
theorem negotiation_malformed_accepted :
    ∃ serverOptions, ChecksumsInvalid .hexadecimal serverOptions checksumTypes ∧
      ¬NegotiationFails (handleOptionNegotiation .hexadecimal
        (Target.Operation.protocolFileOptionsNegotiation {}) serverOptions) := by
  refine ⟨AList.singleton (text "checksum_8") (text "0123456789ABCD"), .inl ⟨.crc64, ?_⟩, ?_⟩
  · refine ⟨by decide, text "0123456789ABCD", by decide, ?_⟩
    have hread : OptionsLibrary.hexadecimal.checkValue .crc64 (text "0123456789ABCD") = none := by
      decide +kernel
    simp [hread]
  · rintro (hrejected | hleft)
    · exact absurd hrejected (by decide +kernel)
    · exact hleft (AList.ext (by decide +kernel))

end Arinc615a.Tftp
