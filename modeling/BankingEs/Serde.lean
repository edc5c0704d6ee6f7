import Mathlib.Data.Rat.Defs
import Mathlib.Data.List.Basic
import Mathlib.Data.List.Nodup
import Mathlib.Data.List.Zip
import Mathlib.Logic.Equiv.Defs

/-! Derived serialisation. A record is written as an object and read from an object, by the names
of its fields, or from an array, by their places. An enumeration with an internal tag is written
as the record of its variant with one more entry, the tag. -/

namespace BankingEs.Serde

/-- A document. Integers and other numbers are told apart. -/
inductive Document where
  | null
  | bool (value : Bool)
  | integer (value : Int)
  | float (value : ℚ)
  | string (text : String)
  | array (items : List Document)
  | object (entries : List (String × Document))

/-- How the values of a type are written and read. `Fits` tells which values of a model's type the
type has: those come back as they were written, and nothing else is read. -/
structure Format (α : Type) where
  Fits : α → Prop
  encode : α → Document
  decode : Document → Option α
  decodes : ∀ value, Fits value → decode (encode value) = some value
  sound : ∀ document value, decode document = some value → Fits value

variable {α β τ : Type}

namespace Format

def bool : Format Bool where
  Fits _ := True
  encode := .bool
  decode
    | .bool value => some value
    | _ => none
  decodes _ _ := rfl
  sound _ _ _ := trivial

def string : Format String where
  Fits _ := True
  encode := .string
  decode
    | .string text => some text
    | _ => none
  decodes _ _ := rfl
  sound _ _ _ := trivial

/-- The integers from a lowest one on, up to a bound. -/
def integer (low high : Int) : Format Int where
  Fits value := low ≤ value ∧ value < high
  encode := .integer
  decode
    | .integer value => if low ≤ value ∧ value < high then some value else none
    | _ => none
  decodes _ fits := if_pos fits
  sound document value decoded := by
    cases document with
    | integer number =>
      simp only [Option.ite_none_right_eq_some, Option.some.injEq] at decoded
      exact decoded.2 ▸ decoded.1
    | _ => cases decoded

def natural (bound : Nat) : Format Nat where
  Fits value := value < bound
  encode value := .integer value
  decode
    | .integer value => if 0 ≤ value ∧ value.toNat < bound then some value.toNat else none
    | _ => none
  decodes value fits := if_pos ⟨Int.natCast_nonneg value, fits⟩
  sound document value decoded := by
    cases document with
    | integer number =>
      simp only [Option.ite_none_right_eq_some, Option.some.injEq] at decoded
      exact decoded.2 ▸ decoded.1.2
    | _ => cases decoded

@[simp] theorem bool_fits (value : Bool) : bool.Fits value := trivial

@[simp] theorem string_fits (value : String) : string.Fits value := trivial

def i64 : Format Int := integer (-9223372036854775808) 9223372036854775808

def u32 : Format Nat := natural 4294967296

def text (display : α → String) (parse : String → Option α) (parses : ∀ value, parse (display value) = some value) :
    Format α where
  Fits _ := True
  encode value := .string (display value)
  decode
    | .string text => parse text
    | _ => none
  decodes value _ := parses value
  sound _ _ _ := trivial

/-- A type of numbers that is written as a text and read from a text or a number. -/
def number (display : α → String) (parse : String → Option α) (ofInteger : Int → Option α) (ofFloat : ℚ → Option α)
    (parses : ∀ value, parse (display value) = some value) : Format α where
  Fits _ := True
  encode value := .string (display value)
  decode
    | .string text => parse text
    | .integer value => ofInteger value
    | .float value => ofFloat value
    | _ => none
  decodes value _ := parses value
  sound _ _ _ := trivial

/-- A value that may be missing. -/
def option (item : Format α) (filled : ∀ value, item.encode value ≠ .null) : Format (Option α) where
  Fits value := ∀ inner ∈ value, item.Fits inner
  encode
    | some value => item.encode value
    | none => .null
  decode
    | .null => some none
    | document => (item.decode document).map some
  decodes value fits := by
    cases value with
    | none => rfl
    | some value =>
      have read := item.decodes value (fits value rfl)
      cases written : item.encode value with
      | null => exact absurd written (filled value)
      | _ => simp only [written] at read ⊢; rw [read]; rfl
  sound document value decoded := by
    intro inner some
    subst some
    cases document with
    | null => cases decoded
    | _ =>
      obtain ⟨found, read, same⟩ := Option.map_eq_some_iff.mp decoded
      cases same
      exact item.sound _ _ read

def decodeItems (item : Format α) : List Document → Option (List α)
  | [] => some []
  | document :: documents => do
    let value ← item.decode document
    let values ← decodeItems item documents
    return value :: values

theorem decodeItems_encode (item : Format α) (values : List α) (fits : ∀ value ∈ values, item.Fits value) :
    item.decodeItems (values.map item.encode) = some values := by
  induction values with
  | nil => rfl
  | cons value values ih =>
    have first := item.decodes value (fits value List.mem_cons_self)
    have rest := ih fun other member => fits other (List.mem_cons_of_mem _ member)
    simp only [List.map_cons, decodeItems, first, rest]
    rfl

private theorem decodeItems_sound (item : Format α) {documents : List Document} {values : List α}
    (decoded : item.decodeItems documents = some values) : ∀ value ∈ values, item.Fits value := by
  induction documents generalizing values with
  | nil =>
    cases decoded
    exact fun _ member => by cases member
  | cons document documents ih =>
    obtain ⟨first, read, more⟩ := Option.bind_eq_some_iff.mp decoded
    obtain ⟨rest, others, same⟩ := Option.bind_eq_some_iff.mp more
    cases same
    intro value member
    rcases List.mem_cons.mp member with rfl | member
    · exact item.sound _ _ read
    · exact ih others value member

def list (item : Format α) : Format (List α) where
  Fits values := ∀ value ∈ values, item.Fits value
  encode values := .array (values.map item.encode)
  decode
    | .array documents => item.decodeItems documents
    | _ => none
  decodes values fits := item.decodeItems_encode values fits
  sound document values decoded := by
    cases document with
    | array documents => exact item.decodeItems_sound decoded
    | _ => cases decoded

/-- A variant without fields is its name, or an object with nothing under its name. -/
def name (display : α → String) (parse : String → Option α) (parses : ∀ value, parse (display value) = some value) :
    Format α where
  Fits _ := True
  encode value := .string (display value)
  decode
    | .string text => parse text
    | .object [(text, .null)] => parse text
    | _ => none
  decodes value _ := parses value
  sound _ _ _ := trivial

end Format

def entriesOf (name : String) (entries : List (String × Document)) : List Document :=
  (entries.filter fun entry => entry.1 = name).map Prod.snd

/-- The entry of a name, if there is one. Two of them are refused. -/
def lookup (entries : List (String × Document)) (name : String) : Option (Option Document) :=
  match entriesOf name entries with
  | [] => some none
  | [document] => some (some document)
  | _ => none

/-- The fields of a type, in their order: how they are written, and how they are read from what
was found for each of them. -/
structure Record (α : Type) where
  names : List String
  Fits : α → Prop
  write : α → List Document
  read : List (Option Document) → Option α
  distinct : names.Nodup
  width : ∀ value, (write value).length = names.length
  reads : ∀ value, Fits value → read ((write value).map some) = some value
  sound : ∀ found value, read found = some value → Fits value

namespace Record

def empty : Record Unit where
  names := []
  Fits _ := True
  write _ := []
  read
    | [] => some ()
    | _ => none
  distinct := .nil
  width _ := rfl
  reads _ _ := rfl
  sound _ _ _ := trivial

/-- One more field in front. `absent` is what a missing one stands for. -/
def field (name : String) (format : Format α) (absent : Option α) (rest : Record β) (fresh : name ∉ rest.names)
    (harmless : ∀ value ∈ absent, format.Fits value) : Record (α × β) where
  names := name :: rest.names
  Fits value := format.Fits value.1 ∧ rest.Fits value.2
  write value := format.encode value.1 :: rest.write value.2
  read
    | [] => none
    | found :: others => do
      let first ← found.elim absent format.decode
      let second ← rest.read others
      return (first, second)
  distinct := List.nodup_cons.mpr ⟨fresh, rest.distinct⟩
  width value := congrArg (· + 1) (rest.width value.2)
  reads value fits := by
    simp only [List.map_cons, Option.elim, format.decodes _ fits.1, rest.reads _ fits.2]
    rfl
  sound found value read := by
    cases found with
    | nil => cases read
    | cons found others =>
      obtain ⟨first, one, more⟩ := Option.bind_eq_some_iff.mp read
      obtain ⟨second, two, same⟩ := Option.bind_eq_some_iff.mp more
      cases same
      refine ⟨?_, rest.sound _ _ two⟩
      cases found with
      | none => exact harmless _ one
      | some document => exact format.sound _ _ one

def required (name : String) (format : Format α) (rest : Record β) (fresh : name ∉ rest.names) : Record (α × β) :=
  field name format none rest fresh (fun _ impossible => by cases impossible)

def via (record : Record τ) (same : α ≃ τ) : Record α where
  names := record.names
  Fits value := record.Fits (same value)
  write value := record.write (same value)
  read found := (record.read found).map same.symm
  distinct := record.distinct
  width value := record.width (same value)
  reads value fits := by rw [record.reads _ fits, Option.map_some, same.symm_apply_apply]
  sound found value read := by
    obtain ⟨tuple, inner, rfl⟩ := Option.map_eq_some_iff.mp read
    rw [same.apply_symm_apply]
    exact record.sound _ _ inner

@[simp] theorem empty_names : empty.names = [] := rfl

@[simp] theorem field_names {name : String} {format : Format α} {absent : Option α} {rest : Record β}
    {fresh : name ∉ rest.names} {harmless : ∀ value ∈ absent, format.Fits value} :
    (field name format absent rest fresh harmless).names = name :: rest.names := rfl

@[simp] theorem required_names {name : String} {format : Format α} {rest : Record β} {fresh : name ∉ rest.names} :
    (required name format rest fresh).names = name :: rest.names := rfl

@[simp] theorem empty_fits (value : Unit) : empty.Fits value := trivial

@[simp] theorem field_fits {name : String} {format : Format α} {absent : Option α} {rest : Record β}
    {fresh : name ∉ rest.names} {harmless : ∀ value ∈ absent, format.Fits value} (value : α × β) :
    (field name format absent rest fresh harmless).Fits value ↔ format.Fits value.1 ∧ rest.Fits value.2 := .rfl

@[simp] theorem required_fits {name : String} {format : Format α} {rest : Record β} {fresh : name ∉ rest.names}
    (value : α × β) : (required name format rest fresh).Fits value ↔ format.Fits value.1 ∧ rest.Fits value.2 := .rfl

@[simp] theorem via_fits {record : Record τ} {same : α ≃ τ} (value : α) :
    (record.via same).Fits value ↔ record.Fits (same value) := .rfl

@[simp] theorem via_names {record : Record τ} {same : α ≃ τ} : (record.via same).names = record.names := rfl

def entries (record : Record α) (value : α) : List (String × Document) := record.names.zip (record.write value)

def decodeEntries (record : Record α) (entries : List (String × Document)) : Option α :=
  (record.names.mapM (lookup entries)).bind record.read

def decodeItems (record : Record α) (items : List Document) : Option α :=
  if items.length = record.names.length then record.read (items.map some) else none

/-- Each field of the value is there once, whatever else there is. -/
def Carries (record : Record α) (value : α) (entries : List (String × Document)) : Prop :=
  ∀ entry ∈ record.entries value, entriesOf entry.1 entries = [entry.2]

end Record

section Entries
variable {name : String} {names : List String} {documents : List Document} {entries others : List (String × Document)}

private theorem entriesOf_cons (entry : String × Document) : entriesOf name (entry :: entries) =
    if entry.1 = name then entry.2 :: entriesOf name entries else entriesOf name entries := by
  by_cases same : entry.1 = name
  · simp [entriesOf, same]
  · simp [entriesOf, same]

private theorem entriesOf_append : entriesOf name (entries ++ others) = entriesOf name entries ++ entriesOf name others := by
  simp [entriesOf]

private theorem entriesOf_none (absent : ∀ entry ∈ entries, entry.1 ≠ name) : entriesOf name entries = [] := by
  simpa [entriesOf] using absent

private theorem entriesOf_perm (reordered : entries.Perm others) :
    (entriesOf name entries).Perm (entriesOf name others) :=
  (reordered.filter _).map _

private theorem entriesOf_filter {other : String} (apart : name ≠ other) :
    entriesOf name (entries.filter fun entry => entry.1 ≠ other) = entriesOf name entries := by
  rw [entriesOf, entriesOf, List.filter_filter]
  congr 1
  apply List.filter_congr
  intro entry _
  by_cases same : entry.1 = name
  · simp [same, apart]
  · simp [same]

private theorem entriesOf_zip (distinct : names.Nodup) {entry : String × Document}
    (member : entry ∈ names.zip documents) :
    entriesOf entry.1 (names.zip documents) = [entry.2] := by
  induction names generalizing documents with
  | nil => cases member
  | cons first names ih =>
    cases documents with
    | nil => cases member
    | cons document documents =>
      obtain ⟨fresh, distinct⟩ := List.nodup_cons.mp distinct
      rw [List.zip_cons_cons] at member ⊢
      rw [entriesOf_cons]
      rcases List.mem_cons.mp member with rfl | later
      · rw [if_pos rfl, entriesOf_none]
        rintro other inside rfl
        exact fresh (List.of_mem_zip inside).1
      · rw [if_neg, ih distinct later]
        rintro rfl
        exact fresh (List.of_mem_zip later).1

private theorem mapM_lookup (width : documents.length = names.length)
    (carried : ∀ entry ∈ names.zip documents, entriesOf entry.1 entries = [entry.2]) :
    names.mapM (lookup entries) = some (documents.map some) := by
  induction names generalizing documents with
  | nil =>
    rw [List.length_eq_zero_iff.mp width]
    rfl
  | cons name names ih =>
    cases documents with
    | nil => cases width
    | cons document documents =>
      have found : lookup entries name = some (some document) := by
        rw [lookup, carried (name, document) List.mem_cons_self]
      have rest := ih (Nat.succ.inj width) fun entry member => carried entry (List.mem_cons_of_mem _ member)
      rw [List.mapM_cons, found, rest]
      rfl

end Entries

namespace Record
variable {record : Record α} {value : α} {entries others : List (String × Document)}

private theorem Carries.decode (carries : record.Carries value entries) (fits : record.Fits value) :
    record.decodeEntries entries = some value := by
  rw [decodeEntries, mapM_lookup (record.width value) carries, Option.bind_some, record.reads value fits]

private theorem decodeEntries_sound (decoded : record.decodeEntries entries = some value) : record.Fits value := by
  obtain ⟨found, _, read⟩ := Option.bind_eq_some_iff.mp decoded
  exact record.sound found value read

private theorem decodeItems_sound {items : List Document} (decoded : record.decodeItems items = some value) :
    record.Fits value := by
  simp only [decodeItems, Option.ite_none_right_eq_some] at decoded
  exact record.sound _ _ decoded.2

/-- The fields may come in any order, with other entries between them. -/
theorem carries_of_perm (reordered : entries.Perm (record.entries value ++ others))
    (unknown : ∀ entry ∈ others, entry.1 ∉ record.names) : record.Carries value entries := by
  intro entry member
  have own := entriesOf_zip record.distinct member
  have foreign : entriesOf entry.1 others = [] := by
    apply entriesOf_none
    rintro other inside same
    exact unknown other inside (same ▸ (List.of_mem_zip member).1)
  have all := @entriesOf_perm entry.1 _ _ reordered
  rw [entriesOf_append, foreign, List.append_nil] at all
  exact List.perm_singleton.mp (all.trans (.of_eq own))

private theorem carries_entries : record.Carries value (record.entries value) :=
  fun _ member => entriesOf_zip record.distinct member

def format (record : Record α) : Format α where
  Fits := record.Fits
  encode value := .object (record.entries value)
  decode
    | .object entries => record.decodeEntries entries
    | .array items => record.decodeItems items
    | _ => none
  decodes _ fits := carries_entries.decode fits
  sound document value decoded := by
    cases document with
    | object entries => exact decodeEntries_sound decoded
    | array items => exact decodeItems_sound decoded
    | _ => cases decoded

/-- Without an entry of the name nothing is read. -/
def Needs (record : Record α) (name : String) : Prop :=
  ∀ entries, entriesOf name entries = [] → record.decodeEntries entries = none

private theorem decodeEntries_field {name : String} {format : Format α} {absent : Option α} {rest : Record β}
    {fresh : name ∉ rest.names} {harmless : ∀ value ∈ absent, format.Fits value} :
    (field name format absent rest fresh harmless).decodeEntries entries = (do
      let found ← lookup entries name
      let others ← rest.names.mapM (lookup entries)
      let first ← found.elim absent format.decode
      let second ← rest.read others
      return (first, second)) := by
  rw [decodeEntries, field, List.mapM_cons]
  cases lookup entries name with
  | none => rfl
  | some found =>
    cases rest.names.mapM (lookup entries) with
    | none => rfl
    | some others => rfl

theorem needs_required {name : String} {format : Format α} {rest : Record β} {fresh : name ∉ rest.names} :
    (required name format rest fresh).Needs name := by
  intro entries absent
  rw [required, decodeEntries_field, lookup, absent]
  cases rest.names.mapM (lookup entries) with
  | none => rfl
  | some others => rfl

theorem Needs.field {name other : String} {format : Format α} {absent : Option α} {rest : Record β}
    {fresh : name ∉ rest.names} {harmless : ∀ value ∈ absent, format.Fits value} (needs : rest.Needs other) :
    (field name format absent rest fresh harmless).Needs other := by
  intro entries missing
  have refused := needs entries missing
  rw [decodeEntries] at refused
  rw [decodeEntries_field]
  cases lookup entries name with
  | none => rfl
  | some found =>
    cases all : rest.names.mapM (lookup entries) with
    | none => rfl
    | some others =>
      rw [all] at refused
      cases first : found.elim absent format.decode with
      | none => simp [first]
      | some value =>
        rw [Option.bind_some] at refused
        simp [refused]

theorem Needs.via {record : Record τ} {name : String} {same : α ≃ τ} (needs : record.Needs name) :
    (record.via same).Needs name := by
  intro entries missing
  have refused := needs entries missing
  rw [decodeEntries] at refused ⊢
  cases all : record.names.mapM (lookup entries) with
  | none => simp [Record.via, all]
  | some found =>
    rw [all] at refused
    simp only [Record.via, all]
    simpa using refused

/-- Every field has to be there. -/
def Strict (record : Record α) : Prop := ∀ name ∈ record.names, record.Needs name

theorem Strict.empty : empty.Strict := fun _ member => by cases member

theorem Strict.required {name : String} {format : Format α} {rest : Record β} {fresh : name ∉ rest.names}
    (strict : rest.Strict) : (required name format rest fresh).Strict := by
  intro other member
  rcases List.mem_cons.mp member with rfl | later
  · exact needs_required
  · exact Needs.field (strict other later)

theorem Strict.via {record : Record τ} {same : α ≃ τ} (strict : record.Strict) : (record.via same).Strict :=
  fun name member => Needs.via (strict name member)

/-- A record is not read as one that needs a field which it does not have. -/
theorem Needs.refuses {record : Record α} {other : Record β} {name : String} (needs : record.Needs name)
    (lacks : name ∉ other.names) (value : β) : record.format.decode (other.format.encode value) = none := by
  apply needs
  apply entriesOf_none
  rintro entry member rfl
  exact lacks (List.of_mem_zip member).1

end Record

structure Variant (α : Type) where
  Payload : Type
  record : Record Payload
  make : Payload → α
  view : α → Option Payload
  viewed : ∀ value payload, view value = some payload → make payload = value
  views : ∀ payload, view (make payload) = some payload

structure Tagged (α : Type) where
  tagName : String
  tag : α → String
  variant : String → Option (Variant α)
  complete : ∀ value, ∃ found ∈ variant (tag value), (found.view value).isSome
  tagged : ∀ name, ∀ found ∈ variant name, ∀ payload, tag (found.make payload) = name
  untagged : ∀ name, ∀ found ∈ variant name, tagName ∉ found.record.names

namespace Tagged

def entries (tagged : Tagged α) (value : α) : List (String × Document) :=
  (tagged.tagName, .string (tagged.tag value)) :: ((tagged.variant (tagged.tag value)).bind fun found =>
    (found.view value).map found.record.entries).getD []

def decode (tagged : Tagged α) : Document → Option α
  | .object entries => match entriesOf tagged.tagName entries with
    | [.string name] => (tagged.variant name).bind fun found =>
      (found.record.decodeEntries (entries.filter fun entry => entry.1 ≠ tagged.tagName)).map found.make
    | _ => none
  | .array (.string name :: items) => (tagged.variant name).bind fun found => (found.record.decodeItems items).map found.make
  | _ => none

def Fits (tagged : Tagged α) (value : α) : Prop :=
  ∃ found ∈ tagged.variant (tagged.tag value), ∃ payload, found.view value = some payload ∧ found.record.Fits payload

variable {tagged : Tagged α} {value : α} {found : Variant α} {payload : found.Payload}
  {entries others : List (String × Document)}

private theorem entries_eq (known : tagged.variant (tagged.tag value) = some found)
    (viewed : found.view value = some payload) :
    tagged.entries value = (tagged.tagName, .string (tagged.tag value)) :: found.record.entries payload := by
  rw [Tagged.entries, known, Option.bind_some, viewed]
  rfl

private theorem decode_of_carries (known : tagged.variant (tagged.tag value) = some found)
    (viewed : found.view value = some payload) (fits : found.record.Fits payload)
    (tag : entriesOf tagged.tagName entries = [.string (tagged.tag value)])
    (carries : found.record.Carries payload entries) : tagged.decode (.object entries) = some value := by
  have kept : found.record.Carries payload (entries.filter fun entry => entry.1 ≠ tagged.tagName) := by
    intro entry member
    rw [entriesOf_filter, carries entry member]
    rintro same
    exact tagged.untagged _ found known (same ▸ (List.of_mem_zip member).1)
  simp only [Tagged.decode, tag, known, Option.bind_some, kept.decode fits, Option.map_some, found.viewed _ _ viewed]

/-- Tag and fields may come in any order, with other entries between them. -/
theorem decode_of_perm (fits : tagged.Fits value) (reordered : entries.Perm (tagged.entries value ++ others))
    (unknown : ∀ entry ∈ others, ∀ known ∈ tagged.entries value, entry.1 ≠ known.1) :
    tagged.decode (.object entries) = some value := by
  obtain ⟨found, known, payload, viewed, fits⟩ := fits
  have written := entries_eq known viewed
  rw [written] at reordered unknown
  have fields (entry : String × Document) (member : entry ∈ others) : entry.1 ∉ found.record.names := by
    intro named
    have wide := found.record.width payload
    obtain ⟨index, inside, same⟩ := List.mem_iff_getElem.mp named
    have zipped : (found.record.names[index], (found.record.write payload)[index]) ∈ found.record.entries payload := by
      apply List.mem_iff_getElem.mpr
      exact ⟨index, by simp [Record.entries]; omega, by simp [Record.entries]⟩
    exact unknown entry member _ (List.mem_cons_of_mem _ zipped) same.symm
  have untagged := tagged.untagged _ found known
  refine decode_of_carries known viewed fits ?_ ?_
  · have rest : entriesOf tagged.tagName (found.record.entries payload ++ others) = [] := by
      apply entriesOf_none
      intro entry member
      rcases List.mem_append.mp member with own | other
      · rintro same
        exact untagged (same ▸ (List.of_mem_zip own).1)
      · exact unknown entry other _ List.mem_cons_self
    have all := @entriesOf_perm tagged.tagName _ _ reordered
    rw [List.cons_append, entriesOf_cons, if_pos rfl, rest] at all
    exact List.perm_singleton.mp all
  · have moved : entries.Perm (found.record.entries payload ++ ((tagged.tagName, .string (tagged.tag value)) :: others)) :=
      reordered.trans (List.perm_middle.symm)
    apply Record.carries_of_perm moved
    intro entry member
    rcases List.mem_cons.mp member with rfl | other
    · exact untagged
    · exact fields entry other

private theorem decode_sound {document : Document} (decoded : tagged.decode document = some value) :
    tagged.Fits value := by
  have fits {name : String} {found : Variant α} {payload : found.Payload} (known : tagged.variant name = some found)
      (fits : found.record.Fits payload) : tagged.Fits (found.make payload) := by
    have tag := tagged.tagged name found known payload
    exact ⟨found, by rw [tag]; exact known, payload, found.views payload, fits⟩
  unfold Tagged.decode at decoded
  split at decoded
  · split at decoded
    · obtain ⟨found, known, decoded⟩ := Option.bind_eq_some_iff.mp decoded
      obtain ⟨payload, read, rfl⟩ := Option.map_eq_some_iff.mp decoded
      exact fits known (Record.decodeEntries_sound read)
    · cases decoded
  · obtain ⟨found, known, decoded⟩ := Option.bind_eq_some_iff.mp decoded
    obtain ⟨payload, read, rfl⟩ := Option.map_eq_some_iff.mp decoded
    exact fits known (Record.decodeItems_sound read)
  · cases decoded

theorem fits_of (record : ∀ name, ∀ found ∈ tagged.variant name, ∀ payload, found.record.Fits payload) (value : α) :
    tagged.Fits value := by
  obtain ⟨found, known, seen⟩ := tagged.complete value
  obtain ⟨payload, viewed⟩ := Option.isSome_iff_exists.mp seen
  exact ⟨found, known, payload, viewed, record _ found known payload⟩

def format (tagged : Tagged α) : Format α where
  Fits := tagged.Fits
  encode value := .object (tagged.entries value)
  decode := tagged.decode
  decodes value fits := decode_of_perm fits (.of_eq (List.append_nil _).symm) (fun _ member => by cases member)
  sound _ _ decoded := decode_sound decoded

end Tagged
end BankingEs.Serde
