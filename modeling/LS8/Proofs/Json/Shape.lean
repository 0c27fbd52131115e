import Mathlib.Data.List.Nodup
import LS8.Json.Shape
import LS8.Proofs.Json.Read

/-!
# Shapes are read back

What `Json.ofNat`, `Json.record` and the other shapes build is written as this library writes values
(`Written`), so it survives the text. This module is about the other half: each shape's reader takes
back what the shape was built from.

For records this is a statement about names. A reader asks for the fields by name and wants each
name at most once, so a record is taken back if its names are distinct (`fields?_record`). Names go
through the same escapes as texts.
-/

namespace LS8

namespace Json

/-- Reading the elements of a list one by one takes back the list they were made from. -/
theorem mapM_map_eq_some {α β γ : Type} {make : α → β} {read : β → Option γ} {part : α → γ}
    {items : List α} (h : ∀ item ∈ items, read (make item) = some (part item)) :
    (items.map make).mapM read = some (items.map part) := by
  induction items with
  | nil => rfl
  | cons item items ih =>
    have hitem := h item List.mem_cons_self
    have hlater := ih fun later hl => h later (List.mem_cons_of_mem item hl)
    rw [List.map_cons, List.mapM_cons, hitem, hlater]
    rfl

/-! ### Scalars -/

@[simp] theorem written_ofNat (n : Nat) : Written (ofNat n) := .number n

@[simp] theorem written_ofByte (byte : UInt8) : Written (ofByte byte) := written_ofNat byte.toNat

@[simp] theorem written_ofText (text : String) : Written (ofText text) := .string text.toList

@[simp] theorem written_ofBytes (bytes : List UInt8) : Written (ofBytes bytes) := by
  refine .array _ fun item hitem => ?_
  obtain ⟨byte, -, rfl⟩ := List.mem_map.mp hitem
  exact written_ofByte byte

/-- A number is taken back, if it is below the bound. -/
theorem natBelow?_ofNat {n bound : Nat} (h : n < bound) : (ofNat n).natBelow? bound = some n := by
  rw [ofNat, natBelow?, decimal?_toDigits, Option.filter_some, if_pos (decide_eq_true h)]

/-- A number that was read is below the bound. -/
theorem lt_of_natBelow? {value : Json} {n bound : Nat} (h : value.natBelow? bound = some n) :
    n < bound := by
  cases value with
  | number literal =>
    obtain ⟨-, hlt⟩ := Option.filter_eq_some_iff.mp h
    exact of_decide_eq_true hlt
  | _ => cases h

theorem byte?_ofByte (byte : UInt8) : (ofByte byte).byte? = some byte := by
  rw [byte?, ofByte, natBelow?_ofNat byte.toNat_lt, Option.map_some, UInt8.ofNat_toNat]

/-- A list of bytes is taken back. -/
theorem bytes?_ofBytes (bytes : List UInt8) : (ofBytes bytes).bytes? = some bytes := by
  have hmapM : (bytes.map ofByte).mapM byte? = some (bytes.map id) :=
    mapM_map_eq_some fun byte _ => byte?_ofByte byte
  rw [ofBytes, bytes?, hmapM, List.map_id]

/-- A text is taken back, with everything that had to be escaped. -/
theorem text?_ofText (text : String) : (ofText text).text? = some text := by
  rw [ofText, text?, unescape_escape, Option.map_some, String.ofList_toList]

theorem nullable?_ofNat {α : Type} (reader : Json → Option α) (n : Nat) :
    (ofNat n).nullable? reader = (reader (ofNat n)).map some := rfl

theorem of_nullable? {α : Type} {reader : Json → Option α} {value : Json} {x : α}
    (h : value.nullable? reader = some (some x)) : reader value = some x := by
  unfold nullable? at h
  split at h
  · cases h
  · obtain ⟨y, hy, heq⟩ := Option.map_eq_some_iff.mp h
    rw [hy, heq]

/-! ### Records -/

variable {fields members : List (String × Json)}

/-- A record of written values is written. -/
theorem written_record (h : ∀ field ∈ fields, Written field.2) : Written (record fields) := by
  refine .object _ (fun member hmember => ?_) fun member hmember => ?_
  · obtain ⟨⟨name, value⟩, -, rfl⟩ := List.mem_map.mp hmember
    exact ⟨name.toList, rfl⟩
  · obtain ⟨field, hfield, rfl⟩ := List.mem_map.mp hmember
    exact h field hfield

/-- A name that occurs once finds its value. -/
theorem uniqueField?_of_mem (hnodup : (members.map (·.1)).Nodup) {field : String × Json}
    (h : field ∈ members) : uniqueField? members field.1 = some (some field.2) := by
  obtain ⟨before, later, rfl⟩ := List.append_of_mem h
  -- neither in front of the field nor behind it does its name occur again
  rw [List.map_append, List.map_cons, List.nodup_append, List.nodup_cons] at hnodup
  obtain ⟨-, ⟨hlater, -⟩, hbefore⟩ := hnodup
  have hnone : ∀ {others : List (String × Json)}, field.1 ∉ others.map (·.1) →
      others.filter (·.1 == field.1) = [] := by
    intro others hothers
    refine List.filter_eq_nil_iff.mpr fun other hother hname => hothers ?_
    exact List.mem_map.mpr ⟨other, hother, eq_of_beq hname⟩
  have hbefore' : field.1 ∉ before.map (·.1) := fun hmem =>
    hbefore field.1 hmem field.1 List.mem_cons_self rfl
  have hself : (field :: later).filter (·.1 == field.1) = field :: later.filter (·.1 == field.1) :=
    List.filter_cons_of_pos (beq_self_eq_true field.1)
  have hfilter : (before ++ field :: later).filter (·.1 == field.1) = [field] := by
    rw [List.filter_append, hnone hbefore', hself, hnone hlater, List.nil_append]
  rw [uniqueField?, hfilter]

/-- **A record with distinct names is taken back**, field by field. -/
theorem fields?_record (fields : List (String × Json)) (hnodup : (fields.map (·.1)).Nodup) :
    (record fields).fields? (fields.map (·.1)) = some (fields.map fun field => some field.2) := by
  -- the keys are written with escapes, and read back before they are compared
  have hmembers : (fields.map fun field => (escape field.1.toList, field.2)).mapM
      (fun member : List Char × Json => do
        return (String.ofList (← unescape member.1), member.2)) = some (fields.map id) := by
    refine mapM_map_eq_some fun field _ => ?_
    rw [unescape_escape]
    change some (String.ofList field.1.toList, field.2) = some field
    rw [String.ofList_toList]
  have hvalues : (fields.map (·.1)).mapM (uniqueField? fields) =
      some (fields.map fun field => some field.2) :=
    mapM_map_eq_some fun field hfield => uniqueField?_of_mem hnodup hfield
  rw [List.map_id] at hmembers
  rw [record, Json.fields?]
  change (fields.map fun field => (escape field.1.toList, field.2)).mapM _ >>= _ = _
  rw [hmembers]
  exact hvalues

theorem fields?_record_single (name : String) (value : Json) :
    (record [(name, value)]).fields? [name] = some [some value] :=
  fields?_record [(name, value)] (List.nodup_singleton name)

theorem fields?_record_pair (name other : String) (h : name ≠ other) (value next : Json) :
    (record [(name, value), (other, next)]).fields? [name, other] =
      some [some value, some next] :=
  fields?_record [(name, value), (other, next)] (List.nodup_cons.mpr
    ⟨fun hmem => h (List.mem_singleton.mp hmem), List.nodup_singleton other⟩)

/-! ### Variants -/

theorem written_tagged {content : Json} (name : String) (h : Written content) :
    Written (tagged name content) :=
  written_record (List.forall_mem_singleton.mpr h)

/-- A name alone is a variant without content. -/
theorem variant?_ofText (name : String) : (ofText name).variant? = some (name, none) := by
  rw [ofText, variant?, unescape_escape]
  change some (String.ofList name.toList, none) = _
  rw [String.ofList_toList]

/-- A name with content is a variant with that content. -/
theorem variant?_tagged (name : String) (content : Json) :
    (tagged name content).variant? = some (name, some content) := by
  rw [tagged, record, List.map_singleton, variant?, unescape_escape]
  change some (String.ofList name.toList, some content) = _
  rw [String.ofList_toList]

/-- A variant without content is taken back by any list in which its name finds it. -/
theorem unit?_ofText {α : Type} {variants : List α} {nameOf : α → String} {v : α}
    (h : variants.find? (nameOf · == nameOf v) = some v) :
    (ofText (nameOf v)).unit? variants nameOf = some v := by
  rw [unit?, variant?_ofText]
  exact h

end Json

end LS8
