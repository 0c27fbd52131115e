import LS8.Json.Escape
import LS8.Json.Value
import LS8.Text.Numeral

/-!
# Shapes of JSON values

How records, variants, numbers and texts are expressed in JSON, in both directions.

A record is an object. Its known fields occur at most once, in any order, and unknown fields are
ignored; alternatively it is an array of all its fields in order. A variant without content is its
name as a string; one with content is an object whose only key is the name. In the object form, a
variant without content has the content `null`.
-/

namespace LS8

namespace Json

/-- A natural number. -/
def ofNat (n : Nat) : Json := number (Nat.toDigits 10 n)

/-- A byte. -/
def ofByte (byte : UInt8) : Json := ofNat byte.toNat

/-- A list of bytes. -/
def ofBytes (bytes : List UInt8) : Json := array (bytes.map ofByte)

/-- A text. -/
def ofText (text : String) : Json := string (escape text.toList)

/-- A record with named fields. -/
def record (fields : List (String × Json)) : Json :=
  object (fields.map fun (name, value) => (escape name.toList, value))

/-- A variant with content. -/
def tagged (name : String) (content : Json) : Json :=
  record [(name, content)]

/-- The natural number below `bound` that a value spells in plain digits. Signs, fractions and
exponents are not plain, even where they leave a natural number. -/
def natBelow? (bound : Nat) : Json → Option Nat
  | number literal => (decimal? literal).filter (· < bound)
  | _ => none

/-- The byte that a value spells. -/
def byte? (value : Json) : Option UInt8 :=
  (value.natBelow? 256).map UInt8.ofNat

/-- The list of bytes that a value spells. -/
def bytes? : Json → Option (List UInt8)
  | array items => items.mapM byte?
  | _ => none

/-- The text that a value spells. -/
def text? : Json → Option String
  | string body => (unescape body).map String.ofList
  | _ => none

/-- The truth value that a value spells. -/
def bool? : Json → Option Bool
  | bool value => some value
  | _ => none

/-- A value that may be `null`, which stands for nothing. -/
def nullable? {α : Type} (read : Json → Option α) : Json → Option (Option α)
  | null => some none
  | value => (read value).map some

/-- The value of the only member with a given name: nothing if there is no such member, and a
failure if there are several. -/
def uniqueField? (members : List (String × Json)) (name : String) : Option (Option Json) :=
  match members.filter (·.1 == name) with
  | [] => some none
  | [(_, value)] => some (some value)
  | _ => none

/-- The fields of a record with the given names, in their order. A field of an object may be
missing; the items of an array stand for all fields. -/
def fields? (names : List String) : Json → Option (List (Option Json))
  | object members => do
    let members ← members.mapM fun (key, value) => do
      return (String.ofList (← unescape key), value)
    -- the values of members with other names are not looked at
    names.mapM (uniqueField? members)
  | array items => if items.length = names.length then some (items.map some) else none
  | _ => none

/-- The name of a variant, with its content if it has any. -/
def variant? : Json → Option (String × Option Json)
  | string body => do return (String.ofList (← unescape body), none)
  -- an object with several members is no variant
  | object [(key, content)] => do return (String.ofList (← unescape key), some content)
  | _ => none

/-- Whether the content of a variant is that of a variant without content. -/
def noContent : Option Json → Bool
  | none => true
  | some null => true
  | _ => false

/-- The variant without content that has a given name in the list. -/
def unit? {α : Type} (variants : List α) (nameOf : α → String) (value : Json) : Option α := do
  let (name, content) ← value.variant?
  if noContent content then variants.find? (nameOf · == name) else none

end Json

end LS8
