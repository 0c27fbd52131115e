/-!
# JSON values

The syntax tree of a JSON text. Scalars are kept as they are written: a number as its literal, a
string as the text between its quotes, with escapes. So reading a text decides its grammar alone,
and what a scalar means is decided where a value is expected of it. A field that nobody reads need
only be well formed.
-/

namespace LS8

/-- A JSON value with its scalars as written. -/
inductive Json where
  | null
  | bool (value : Bool)
  /-- A number, by its literal. -/
  | number (literal : List Char)
  /-- A string, by the text between its quotes. -/
  | string (body : List Char)
  | array (items : List Json)
  /-- An object: its members in the order written, each with the text between the quotes of its
  key. -/
  | object (members : List (List Char × Json))

namespace Json

instance : Inhabited Json := ⟨null⟩

end Json

end LS8
