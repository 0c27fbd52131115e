import LS8.Json.Token
import LS8.Json.Value

/-!
# Reading JSON

A value is read from its tokens with a stack of the containers that are still open. Two functions
take turns: `readValue` expects a value, and `closeValue` has one and finds out where it belongs.
Nothing may follow the outermost value.
-/

namespace LS8

namespace Json

/-- A container that is still open, with what was read of it, in reverse. -/
inductive Frame where
  /-- An array whose next item is being read. -/
  | array (items : List Json)
  /-- An object whose member with the given key is being read. -/
  | object (members : List (List Char × Json)) (key : List Char)

mutual

/-- Reads a value inside the open containers `stack`. -/
def readValue (stack : List Frame) : List Token → Option Json
  | .null :: rest => closeValue stack .null rest
  | .bool value :: rest => closeValue stack (.bool value) rest
  | .number literal :: rest => closeValue stack (.number literal) rest
  | .string body :: rest => closeValue stack (.string body) rest
  -- an empty container is complete, so none is left open
  | .openArray :: .closeArray :: rest => closeValue stack (.array []) rest
  | .openArray :: rest => readValue (.array [] :: stack) rest
  | .openObject :: .closeObject :: rest => closeValue stack (.object []) rest
  | .openObject :: .string key :: .colon :: rest => readValue (.object [] key :: stack) rest
  | _ => none

/-- Puts a complete value into the innermost open container. -/
def closeValue (stack : List Frame) (value : Json) : List Token → Option Json
  | [] =>
    match stack with
    | [] => some value
    | _ => none
  | .comma :: rest =>
    match stack, rest with
    -- behind a comma there has to be another item or member
    | .array items :: stack, rest => readValue (.array (value :: items) :: stack) rest
    | .object members key :: stack, .string next :: .colon :: rest =>
      readValue (.object ((key, value) :: members) next :: stack) rest
    | _, _ => none
  | .closeArray :: rest =>
    match stack with
    | .array items :: stack => closeValue stack (.array (value :: items).reverse) rest
    | _ => none
  | .closeObject :: rest =>
    match stack with
    | .object members key :: stack =>
      closeValue stack (.object ((key, value) :: members).reverse) rest
    | _ => none
  | _ => none

end

/-- The value that a JSON text spells, if it is one. -/
def read (text : String) : Option Json :=
  (scan text.toList).bind (readValue [])

end Json

end LS8
