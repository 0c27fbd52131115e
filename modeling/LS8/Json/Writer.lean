import LS8.Json.Escape
import LS8.Json.Value

/-!
# Writing JSON

One writer serves every layout. A layout says which blanks stand in front of each item of a
container and behind each colon: none for `Layout.compact`; a line feed and two spaces for each
level of nesting, and one space, for `Layout.indented`. Empty containers are written without blanks.
-/

namespace LS8

namespace Json

/-- The blanks of a written text. -/
structure Layout where
  /-- The blanks in front of an item at a given depth, and of the bracket that closes that depth. -/
  newline : Nat → List Char
  /-- The blanks behind a colon. -/
  afterColon : List Char

namespace Layout

/-- No blanks at all. -/
def compact : Layout := ⟨fun _ => [], []⟩

/-- One item a line, indented by two spaces for each level. -/
def indented : Layout := ⟨fun depth => '\n' :: List.replicate (2 * depth) ' ', [' ']⟩

end Layout

/-- A text between quotes. -/
def quote (body : List Char) : List Char :=
  '"' :: (body ++ ['"'])

mutual

/-- The text of a value that stands at a given depth. -/
def write (layout : Layout) (depth : Nat) : Json → List Char
  | null => ['n', 'u', 'l', 'l']
  | bool true => ['t', 'r', 'u', 'e']
  | bool false => ['f', 'a', 'l', 's', 'e']
  | number literal => literal
  | string body => quote body
  -- empty containers are closed at once, without a line of their own
  | array [] => ['[', ']']
  | array (item :: items) =>
    '[' :: (layout.newline (depth + 1) ++ (write layout (depth + 1) item ++
      writeItems layout depth items))
  | object [] => ['{', '}']
  | object (member :: members) =>
    '{' :: (layout.newline (depth + 1) ++ (writeMember layout depth member ++
      writeMembers layout depth members))

/-- The text of the items behind the first one, and of the closing bracket. -/
def writeItems (layout : Layout) (depth : Nat) : List Json → List Char
  | [] => layout.newline depth ++ [']']
  | item :: items =>
    ',' :: (layout.newline (depth + 1) ++ (write layout (depth + 1) item ++
      writeItems layout depth items))

/-- The text of a member of an object. -/
def writeMember (layout : Layout) (depth : Nat) : List Char × Json → List Char
  | (key, value) => quote key ++ ':' :: (layout.afterColon ++ write layout (depth + 1) value)

/-- The text of the members behind the first one, and of the closing brace. -/
def writeMembers (layout : Layout) (depth : Nat) : List (List Char × Json) → List Char
  | [] => layout.newline depth ++ ['}']
  | member :: members =>
    ',' :: (layout.newline (depth + 1) ++ (writeMember layout depth member ++
      writeMembers layout depth members))

end

/-- The text of a value without blanks. -/
def compact (value : Json) : String :=
  String.ofList (value.write .compact 0)

/-- The text of a value with one item a line. -/
def indented (value : Json) : String :=
  String.ofList (value.write .indented 0)

end Json

end LS8
