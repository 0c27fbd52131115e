import LS8.Proofs.Json.Scan

/-!
# Indented texts, line by line

The writer goes through a value once and keeps count of the depth. A reader of its text sees lines:
a scalar and an empty container take one line; any other container has a line for each bracket, and
between them the lines of its items, shifted to the right by two blanks, with a comma behind every
item but the last one. `Json.block` is this list of lines, put together from the blocks of the items
without any depth.

The two agree (`indented_line`). What the writer puts down at some depth is the block shifted to
that depth (`newline_write`), because shifting a block once more is the same as going one level
deeper (`spread_shift`).
-/

namespace LS8

/-- Lines that are joined as texts, each with its line feed. -/
theorem join_feed (lines : List (List Char)) :
    String.join (lines.map fun line => String.ofList line ++ "\n") =
      String.ofList (lines.flatMap (· ++ ['\n'])) := by
  rw [← String.toList_inj, String.toList_join, List.flatMap_map, String.toList_ofList]
  simp only [String.toList_append, String.toList_ofList]
  rfl

namespace Json

/-- A line two columns further to the right. -/
def shift (line : List Char) : List Char :=
  ' ' :: ' ' :: line

/-- Lines with a comma behind the last one. -/
def withComma : List (List Char) → List (List Char)
  | [] => []
  | [line] => [line ++ [',']]
  | line :: next :: lines => line :: withComma (next :: lines)

/-- Lines with a key in front of the first one. -/
def withKey (key : List Char) : List (List Char) → List (List Char)
  | [] => []
  | line :: lines => ('"' :: (key ++ ['"', ':', ' '] ++ line)) :: lines

mutual

/-- The lines of a value. -/
def block : Json → List (List Char)
  | null => [['n', 'u', 'l', 'l']]
  | bool true => [['t', 'r', 'u', 'e']]
  | bool false => [['f', 'a', 'l', 's', 'e']]
  | number literal => [literal]
  | string body => ['"' :: (body ++ ['"'])]
  | array [] => [['[', ']']]
  | array (item :: items) =>
    ['['] :: ((itemLines (item :: items)).map shift ++ [[']']])
  | object [] => [['{', '}']]
  | object (member :: members) =>
    ['{'] :: ((memberLines (member :: members)).map shift ++ [['}']])

/-- The lines of the items of an array, with commas between the items. -/
def itemLines : List Json → List (List Char)
  | [] => []
  | [item] => block item
  | item :: next :: items => withComma (block item) ++ itemLines (next :: items)

/-- The lines of the members of an object, with commas between the members. -/
def memberLines : List (List Char × Json) → List (List Char)
  | [] => []
  | [(key, value)] => withKey key (block value)
  | (key, value) :: next :: members =>
    withComma (withKey key (block value)) ++ memberLines (next :: members)

end

/-! ### Blocks at a depth -/

/-- Lines at a depth, each behind the line feed and the blanks that lead to it. -/
def spread (depth : Nat) (lines : List (List Char)) : List Char :=
  lines.flatMap fun line => Layout.indented.newline depth ++ line

variable {depth : Nat} {lines : List (List Char)}

/-- The first line of a block, and the others. -/
theorem spread_cons (depth : Nat) (line : List Char) (lines : List (List Char)) :
    spread depth (line :: lines) =
      Layout.indented.newline depth ++ (line ++ spread depth lines) := by
  unfold spread
  rw [List.flatMap_cons, List.append_assoc]

theorem spread_append (depth : Nat) (lines later : List (List Char)) :
    spread depth (lines ++ later) = spread depth lines ++ spread depth later :=
  List.flatMap_append

/-- One level deeper is two blanks further to the right. -/
theorem newline_succ (depth : Nat) (line : List Char) :
    Layout.indented.newline (depth + 1) ++ line =
      Layout.indented.newline depth ++ shift line := by
  have hblanks : List.replicate (2 * (depth + 1)) ' ' =
      List.replicate (2 * depth) ' ' ++ [' ', ' '] := by
    rw [Nat.mul_succ, ← List.replicate_append_replicate]
    rfl
  show '\n' :: (List.replicate (2 * (depth + 1)) ' ' ++ line) = _
  rw [hblanks, List.append_assoc]
  rfl

/-- **Shifted lines are lines one level deeper.** -/
theorem spread_shift (depth : Nat) (lines : List (List Char)) :
    spread depth (lines.map shift) = spread (depth + 1) lines := by
  unfold spread
  rw [List.flatMap_map]
  exact congrArg (lines.flatMap ·) (funext fun line => (newline_succ depth line).symm)

/-- The comma stands behind everything else. -/
theorem spread_withComma (h : lines ≠ []) :
    spread depth (withComma lines) = spread depth lines ++ [','] := by
  induction lines with
  | nil => exact absurd rfl h
  | cons line lines ih =>
    -- the comma goes to the last line
    cases lines with
    | nil =>
      rw [withComma, spread_cons, spread_cons]
      simp [spread]
    | cons next lines =>
      rw [withComma, spread_cons, ih (List.cons_ne_nil next lines), spread_cons depth line]
      simp

/-- Every value takes at least one line. -/
theorem block_ne_nil (value : Json) : block value ≠ [] := by
  cases value with
  | bool value => cases value <;> exact List.cons_ne_nil _ _
  | array items => cases items <;> exact List.cons_ne_nil _ _
  | object members => cases members <;> exact List.cons_ne_nil _ _
  | _ => exact List.cons_ne_nil _ _

theorem withKey_ne_nil {key : List Char} (h : lines ≠ []) : withKey key lines ≠ [] := by
  cases lines with
  | nil => exact absurd rfl h
  | cons line lines => exact List.cons_ne_nil _ _

/-- A key goes between the blanks that lead to a value and the value. -/
theorem spread_withKey {key text : List Char} (h : lines ≠ [])
    (htext : Layout.indented.newline depth ++ text = spread depth lines) :
    spread depth (withKey key lines) =
      Layout.indented.newline depth ++ (quote key ++ ':' :: ' ' :: text) := by
  cases lines with
  | nil => exact absurd rfl h
  | cons line lines =>
    rw [spread_cons] at htext
    rw [withKey, spread_cons, List.append_cancel_left htext]
    simp [quote]

/-! ### What the writer puts down -/

variable {value : Json}

/-- At every depth, the writer puts down the block of a value. -/
def Spreads (value : Json) : Prop :=
  ∀ depth, Layout.indented.newline depth ++ write .indented depth value =
    spread depth (block value)

/-- The first item stands behind the bracket, and each further one behind a comma. -/
theorem newline_writeItems (depth : Nat) {item : Json} {items : List Json}
    (h : ∀ value ∈ item :: items, Spreads value) :
    Layout.indented.newline (depth + 1) ++
        (write .indented (depth + 1) item ++ writeItems .indented depth items) =
      spread (depth + 1) (itemLines (item :: items)) ++
        (Layout.indented.newline depth ++ [']']) := by
  rw [← List.append_assoc, h item List.mem_cons_self]
  induction items generalizing item with
  | nil => rw [writeItems, itemLines]
  | cons next items ih =>
    have hlater : ∀ value ∈ next :: items, Spreads value :=
      fun value hvalue => h value (List.mem_cons_of_mem item hvalue)
    have hnext := hlater next List.mem_cons_self (depth + 1)
    -- the comma of the next item ends the last line of this one
    rw [writeItems, ← List.append_assoc (Layout.indented.newline (depth + 1)), hnext, ih hlater,
      itemLines, spread_append, spread_withComma (block_ne_nil item)]
    simp

/-- Members are written like items, with their keys in front. -/
theorem newline_writeMembers (depth : Nat) {member : List Char × Json}
    {members : List (List Char × Json)} (h : ∀ m ∈ member :: members, Spreads m.2) :
    Layout.indented.newline (depth + 1) ++
        (writeMember .indented depth member ++ writeMembers .indented depth members) =
      spread (depth + 1) (memberLines (member :: members)) ++
        (Layout.indented.newline depth ++ ['}']) := by
  -- a member starts on a new line, with its key in front of the first line of its value
  have hmember : ∀ m ∈ member :: members,
      Layout.indented.newline (depth + 1) ++ writeMember .indented depth m =
        spread (depth + 1) (withKey m.1 (block m.2)) := by
    rintro ⟨key, value⟩ hm
    rw [spread_withKey (block_ne_nil value) (h (key, value) hm (depth + 1))]
    rfl
  -- from here on the values no longer matter, only the lines of their members
  clear h
  rw [← List.append_assoc, hmember member List.mem_cons_self]
  induction members generalizing member with
  | nil => rw [writeMembers, memberLines]
  | cons next members ih =>
    have hlater := fun m hm => hmember m (List.mem_cons_of_mem member hm)
    have hnext := hlater next List.mem_cons_self
    rw [writeMembers, ← List.append_assoc (Layout.indented.newline (depth + 1)), hnext, ih hlater,
      memberLines, spread_append, spread_withComma (withKey_ne_nil (block_ne_nil member.2))]
    simp

/-- **The writer puts down the block of a value**, shifted to the depth at which the value stands. -/
theorem newline_write (h : Written value) : Spreads value := by
  induction h with
  | null =>
    intro depth
    simp [write, block, spread]
  | bool value =>
    intro depth
    cases value <;> simp [write, block, spread]
  | number n =>
    intro depth
    simp [write, block, spread]
  | string cs =>
    intro depth
    simp [write, block, spread, quote]
  | array items _ ih =>
    intro depth
    cases items with
    | nil => simp [write, block, spread]
    | cons item items =>
      -- the items are one level deeper than the brackets
      rw [write, block, spread_cons, spread_append, spread_shift, newline_writeItems depth ih]
      simp [spread]
  | object members _ _ ih =>
    intro depth
    cases members with
    | nil => simp [write, block, spread]
    | cons member members =>
      rw [write, block, spread_cons, spread_append, spread_shift, newline_writeMembers depth ih]
      simp [spread]

/-- A line feed may stand in front of each line or behind each of them. -/
theorem spread_zero_append (lines : List (List Char)) :
    spread 0 lines ++ ['\n'] = '\n' :: lines.flatMap (· ++ ['\n']) := by
  induction lines with
  | nil => rfl
  | cons line lines ih =>
    rw [spread_cons, List.append_assoc, List.append_assoc, ih, List.flatMap_cons]
    simp [Layout.indented]

/-- **An indented text is its lines**, the first one at the margin and each with its line feed. -/
theorem indented_line (h : Written value) :
    value.indented ++ "\n" =
      String.join ((block value).map fun line => String.ofList line ++ "\n") := by
  -- the line feed in front of the first line is none of the text's, so it is added on both sides
  have hlines : '\n' :: (write .indented 0 value ++ ['\n']) =
      '\n' :: (block value).flatMap (· ++ ['\n']) := by
    rw [← spread_zero_append, ← newline_write h]
    rfl
  rw [join_feed, ← (List.cons.inj hlines).2, String.ofList_append]
  rfl

-- an array of two numbers, and an empty object behind it
example : block (.object [(['a'], .array [.number ['1'], .number ['2']]), (['b'], .object [])]) =
    [['{'], "  \"a\": [".toList, "    1,".toList, "    2".toList, "  ],".toList,
      ("  \"b\": ".toList ++ ['{', '}']), ['}']] := by
  decide +kernel

end Json

end LS8
