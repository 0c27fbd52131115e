/-!
# Cutting texts

A text is cut at every occurrence of a mark, and into lines at its line feeds. The
pieces are one more than the marks, so a mark at the very end leaves an empty last piece.
-/

namespace LS8

/-- Puts a character in front of the first piece. -/
def consFirst (c : Char) : List (List Char) → List (List Char)
  | [] => [[c]]
  | piece :: pieces => (c :: piece) :: pieces

/-- The pieces of a text between the occurrences of a mark. -/
def cutAt (mark : Char) : List Char → List (List Char)
  | [] => [[]]
  | c :: cs => if c = mark then [] :: cutAt mark cs else consFirst c (cutAt mark cs)

/-- The lines of a text, without their line feeds. -/
def lines (text : List Char) : List (List Char) :=
  cutAt '\n' text

@[simp] theorem cutAt_nil (mark : Char) : cutAt mark [] = [[]] := rfl

@[simp] theorem cutAt_cons_self (mark : Char) (cs : List Char) :
    cutAt mark (mark :: cs) = [] :: cutAt mark cs := by
  simp [cutAt]

theorem cutAt_cons_of_ne {mark c : Char} (h : c ≠ mark) (cs : List Char) :
    cutAt mark (c :: cs) = consFirst c (cutAt mark cs) := by
  simp [cutAt, h]

/-- Any text has at least one piece, which may be empty. -/
theorem cutAt_ne_nil (mark : Char) (cs : List Char) : cutAt mark cs ≠ [] := by
  cases cs with
  | nil => simp
  | cons c cs =>
    unfold cutAt
    split
    · simp
    · unfold consFirst
      split <;> simp

/-- There is one piece more than there are marks. -/
theorem length_cutAt (mark : Char) (cs : List Char) :
    (cutAt mark cs).length = cs.count mark + 1 := by
  induction cs with
  | nil => rfl
  | cons c cs ih =>
    -- a mark adds a piece, and any other character is added to the first piece
    by_cases h : c = mark
    · subst h
      simp [ih]
    · rw [cutAt_cons_of_ne h, List.count_cons_of_ne h, ← ih]
      cases hp : cutAt mark cs with
      | nil => exact absurd hp (cutAt_ne_nil mark cs)
      | cons piece pieces => rfl

end LS8
