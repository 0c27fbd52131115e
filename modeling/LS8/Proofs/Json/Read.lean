import LS8.Json.Reader
import LS8.Proofs.Json.Scan

/-!
# Written values are read back

The reader turns the tokens of a value into the value, inside whatever containers are open
(`readValue_tokens`). With the scanner finding these tokens in the written text, a text that was
written in any layout with blanks is read back (`read_write`). Blanks behind the text do not matter,
so the line feed that ends an output may stay there.
-/

namespace LS8

namespace Json

variable {stack : List Frame} {rest : List Token} {value : Json}

/-- A value does not start with the token that closes an array. -/
theorem tokens_append_ne_closeArray (value : Json) (rest rest' : List Token) :
    tokens value ++ rest ≠ .closeArray :: rest' := by
  intro h
  -- every value starts with a token of its own kind
  cases value with
  | null => cases h
  | bool value => cases h
  | number literal => cases h
  | string body => cases h
  | array items => cases items with
    | nil => cases h
    | cons item items => cases h
  | object members => cases members with
    | nil => cases h
    | cons member members => cases h

/-- The reader takes the tokens of a value for the value, and goes on behind them. -/
def Reads (value : Json) : Prop :=
  ∀ stack rest, readValue stack (tokens value ++ rest) = closeValue stack value rest

/-- A bracket with a value behind it opens an array with at least one item. -/
theorem readValue_openArray (value : Json) (rest : List Token) :
    readValue stack (.openArray :: (tokens value ++ rest)) =
      readValue (.array [] :: stack) (tokens value ++ rest) := by
  rw [readValue]
  exact fun rest' h => tokens_append_ne_closeArray value rest rest' h

/-- **The items behind the first one are read**, and the bracket closes the array around all of
them. -/
theorem closeValue_itemTokens {items : List Json} (h : ∀ item ∈ items, Reads item)
    (done : List Json) (item : Json) :
    closeValue (.array done :: stack) item (itemTokens items ++ rest) =
      closeValue stack (.array (done.reverse ++ item :: items)) rest := by
  induction items generalizing done item with
  | nil =>
    rw [itemTokens, List.singleton_append, closeValue, List.reverse_cons]
  | cons next items ih =>
    -- the comma puts the item in hand among those that are done
    have hlater := ih fun later hl => h later (List.mem_cons_of_mem next hl)
    rw [itemTokens, List.cons_append, closeValue, List.append_assoc,
      h next List.mem_cons_self, hlater]
    simp

/-- **The members behind the first one are read** in the same way, each with its key. -/
theorem closeValue_membersTokens {members : List (List Char × Json)}
    (h : ∀ m ∈ members, Reads m.2) (done : List (List Char × Json)) (key : List Char)
    (value : Json) :
    closeValue (.object done key :: stack) value (membersTokens members ++ rest) =
      closeValue stack (.object (done.reverse ++ (key, value) :: members)) rest := by
  -- by induction on the members that are still to come; those that are done are on the stack, last
  -- one first
  induction members generalizing done key value with
  | nil =>
    rw [membersTokens, List.singleton_append, closeValue, List.reverse_cons]
  | cons member members ih =>
    obtain ⟨next, nextValue⟩ := member
    have hlater := ih fun later hl => h later (List.mem_cons_of_mem _ hl)
    have hnext : Reads nextValue := h (next, nextValue) List.mem_cons_self
    simp only [membersTokens, memberTokens, List.cons_append, List.append_assoc]
    rw [closeValue, hnext, hlater]
    simp

/-- **The reader takes back the tokens of a value.** -/
theorem readValue_tokens (h : Written value) : Reads value := by
  induction h with
  | null =>
    intro stack rest
    rw [tokens, List.singleton_append, readValue]
  | bool value =>
    intro stack rest
    rw [tokens, List.singleton_append, readValue]
  | number n =>
    intro stack rest
    rw [tokens, List.singleton_append, readValue]
  | string cs =>
    intro stack rest
    rw [tokens, List.singleton_append, readValue]
  | array items hitems ih =>
    intro stack rest
    cases items with
    | nil =>
      simp only [tokens, List.cons_append, List.nil_append]
      rw [readValue]
    | cons item items =>
      -- the first item is read behind the bracket, the others behind a comma
      have hfirst : Reads item := ih item List.mem_cons_self
      rw [tokens, List.cons_append, List.append_assoc, readValue_openArray, hfirst,
        closeValue_itemTokens fun later hl => ih later (List.mem_cons_of_mem item hl)]
      rfl
  | object members hkeys hvalues ih =>
    intro stack rest
    cases members with
    | nil =>
      simp only [tokens, List.cons_append, List.nil_append]
      rw [readValue]
    | cons member members =>
      obtain ⟨key, value⟩ := member
      have hfirst : Reads value := ih (key, value) List.mem_cons_self
      simp only [tokens, memberTokens, List.cons_append, List.append_assoc]
      rw [readValue, hfirst,
        closeValue_membersTokens fun later hl => ih later (List.mem_cons_of_mem _ hl)]
      rfl

/-- **A written text is read back**, in every layout that puts nothing but blanks between tokens. -/
theorem read_write {layout : Layout} (hlayout : layout.Blank) (h : Written value)
    {blanks : List Char} (hblanks : ∀ c ∈ blanks, isJsonBlank c = true) :
    read (String.ofList (write layout 0 value ++ blanks)) = some value := by
  -- blanks end a word as well as the end of the text does
  have hapart : Apart blanks := by
    rw [← List.append_nil blanks]
    exact apart_blanks_append hblanks fun c hc => absurd hc (by simp)
  have hscan : scan (write layout 0 value ++ blanks) = some (tokens value) := by
    rw [scan_eq_scanFrom, scanFrom_write hlayout h 0 [] blanks hapart, ← List.append_nil blanks,
      scanFrom_blanks hblanks, scanFrom_nil, List.nil_append]
  have hread : readValue [] (tokens value) = some value := by
    rw [← List.append_nil (tokens value), readValue_tokens h]
    rfl
  unfold read
  rw [String.toList_ofList, hscan, Option.bind_some, hread]

end Json

end LS8
