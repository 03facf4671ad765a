import ScillaLayout.Token.Line

/-!
# Documents as tokens and gaps

The layout changes only what stands between the tokens that are no spaces. An `Item` is such a token with the blanks and
line breaks before it, and `items` cuts a token list into them. Nothing is lost when the list ends with a token that is
no space, as every list that was read does (`flatten_items`).

`Spaces` are the gaps of lists that were read or laid out: no blank directly follows another.
-/

namespace ScillaLayout

/-- A token that is no space, and the spaces before it. -/
structure Item where
  gap : List Token
  token : Token
  deriving DecidableEq, Repr

namespace Item

/-- The spaces and the token behind them. -/
def tokens (i : Item) : List Token := i.gap ++ [i.token]

end Item

/-- The tokens of a document. -/
def flatten (is : List Item) : List Token := is.flatMap Item.tokens

@[simp] theorem flatten_nil : flatten [] = [] := rfl

@[simp] theorem flatten_cons (i : Item) (is : List Item) : flatten (i :: is) = i.gap ++ i.token :: flatten is := by
  simp [flatten, Item.tokens]

@[simp] theorem flatten_append (is js : List Item) : flatten (is ++ js) = flatten is ++ flatten js := by
  simp [flatten]

theorem mem_flatten_of_mem_gap {is : List Item} {i : Item} (hi : i ∈ is) {t : Token} (ht : t ∈ i.gap) :
    t ∈ flatten is :=
  List.mem_flatMap.2 ⟨i, hi, List.mem_append_left _ ht⟩

theorem token_mem_flatten {is : List Item} {i : Item} (hi : i ∈ is) : i.token ∈ flatten is :=
  List.mem_flatMap.2 ⟨i, hi, List.mem_append_right _ List.mem_cons_self⟩

/-- Cuts a token list behind every token that is no space; `gap` are the spaces before its head. -/
def itemsFrom (gap : List Token) : List Token → List Item
  | [] => []
  | t :: ts => if t.isSpace then itemsFrom (gap ++ [t]) ts else ⟨gap, t⟩ :: itemsFrom [] ts

/-- The tokens of a list that are no spaces, each with the spaces before it. -/
def items (ts : List Token) : List Item := itemsFrom [] ts

theorem itemsFrom_append_spaces {g : List Token} (hg : ∀ t ∈ g, t.isSpace = true) (gap ts : List Token) :
    itemsFrom gap (g ++ ts) = itemsFrom (gap ++ g) ts := by
  induction g generalizing gap with
  | nil => simp
  | cons t g ih =>
    have ht : t.isSpace = true := hg t List.mem_cons_self
    rw [List.cons_append, itemsFrom, if_pos ht, ih (fun u hu => hg u (List.mem_cons_of_mem _ hu))]
    simp

/-- A list can be cut behind every token that is no space. -/
theorem itemsFrom_append_cons {t : Token} (ht : t.isSpace = false) (gap ts us : List Token) :
    itemsFrom gap (ts ++ t :: us) = itemsFrom gap (ts ++ [t]) ++ items us := by
  induction ts generalizing gap with
  | nil => simp [itemsFrom, items, ht]
  | cons u ts ih =>
    rw [List.cons_append, List.cons_append, itemsFrom, itemsFrom]
    split
    · exact ih _
    · rw [ih, List.cons_append]

/-- Cutting a flattened document gives its items. -/
theorem items_flatten {is : List Item} (h : ∀ i ∈ is, (∀ t ∈ i.gap, t.isSpace = true) ∧ i.token.isSpace = false) :
    items (flatten is) = is := by
  unfold items
  induction is with
  | nil => rfl
  | cons i is ih =>
    obtain ⟨hg, ht⟩ := h i List.mem_cons_self
    rw [flatten_cons, itemsFrom_append_spaces hg, itemsFrom, ht, List.nil_append,
      ih (fun j hj => h j (List.mem_cons_of_mem _ hj))]
    rfl

theorem flatten_itemsFrom {ts : List Token} (hlast : ∀ t, ts.getLast? = some t → t.isSpace = false) (hne : ts ≠ [])
    (gap : List Token) : flatten (itemsFrom gap ts) = gap ++ ts := by
  induction ts generalizing gap with
  | nil => exact absurd rfl hne
  | cons t ts ih =>
    rw [itemsFrom]
    cases ts with
    | nil =>
      have ht : t.isSpace = false := hlast t rfl
      rw [ht]
      simp [itemsFrom]
    | cons u us =>
      have hlast' : ∀ t, (u :: us).getLast? = some t → t.isSpace = false := fun t h =>
        hlast t (by rwa [List.getLast?_cons_cons])
      split
      · rw [ih hlast' (by simp)]; simp
      · rw [flatten_cons, ih hlast' (by simp)]; rfl

/-- Nothing is lost when the last token is no space. -/
theorem flatten_items {ts : List Token} (hlast : ∀ t, ts.getLast? = some t → t.isSpace = false) :
    flatten (items ts) = ts := by
  by_cases hne : ts = []
  · subst hne; rfl
  · exact flatten_itemsFrom hlast hne []

theorem itemsFrom_spec {gap ts : List Token} (hgap : ∀ t ∈ gap, t.isSpace = true) :
    ∀ i ∈ itemsFrom gap ts, (∀ t ∈ i.gap, t.isSpace = true) ∧ i.token.isSpace = false := by
  induction ts generalizing gap with
  | nil => intro i hi; cases hi
  | cons t ts ih =>
    intro i hi
    rw [itemsFrom] at hi
    split at hi
    · next ht => exact ih (by simpa using fun u hu => hu.elim (hgap u) (fun e => e ▸ ht)) i hi
    · next ht =>
      rcases List.mem_cons.1 hi with rfl | hi
      · exact ⟨hgap, by simpa using ht⟩
      · exact ih (by simp) i hi

/-- The gaps of a document are spaces, and its tokens are none. -/
theorem items_spec {ts : List Token} : ∀ i ∈ items ts, (∀ t ∈ i.gap, t.isSpace = true) ∧ i.token.isSpace = false :=
  itemsFrom_spec (by simp)

/-! ## Gaps -/

/-- Blanks and line breaks without two blanks in a row. Only the last blank may be made-up indentation. -/
inductive Spaces : List Token → Prop
  | nil : Spaces []
  | blank {b : Token} : b.isWhitespace = true → Spaces [b]
  | newline {n : Token} {g : List Token} : n.isNewline = true → Spaces g → Spaces (n :: g)
  | line {b n : Token} {g : List Token} : b.kind = .whitespace → n.isNewline = true → Spaces g → Spaces (b :: n :: g)

end ScillaLayout
