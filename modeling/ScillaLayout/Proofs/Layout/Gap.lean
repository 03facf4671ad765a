import ScillaLayout.Layout.Lines
import ScillaLayout.Layout.Spacing
import ScillaLayout.Proofs.Layout.Item

/-!
# Gaps in their tidy form

After the first rules every gap is a `Gap`: a blank, at most two line breaks, and a blank that indents the next line.
A `Cell` is a token with such a gap before it. `gather` finds the cells of a document, and the rules up to the one that
shrinks blanks lead there (`collapse_clear_collapse_removeLeading`).
-/

namespace ScillaLayout

theorem isNewline_iff {t : Token} : t.isNewline = true ↔ t.kind = .newline := by simp [Token.isNewline]

theorem isWhitespace_of_isNewline {t : Token} (h : t.isNewline = true) : t.isWhitespace = false := by
  simp [Token.isWhitespace, isNewline_iff.1 h, Kind.isWhitespace]

theorem isNewline_of_isWhitespace {t : Token} (h : t.isWhitespace = true) : t.isNewline = false := by
  rw [Bool.eq_false_iff]
  intro hn
  rw [isWhitespace_of_isNewline hn] at h
  cases h

theorem isWhitespace_of_kind {t : Token} (h : t.kind = .whitespace) : t.isWhitespace = true := by
  simp [Token.isWhitespace, h, Kind.isWhitespace]

theorem kind_of_isWhitespace {t : Token} (h : t.isWhitespace = true) (hi : t.kind ≠ .indent) :
    t.kind = .whitespace := by
  cases hk : t.kind <;> simp_all [Token.isWhitespace, Kind.isWhitespace]

theorem isSpace_eq (t : Token) : t.isSpace = (t.isWhitespace || t.isNewline) := by
  cases t with | mk k x s => cases k <;> rfl

theorem isCode_of_isSpace {t : Token} (h : t.isSpace = true) : t.isCode = false := by
  rw [Bool.eq_false_iff]
  intro hc
  rw [Token.isSpace, Kind.isSpace_eq_false_of_isCode hc] at h
  cases h

theorem isCode_of_isWhitespace {t : Token} (h : t.isWhitespace = true) : t.isCode = false :=
  isCode_of_isSpace (by rw [isSpace_eq, h, Bool.true_or])

theorem isNewline_of_isCode {t : Token} (h : t.isCode = true) : t.isNewline = false := by
  rw [Bool.eq_false_iff]
  intro hn
  rw [isCode_of_isSpace (by rw [isSpace_eq, hn, Bool.or_true])] at h
  cases h

/-- What stands between two tokens once blank lines are tidied. -/
structure Gap where
  /-- The blank before the first line break, or the whole gap when there is none. -/
  trail : Option Token := none
  breaks : List Token := []
  /-- The blank behind the last line break. -/
  lead : Option Token := none
  deriving DecidableEq, Repr

namespace Gap

/-- The gap without anything. -/
def empty : Gap := {}

/-- The tokens of a gap. -/
def tokens (g : Gap) : List Token := g.trail.toList ++ g.breaks ++ g.lead.toList

/-- A blank on one line, or one or two line breaks with blanks around them. -/
structure Proper (g : Gap) : Prop where
  trail : ∀ b ∈ g.trail, b.kind = .whitespace
  breaks : ∀ n ∈ g.breaks, n.isNewline = true
  lead : ∀ b ∈ g.lead, b.isWhitespace = true
  few : g.breaks.length ≤ 2
  inline : g.breaks = [] → g.lead = none

theorem empty_proper : empty.Proper :=
  ⟨by simp [empty], by simp [empty], by simp [empty], by simp [empty], fun _ => rfl⟩

@[simp] theorem tokens_empty : empty.tokens = [] := rfl

theorem tokens_reverse (g : Gap) : g.tokens.reverse = g.lead.toList ++ (g.breaks.reverse ++ g.trail.toList) := by
  obtain ⟨trail, breaks, lead⟩ := g
  cases trail <;> cases lead <;> simp [tokens]

theorem Proper.reverse_breaks {g : Gap} (hg : g.Proper) (hb : g.breaks ≠ []) :
    ∃ n ns, g.breaks.reverse = n :: ns ∧ n.isNewline = true := by
  obtain ⟨n, ns, hr⟩ := List.exists_cons_of_ne_nil (mt List.reverse_eq_nil_iff.1 hb)
  exact ⟨n, ns, hr, hg.breaks n (by rw [← List.mem_reverse, hr]; exact List.mem_cons_self)⟩

theorem Proper.isSpace {g : Gap} (hg : g.Proper) : ∀ t ∈ g.tokens, t.isSpace = true := by
  intro t ht
  rw [isSpace_eq]
  simp only [Gap.tokens, List.mem_append, Option.mem_toList] at ht
  rcases ht with (ht | ht) | ht
  · rw [isWhitespace_of_kind (hg.trail t ht), Bool.true_or]
  · rw [hg.breaks t ht, Bool.or_true]
  · rw [hg.lead t ht, Bool.true_or]

/-- The blank at the end of spaces. -/
def lastBlank (g : List Token) : Option Token := g.getLast?.filter (·.isWhitespace)

@[simp] theorem lastBlank_nil : lastBlank [] = none := rfl

@[simp] theorem lastBlank_blank {b : Token} (hb : b.isWhitespace = true) : lastBlank [b] = some b := by
  simp [lastBlank, Option.filter_some, hb]

theorem lastBlank_newline {n : Token} (hn : n.isNewline = true) (g : List Token) :
    lastBlank (n :: g) = lastBlank g := by
  cases g with
  | nil => simp [lastBlank, Option.filter_some, isWhitespace_of_isNewline hn]
  | cons u g => simp [lastBlank]

theorem lastBlank_line {n : Token} (hn : n.isNewline = true) (b : Token) (g : List Token) :
    lastBlank (b :: n :: g) = lastBlank g := by
  rw [← lastBlank_newline hn g]
  simp [lastBlank]

theorem mem_of_mem_lastBlank {b : Token} {g : List Token} (h : b ∈ lastBlank g) :
    b ∈ g ∧ b.isWhitespace = true := by
  obtain ⟨hb, hw⟩ := Option.filter_eq_some_iff.1 h
  exact ⟨List.mem_of_getLast? hb, hw⟩

/-- The tidy form of spaces: the first blank, two line breaks, and the blank behind the last line break. -/
def ofSpaces (g : List Token) : Gap where
  trail := g.head?.filter (·.isWhitespace)
  breaks := (g.filter (·.isNewline)).take 2
  lead := if g.any (·.isNewline) then lastBlank g else none

/-- A gap before `t`: the end of the document is not indented. -/
def before (g : Gap) (t : Token) : Gap := if t.kind = .eof then { g with lead := none } else g

end Gap

/-! ## Blank lines -/

namespace Lines

theorem collapseBlankFrom_blank {b : Token} (hb : b.isWhitespace = true) (n : Nat) (bs ts : List Token) :
    collapseBlankFrom n bs (b :: ts) = collapseBlankFrom n (bs ++ [b]) ts := by
  simp [collapseBlankFrom, isNewline_of_isWhitespace hb, hb]

theorem collapseBlankFrom_append {g : List Token} (hg : ∀ t ∈ g, t.isSpace = true) {t : Token}
    (ht : t.isSpace = false) (n : Nat) (bs ts : List Token) :
    collapseBlankFrom n bs (g ++ t :: ts) = collapseBlankFrom n bs g ++ t :: collapseBlankFrom 0 [] ts := by
  have htw : t.isWhitespace = false ∧ t.isNewline = false := by simpa [isSpace_eq] using ht
  induction g generalizing n bs with
  | nil => simp [collapseBlankFrom, htw]
  | cons u g ih =>
    have hg' : ∀ t ∈ g, t.isSpace = true := fun v hv => hg v (List.mem_cons_of_mem _ hv)
    have hu := hg u List.mem_cons_self
    rw [isSpace_eq, Bool.or_eq_true] at hu
    rcases hu with hu | hu
    · simp [collapseBlankFrom, isNewline_of_isWhitespace hu, hu, ih hg']
    · by_cases hn : 2 ≤ n <;> simp [collapseBlankFrom, hu, hn, ih hg']

/-- Every gap is tidied on its own. -/
theorem collapseBlank_flatten {is : List Item}
    (h : ∀ i ∈ is, (∀ t ∈ i.gap, t.isSpace = true) ∧ i.token.isSpace = false) :
    collapseBlank (flatten is) = flatten (is.map fun i => ⟨collapseBlank i.gap, i.token⟩) := by
  induction is with
  | nil => rfl
  | cons i is ih =>
    obtain ⟨hg, ht⟩ := h i List.mem_cons_self
    rw [flatten_cons, collapseBlank, collapseBlankFrom_append hg ht]
    simp only [List.map_cons, flatten_cons]
    rw [← ih fun j hj => h j (List.mem_cons_of_mem _ hj)]
    rfl

/-- After two line breaks only the blank behind the last one is left. -/
theorem collapseBlankFrom_many {g : List Token} (hg : Spaces g) {n : Nat} (hn : 2 ≤ n) :
    collapseBlankFrom n [] g = (Gap.lastBlank g).toList := by
  induction hg generalizing n with
  | nil => rfl
  | blank hb => simp [collapseBlankFrom, isNewline_of_isWhitespace hb, hb]
  | newline hm _ ih => rw [collapseBlankFrom, if_pos hm, if_pos hn, ih (by omega), Gap.lastBlank_newline hm]
  | line hb hm _ ih =>
    rw [collapseBlankFrom_blank (isWhitespace_of_kind hb), List.nil_append, collapseBlankFrom, if_pos hm, if_pos hn,
      ih (by omega), Gap.lastBlank_line hm]

/-! ## Lines without anything -/

theorem clearBlankFrom_token {t : Token} (ht : t.isSpace = false) (atStart : Bool) (ts : List Token) :
    clearBlankFrom atStart (t :: ts) = t :: clearBlankFrom false ts := by
  have htw : t.isWhitespace = false ∧ t.isNewline = false := by simpa [isSpace_eq] using ht
  have hk : t.kind ≠ .whitespace := fun h => by simp [isWhitespace_of_kind h] at htw
  simp [clearBlankFrom, htw, hk]

theorem clearBlankFrom_newline {n : Token} (hn : n.isNewline = true) (atStart : Bool) (ts : List Token) :
    clearBlankFrom atStart (n :: ts) = n :: clearBlankFrom true ts := by
  simp [clearBlankFrom, isNewline_iff.1 hn, hn]

theorem clearBlankFrom_inner {b : Token} (hb : b.isWhitespace = true) (ts : List Token) :
    clearBlankFrom false (b :: ts) = b :: clearBlankFrom false ts := by
  simp [clearBlankFrom, isNewline_of_isWhitespace hb]

theorem clearBlankFrom_blankLine {b n : Token} (hb : b.kind = .whitespace) (hn : n.isNewline = true)
    (ts : List Token) : clearBlankFrom true (b :: n :: ts) = n :: clearBlankFrom true ts := by
  rw [clearBlankFrom, if_pos (by simp [hb, endsLine, isNewline_iff.1 hn]), clearBlankFrom_newline hn]

/-- The blank at the start of a line stays, unless the document ends there. -/
theorem clearBlankFrom_lead {b : Option Token} (hb : ∀ x ∈ b, x.isWhitespace = true) {t : Token}
    (ht : t.isSpace = false) (heof : t.kind = .eof → ∀ x ∈ b, x.kind = .whitespace) (ts : List Token) :
    clearBlankFrom true (b.toList ++ t :: ts) =
      (if t.kind = .eof then none else b).toList ++ t :: clearBlankFrom false ts := by
  cases b with
  | none => simp [clearBlankFrom_token ht]
  | some b =>
    have htn : t.kind ≠ .newline := fun h => by simp [Token.isSpace, h, Kind.isSpace] at ht
    have hbn := isNewline_of_isWhitespace (hb b rfl)
    by_cases he : t.kind = .eof
    · rw [if_pos he, Option.toList_some, List.singleton_append, clearBlankFrom,
        if_pos (by simp [endsLine, heof he b rfl, he]), clearBlankFrom_token ht]
      rfl
    · rw [if_neg he, Option.toList_some, List.singleton_append, clearBlankFrom, if_neg (by simp [endsLine, htn, he]),
        hbn, clearBlankFrom_token ht]
      rfl

/-- A second line break, and the blank of the line behind the last one. -/
theorem clearBlankFrom_second {g : List Token} (hg : Spaces g) {t : Token} (ht : t.isSpace = false)
    (heof : t.kind = .eof → ∀ b ∈ g, b.kind ≠ .indent) (ts : List Token) :
    clearBlankFrom true (collapseBlankFrom 1 [] g ++ t :: ts) =
      (g.filter (·.isNewline)).take 1 ++
        ((if t.kind = .eof then none else Gap.lastBlank g).toList ++ t :: clearBlankFrom false ts) := by
  have hlead : ∀ {h : List Token}, (∀ b ∈ h, b ∈ g) →
      clearBlankFrom true ((Gap.lastBlank h).toList ++ t :: ts) =
        (if t.kind = .eof then none else Gap.lastBlank h).toList ++ t :: clearBlankFrom false ts := by
    intro h hsub
    refine clearBlankFrom_lead (fun b hb => (Gap.mem_of_mem_lastBlank hb).2) ht (fun he b hb => ?_) ts
    obtain ⟨hmem, hw⟩ := Gap.mem_of_mem_lastBlank hb
    exact kind_of_isWhitespace hw (heof he b (hsub b hmem))
  cases hg with
  | nil => simpa [collapseBlankFrom] using hlead (h := []) (by simp)
  | @blank b hb =>
    have hone := hlead (h := [b]) (by simp)
    rw [Gap.lastBlank_blank hb] at hone ⊢
    rw [collapseBlankFrom_blank hb, collapseBlankFrom, List.nil_append, List.filter_cons_of_neg (by
      simp [isNewline_of_isWhitespace hb])]
    simpa using hone
  | @newline n g hn hg =>
    rw [collapseBlankFrom, if_pos hn, if_neg (by omega), collapseBlankFrom_many hg (Nat.le_refl 2), List.nil_append,
      List.cons_append, clearBlankFrom_newline hn, hlead (fun b hb => List.mem_cons_of_mem _ hb),
      List.filter_cons_of_pos hn, Gap.lastBlank_newline hn]
    rfl
  | @line b n g hb hn hg =>
    have hbw := isWhitespace_of_kind hb
    rw [collapseBlankFrom_blank hbw, List.nil_append, collapseBlankFrom, if_pos hn, if_neg (by omega),
      collapseBlankFrom_many hg (Nat.le_refl 2), List.append_assoc, List.singleton_append, List.cons_append,
      clearBlankFrom_blankLine hb hn, hlead (fun b hb => List.mem_cons_of_mem _ (List.mem_cons_of_mem _ hb)),
      List.filter_cons_of_neg (by simp [isNewline_of_isWhitespace hbw]), List.filter_cons_of_pos hn,
      Gap.lastBlank_line hn]
    rfl

/-- The first rules give every gap its tidy form. -/
theorem clearBlankFrom_tidy {g : List Token} (hg : Spaces g) {t : Token} (ht : t.isSpace = false)
    (heof : t.kind = .eof → ∀ b ∈ g, b.kind ≠ .indent) (ts : List Token) :
    clearBlankFrom false (collapseBlank g ++ t :: ts) =
      ((Gap.ofSpaces g).before t).tokens ++ t :: clearBlankFrom false ts := by
  cases hg with
  | nil =>
    rw [collapseBlank, collapseBlankFrom, List.nil_append, clearBlankFrom_token ht]
    simp [Gap.ofSpaces, Gap.before, Gap.tokens]
  | @blank b hb =>
    have hbn := isNewline_of_isWhitespace hb
    rw [collapseBlank, collapseBlankFrom_blank hb, collapseBlankFrom, List.nil_append, List.singleton_append,
      clearBlankFrom_inner hb, clearBlankFrom_token ht]
    simp [Gap.ofSpaces, Gap.before, Gap.tokens, Option.filter_some, hb, hbn]
  | @newline n g hn hg =>
    rw [collapseBlank, collapseBlankFrom, if_pos hn, if_neg (by omega), List.nil_append, List.cons_append,
      clearBlankFrom_newline hn, clearBlankFrom_second hg ht (fun he b hb => heof he b (List.mem_cons_of_mem _ hb))]
    by_cases he : t.kind = .eof <;>
    simp [Gap.ofSpaces, Gap.before, Gap.tokens, Option.filter_some, hn, isWhitespace_of_isNewline hn,
      Gap.lastBlank_newline hn, he]
  | @line b n g hb hn hg =>
    have hbw := isWhitespace_of_kind hb
    have hbn := isNewline_of_isWhitespace hbw
    rw [collapseBlank, collapseBlankFrom_blank hbw, List.nil_append, collapseBlankFrom, if_pos hn, if_neg (by omega),
      List.append_assoc, List.singleton_append, List.cons_append, clearBlankFrom_inner hbw, clearBlankFrom_newline hn,
      clearBlankFrom_second hg ht (fun he b hb => heof he b (List.mem_cons_of_mem _ (List.mem_cons_of_mem _ hb)))]
    by_cases he : t.kind = .eof <;>
    simp [Gap.ofSpaces, Gap.before, Gap.tokens, Option.filter_some, hn, hbw, hbn, Gap.lastBlank_line hn, he]

end Lines

/-! ## Cells -/

/-- A token that is no space, and the tidy gap before it. -/
structure Cell where
  gap : Gap
  token : Token
  deriving DecidableEq, Repr

/-- The tokens of a list of cells. -/
def cellTokens (cs : List Cell) : List Token := cs.flatMap fun c => c.gap.tokens ++ [c.token]

@[simp] theorem cellTokens_nil : cellTokens [] = [] := rfl

@[simp] theorem cellTokens_cons (c : Cell) (cs : List Cell) :
    cellTokens (c :: cs) = c.gap.tokens ++ c.token :: cellTokens cs := by
  simp [cellTokens]

/-- A cell as an item. -/
def Cell.item (c : Cell) : Item := ⟨c.gap.tokens, c.token⟩

theorem cellTokens_eq_flatten (cs : List Cell) : cellTokens cs = flatten (cs.map Cell.item) := by
  simp [cellTokens, flatten, Item.tokens, Cell.item, List.flatMap_map]

/-- A blank on one line becomes one space, unless it follows a comment. -/
def Gap.collapsed (prev : Kind) (g : Gap) : Gap :=
  if prev = .comment then g else { g with trail := g.trail.map (·.withText " ") }

theorem Gap.length_breaks (g : List Token) (t : Token) (prev : Kind) :
    (((ofSpaces g).before t).collapsed prev).breaks.length = min 2 (g.countP (·.isNewline)) := by
  have hbreaks : (((ofSpaces g).before t).collapsed prev).breaks = (ofSpaces g).breaks := by
    unfold collapsed before
    split <;> split <;> rfl
  rw [hbreaks, ofSpaces, List.length_take, List.countP_eq_length_filter]

/-- The cells of the items behind a token of kind `prev`. -/
def gatherFrom (prev : Kind) : List Item → List Cell
  | [] => []
  | i :: is => ⟨((Gap.ofSpaces i.gap).before i.token).collapsed prev, i.token⟩ :: gatherFrom i.token.kind is

/-- The cells of a document. What stands before its first token is dropped. -/
def gather : List Item → List Cell
  | [] => []
  | i :: is => ⟨.empty, i.token⟩ :: gatherFrom i.token.kind is

/-- An item of a list that was read or laid out. Made-up indentation is the start of a line of code. -/
structure Item.Proper (i : Item) : Prop where
  spaces : Spaces i.gap
  token : i.token.isSpace = false
  indent : ∀ b ∈ i.gap, b.kind = .indent → i.token.isCode = true ∧ i.gap.any (·.isNewline) = true

theorem Spaces.isSpace {g : List Token} (hg : Spaces g) : ∀ t ∈ g, t.isSpace = true := by
  induction hg with
  | nil => simp
  | blank hb => simp [isSpace_eq, hb]
  | newline hn _ ih => simpa [isSpace_eq, hn] using ih
  | line hb hn _ ih => simpa [isSpace_eq, hn, isWhitespace_of_kind hb] using ih

theorem Lines.clearBlankFrom_flatten {is : List Item} (h : ∀ i ∈ is, i.Proper) :
    Lines.clearBlankFrom false (flatten (is.map fun i => ⟨Lines.collapseBlank i.gap, i.token⟩)) =
      cellTokens (is.map fun i => ⟨(Gap.ofSpaces i.gap).before i.token, i.token⟩) := by
  induction is with
  | nil => rfl
  | cons i is ih =>
    have hi := h i List.mem_cons_self
    have heof : i.token.kind = .eof → ∀ b ∈ i.gap, b.kind ≠ .indent := fun he b hb hk => by
      have := (hi.indent b hb hk).1
      simp [Token.isCode, he, Kind.isCode] at this
    simp only [List.map_cons, flatten_cons, cellTokens_cons]
    rw [Lines.clearBlankFrom_tidy hi.spaces hi.token heof, ih fun j hj => h j (List.mem_cons_of_mem _ hj)]

/-- The gap of an item has a tidy form. -/
theorem Item.Proper.gap {i : Item} (hi : i.Proper) : (Gap.ofSpaces i.gap).Proper := by
  obtain ⟨g, t⟩ := i
  obtain ⟨hg, ht, hind⟩ := hi
  refine ⟨?_, ?_, ?_, List.length_take_le _ _, ?_⟩
  · intro b hb
    obtain ⟨hmem, hw⟩ := Option.filter_eq_some_iff.1 hb
    cases hg with
    | nil => cases hmem
    | blank hb' =>
      obtain rfl := Option.some.inj hmem
      refine kind_of_isWhitespace hb' fun hk => ?_
      have := (hind _ List.mem_cons_self hk).2
      simp [isNewline_of_isWhitespace hb'] at this
    | newline hn =>
      obtain rfl := Option.some.inj hmem
      rw [isWhitespace_of_isNewline hn] at hw
      cases hw
    | line hb' => obtain rfl := Option.some.inj hmem; exact hb'
  · intro n hn
    exact (List.mem_filter.1 (List.mem_of_mem_take hn)).2
  · intro b hb
    simp only [Gap.ofSpaces] at hb
    split at hb
    · exact (Gap.mem_of_mem_lastBlank hb).2
    · cases hb
  · intro hnil
    have hnone : g.any (·.isNewline) = false := by
      simpa [Gap.ofSpaces, List.take_eq_nil_iff] using hnil
    simp [Gap.ofSpaces, hnone]

theorem Gap.Proper.unindented {g : Gap} (hg : g.Proper) : Gap.Proper { g with lead := none } :=
  ⟨hg.trail, hg.breaks, by simp, hg.few, fun _ => rfl⟩

theorem Gap.Proper.before {g : Gap} (hg : g.Proper) (t : Token) : (g.before t).Proper := by
  unfold Gap.before
  split
  · exact hg.unindented
  · exact hg

theorem Gap.Proper.collapsed {g : Gap} (hg : g.Proper) (prev : Kind) : (g.collapsed prev).Proper := by
  unfold Gap.collapsed
  split
  · exact hg
  · refine ⟨?_, hg.breaks, hg.lead, hg.few, hg.inline⟩
    intro b hb
    obtain ⟨b', hb', rfl⟩ := Option.map_eq_some_iff.1 hb
    exact hg.trail b' hb'

/-- The cells of a list that was read or laid out. -/
def Cells (cs : List Cell) : Prop := ∀ c ∈ cs, c.gap.Proper ∧ c.token.isSpace = false

theorem Cells.item {cs : List Cell} (h : Cells cs) :
    ∀ i ∈ cs.map Cell.item, (∀ t ∈ i.gap, t.isSpace = true) ∧ i.token.isSpace = false := by
  intro i hi
  obtain ⟨c, hc, rfl⟩ := List.mem_map.1 hi
  exact ⟨(h c hc).1.isSpace, (h c hc).2⟩

theorem gatherFrom_cells {is : List Item} (h : ∀ i ∈ is, i.Proper) (prev : Kind) : Cells (gatherFrom prev is) := by
  induction is generalizing prev with
  | nil => intro c hc; cases hc
  | cons i is ih =>
    have hi := h i List.mem_cons_self
    intro c hc
    rcases List.mem_cons.1 hc with rfl | hc
    · exact ⟨(hi.gap.before _).collapsed _, hi.token⟩
    · exact ih (fun j hj => h j (List.mem_cons_of_mem _ hj)) _ c hc

theorem gather_cells {is : List Item} (h : ∀ i ∈ is, i.Proper) : Cells (gather is) := by
  cases is with
  | nil => intro c hc; cases hc
  | cons i is =>
    intro c hc
    rcases List.mem_cons.1 hc with rfl | hc
    · exact ⟨Gap.empty_proper, (h i List.mem_cons_self).token⟩
    · exact gatherFrom_cells (fun j hj => h j (List.mem_cons_of_mem _ hj)) _ c hc

/-! ## Runs of blanks -/

namespace Spacing

theorem collapseAfter_token {t : Token} (ht : t.isSpace = false) (prev : Kind) (ts : List Token) :
    collapseAfter prev (t :: ts) = t :: collapseAfter t.kind ts := by
  have hk : t.kind ≠ .whitespace := fun h => by simp [Token.isSpace, h, Kind.isSpace] at ht
  simp [collapseAfter, collapsed, hk]

theorem collapseAfter_breaks {ns : List Token} (hns : ∀ n ∈ ns, n.isNewline = true) (prev : Kind) (ts : List Token) :
    collapseAfter prev (ns ++ ts) = ns ++ collapseAfter (if ns = [] then prev else .newline) ts := by
  induction ns generalizing prev with
  | nil => rfl
  | cons n ns ih =>
    have hn : n.kind = .newline := isNewline_iff.1 (hns n List.mem_cons_self)
    rw [List.cons_append, collapseAfter, ih fun m hm => hns m (List.mem_cons_of_mem _ hm)]
    simp [collapsed, hn]

theorem collapseAfter_lead (b : Option Token) {t : Token} (ht : t.isSpace = false) (ts : List Token) :
    collapseAfter .newline (b.toList ++ t :: ts) = b.toList ++ t :: collapseAfter t.kind ts := by
  cases b with
  | none => exact collapseAfter_token ht _ _
  | some b =>
    rw [Option.toList_some, List.singleton_append, collapseAfter, collapseAfter_token ht]
    simp [collapsed]

theorem collapseAfter_gap {g : Gap} (hg : g.Proper) {t : Token} (ht : t.isSpace = false) {prev : Kind}
    (hp : prev ≠ .newline) (ts : List Token) :
    collapseAfter prev (g.tokens ++ t :: ts) = (g.collapsed prev).tokens ++ t :: collapseAfter t.kind ts := by
  -- line breaks and what follows them
  have hrest : ∀ prev', collapseAfter prev' (g.breaks ++ (g.lead.toList ++ t :: ts)) =
      g.breaks ++ (g.lead.toList ++ t :: collapseAfter t.kind ts) := by
    intro prev'
    rw [collapseAfter_breaks hg.breaks]
    by_cases hb : g.breaks = []
    · simp [hb, hg.inline hb, collapseAfter_token ht]
    · rw [if_neg hb, collapseAfter_lead _ ht]
  obtain ⟨trail, breaks, lead⟩ := g
  cases trail with
  | none => simpa [Gap.tokens, Gap.collapsed] using hrest prev
  | some b =>
    have hb : b.kind = .whitespace := hg.trail b rfl
    have hrest' := hrest b.kind
    by_cases hc : prev = .comment <;>
      simpa [Gap.tokens, Gap.collapsed, collapseAfter, collapsed, hb, hp, hc] using hrest'

theorem collapseAfter_cells {is : List Item} (h : ∀ i ∈ is, i.Proper) {prev : Kind} (hp : prev ≠ .newline) :
    collapseAfter prev (cellTokens (is.map fun i => ⟨(Gap.ofSpaces i.gap).before i.token, i.token⟩)) =
      cellTokens (gatherFrom prev is) := by
  induction is generalizing prev with
  | nil => rfl
  | cons i is ih =>
    have hi := h i List.mem_cons_self
    have hk : i.token.kind ≠ .newline := fun hk => by
      have := hi.token
      simp [Token.isSpace, hk, Kind.isSpace] at this
    simp only [List.map_cons, cellTokens_cons, gatherFrom]
    rw [collapseAfter_gap (hi.gap.before _) hi.token hp, ih (fun j hj => h j (List.mem_cons_of_mem _ hj)) hk]

end Spacing

/-- The rules up to the one that shrinks blanks lead to the cells of a document. -/
theorem collapse_clear_collapse_removeLeading {is : List Item} (h : ∀ i ∈ is, i.Proper) :
    Spacing.collapse (Lines.clearBlank (Lines.collapseBlank (Lines.removeLeading (flatten is)))) =
      cellTokens (gather is) := by
  cases is with
  | nil => rfl
  | cons i is =>
    have hi := h i List.mem_cons_self
    have his : ∀ j ∈ is, j.Proper := fun j hj => h j (List.mem_cons_of_mem _ hj)
    have hk : i.token.kind ≠ .newline := fun hk => by
      have := hi.token
      simp [Token.isSpace, hk, Kind.isSpace] at this
    have hlead : Lines.removeLeading (flatten (i :: is)) = i.token :: flatten is := by
      rw [flatten_cons, Lines.removeLeading, List.dropWhile_append_of_pos hi.spaces.isSpace,
        List.dropWhile_cons_of_neg (by simp [hi.token])]
    have hblank : Lines.collapseBlank (i.token :: flatten is) =
        i.token :: Lines.collapseBlank (flatten is) :=
      Lines.collapseBlankFrom_append (g := []) (by simp) hi.token 0 [] (flatten is)
    rw [hlead, hblank, Lines.collapseBlank_flatten fun j hj => ⟨(his j hj).spaces.isSpace, (his j hj).token⟩,
      Lines.clearBlank, Lines.clearBlankFrom_token hi.token, Lines.clearBlankFrom_flatten his, Spacing.collapse,
      Spacing.collapseAfter_cells his hk]
    simp [gather]

end ScillaLayout
