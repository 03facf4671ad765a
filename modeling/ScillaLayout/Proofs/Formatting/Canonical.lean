import Mathlib.Tactic.MkIffOfInductiveProp
import ScillaLayout.Proofs.Formatting.Preservation

/-!
# The formatted text is canonical

What a source is formatted to depends on its program, on where its lines are broken and on where blanks stand, and not
on how long they are. Only next to a comment a blank counts as it is written. `SpacesAgree` says this of the spaces
between two tokens, and `LayoutsAgree` of whole sources; such sources are formatted to the same text
(`format_eq_of_layoutsAgree`).
-/

namespace ScillaLayout

/-- The tokens behind the last line break. -/
def lastLine (g : List Token) : List Token := (g.reverse.takeWhile (!·.isNewline)).reverse

/-- Spaces between a token of kind `left` and one of kind `right` that differ at most in the lengths of blanks, in how
line breaks are written and in how many blank lines there are. -/
@[mk_iff]
structure SpacesAgree (left right : Kind) (g h : List Token) : Prop where
  breaks : min 2 (g.countP (·.isNewline)) = min 2 (h.countP (·.isNewline))
  empty : g.countP (·.isNewline) = 0 → (g = [] ↔ h = [])
  behind : g.countP (·.isNewline) = 0 → left = .comment → Token.renderAll g = Token.renderAll h
  before : g.countP (·.isNewline) ≠ 0 → right = .comment → Token.renderAll (lastLine g) = Token.renderAll (lastLine h)

instance (left right : Kind) (g h : List Token) : Decidable (SpacesAgree left right g h) :=
  decidable_of_iff' _ (spacesAgree_iff left right g h)

/-- The spaces behind a token of kind `left` agree, as far as both documents go and before the end mark. -/
def SpacesAgreeFrom : Kind → List Item → List Item → Prop
  | left, i :: is, j :: js =>
    (i.token.kind ≠ .eof → SpacesAgree left i.token.kind i.gap j.gap) ∧ SpacesAgreeFrom i.token.kind is js
  | _, _, _ => True

/-- The spaces between two tokens agree. Those before the first one do not count. -/
def LayoutsAgree : List Item → List Item → Prop
  | i :: is, _ :: js => SpacesAgreeFrom i.token.kind is js
  | _, _ => True

instance decidableSpacesAgreeFrom : (left : Kind) → (is js : List Item) → Decidable (SpacesAgreeFrom left is js)
  | _, [], _ => .isTrue (by simp [SpacesAgreeFrom])
  | _, _ :: _, [] => .isTrue (by simp [SpacesAgreeFrom])
  | left, i :: is, j :: js =>
    have := decidableSpacesAgreeFrom i.token.kind is js
    inferInstanceAs (Decidable ((i.token.kind ≠ .eof → SpacesAgree left i.token.kind i.gap j.gap) ∧ _))

instance : (is js : List Item) → Decidable (LayoutsAgree is js)
  | [], _ => .isTrue (by simp [LayoutsAgree])
  | _ :: _, [] => .isTrue (by simp [LayoutsAgree])
  | i :: is, _ :: js => decidableSpacesAgreeFrom i.token.kind is js

/-! ## Gaps of spaces that agree -/

theorem lastLine_append_newline {n : Token} (hn : n.isNewline = true) (us g : List Token) :
    lastLine (us ++ n :: g) = lastLine g := by
  have hrest : (us ++ n :: g).reverse = g.reverse ++ n :: us.reverse := by simp
  rw [lastLine, lastLine, hrest, List.takeWhile_append, List.takeWhile_cons_of_neg (by simp [hn]), List.append_nil]
  split
  · next hall => rw [(List.takeWhile_prefix _).eq_of_length hall]
  · rfl

theorem Spaces.lastLine {g : List Token} (hg : Spaces g) : lastLine g = (Gap.lastBlank g).toList := by
  induction hg with
  | nil => rfl
  | blank hb => simp [ScillaLayout.lastLine, isNewline_of_isWhitespace hb, Gap.lastBlank_blank hb]
  | @newline n g hn _ ih => rw [Gap.lastBlank_newline hn, ← ih, ← lastLine_append_newline hn [] g, List.nil_append]
  | @line b n g _ hn _ ih => rw [Gap.lastBlank_line hn, ← ih, ← lastLine_append_newline hn [b] g, List.singleton_append]

/-- Spaces without a line break are at most one blank. -/
theorem Spaces.blank_of_count {g : List Token} (hg : Spaces g) (h : g.countP (·.isNewline) = 0) :
    ∃ b : Option Token, g = b.toList ∧ ∀ x ∈ b, x.isWhitespace = true := by
  have hnone : ∀ t ∈ g, ¬t.isNewline = true := List.countP_eq_zero.1 h
  cases hg with
  | nil => exact ⟨none, rfl, by simp⟩
  | @blank b hb => exact ⟨some b, rfl, by simpa using hb⟩
  | newline hn => exact absurd hn (hnone _ List.mem_cons_self)
  | line _ hn => exact absurd hn (hnone _ (List.mem_cons_of_mem _ List.mem_cons_self))

theorem Gap.trail_ofSpaces {b : Option Token} (hb : ∀ x ∈ b, x.isWhitespace = true) :
    (ofSpaces b.toList).trail = b := by
  cases b with
  | none => rfl
  | some x => simp [ofSpaces, Option.filter_some, hb x rfl]

/-- The blank that indents a line is the last one of the spaces. -/
theorem Gap.lead_ofSpaces (g : List Token) (prev : Kind) :
    ((ofSpaces g).collapsed prev).lead = if g.countP (·.isNewline) = 0 then none else lastBlank g := by
  have hcut : ((ofSpaces g).collapsed prev).lead = (ofSpaces g).lead := by
    unfold collapsed
    split <;> rfl
  rw [hcut, ofSpaces]
  by_cases hg : g.any (·.isNewline) = true
  · have hne : g.countP (·.isNewline) ≠ 0 := by simpa [List.countP_eq_zero] using hg
    rw [if_pos hg, if_neg hne]
  · have hzero : g.countP (·.isNewline) = 0 := by simpa [List.countP_eq_zero] using hg
    rw [if_neg hg, if_pos hzero]

/-- A blank is known by its text. -/
theorem map_text_of_renderAll {b c : Option Token} (hb : ∀ x ∈ b, x.text ≠ "") (hc : ∀ x ∈ c, x.text ≠ "")
    (h : Token.renderAll b.toList = Token.renderAll c.toList) : b.map (·.text) = c.map (·.text) := by
  cases b with
  | none =>
    cases c with
    | none => rfl
    | some y => exact absurd (by simpa using h.symm) (hc y rfl)
  | some x =>
    cases c with
    | none => exact absurd (by simpa using h) (hb x rfl)
    | some y => simpa using h

namespace SpacesAgree

variable {left right : Kind} {g h : List Token}

theorem countP_eq_zero (ha : SpacesAgree left right g h) (hg : g.countP (·.isNewline) = 0) :
    h.countP (·.isNewline) = 0 := by
  have hbreaks := ha.breaks
  omega

/-- A blank within a line is there in both or in neither, and only behind a comment its text counts. -/
theorem map_text_trail (ha : SpacesAgree left right g h) (hg : Spaces g) (hh : Spaces h) (htg : ∀ t ∈ g, t.text ≠ "")
    (hth : ∀ t ∈ h, t.text ≠ "") (hb : g.countP (·.isNewline) = 0) :
    ((Gap.ofSpaces g).collapsed left).trail.map (·.text) = ((Gap.ofSpaces h).collapsed left).trail.map (·.text) := by
  obtain ⟨b, rfl, hbw⟩ := hg.blank_of_count hb
  obtain ⟨c, rfl, hcw⟩ := hh.blank_of_count (ha.countP_eq_zero hb)
  have hempty : b = none ↔ c = none := by simpa using ha.empty hb
  unfold Gap.collapsed
  split
  · next hleft =>
    rw [Gap.trail_ofSpaces hbw, Gap.trail_ofSpaces hcw]
    refine map_text_of_renderAll (fun x hx => htg x ?_) (fun x hx => hth x ?_) (ha.behind hb hleft)
    · exact Option.mem_toList.2 hx
    · exact Option.mem_toList.2 hx
  · simp only [Gap.trail_ofSpaces hbw, Gap.trail_ofSpaces hcw, Option.map_map]
    cases b with
    | none => rw [hempty.1 rfl]
    | some x =>
      cases c with
      | none => cases hempty.2 rfl
      | some y => rfl

/-- The blank behind the last line break counts before a comment. -/
theorem map_text_lead (ha : SpacesAgree left .comment g h) (hg : Spaces g) (hh : Spaces h) (htg : ∀ t ∈ g, t.text ≠ "")
    (hth : ∀ t ∈ h, t.text ≠ "") :
    ((Gap.ofSpaces g).collapsed left).lead.map (·.text) = ((Gap.ofSpaces h).collapsed left).lead.map (·.text) := by
  rw [Gap.lead_ofSpaces, Gap.lead_ofSpaces]
  by_cases hb : g.countP (·.isNewline) = 0
  · rw [if_pos hb, if_pos (ha.countP_eq_zero hb)]
  · have hb' : h.countP (·.isNewline) ≠ 0 := by
      have hbreaks := ha.breaks
      omega
    have hlast := ha.before hb rfl
    rw [hg.lastLine, hh.lastLine] at hlast
    rw [if_neg hb, if_neg hb']
    refine map_text_of_renderAll (fun x hx => htg x ?_) (fun x hx => hth x ?_) hlast
    · exact (Gap.mem_of_mem_lastBlank hx).1
    · exact (Gap.mem_of_mem_lastBlank hx).1

end SpacesAgree

/-- Items with spaces that agree are cells that the layout does not tell apart. -/
theorem SpacesAgree.alike {i j : Item} {left : Kind} (ha : SpacesAgree left i.token.kind i.gap j.gap) (hi : i.Proper)
    (hj : j.Proper) (hti : ∀ t ∈ i.gap, t.text ≠ "") (htj : ∀ t ∈ j.gap, t.text ≠ "") (hk : i.token.key = j.token.key)
    (he : i.token.kind ≠ .eof) :
    Cell.Alike ⟨((Gap.ofSpaces i.gap).before i.token).collapsed left, i.token⟩
      ⟨((Gap.ofSpaces j.gap).before j.token).collapsed left, j.token⟩ := by
  have hkind : i.token.kind = j.token.kind := congrArg Prod.fst hk
  have he' : j.token.kind ≠ .eof := hkind ▸ he
  have hbreaks := Gap.length_breaks i.gap i.token left
  have hbreaks' := Gap.length_breaks j.gap j.token left
  rw [Gap.before, if_neg he] at hbreaks ⊢
  rw [Gap.before, if_neg he'] at hbreaks' ⊢
  refine ⟨hk, ?_, fun hb => ?_, fun hcomment => ?_⟩
  · rw [hbreaks, hbreaks', ha.breaks]
  · have hzero : min 2 (i.gap.countP (·.isNewline)) = 0 := by
      rw [← hbreaks]
      exact List.length_eq_zero_iff.2 hb
    exact ha.map_text_trail hi.spaces hj.spaces hti htj (by omega)
  · have hcomment' : i.token.kind = .comment := hcomment
    rw [hcomment'] at ha
    exact ha.map_text_lead hi.spaces hj.spaces hti htj

/-! ## Sources whose layouts agree -/

/-- The cells of documents whose spaces agree are alike. The end marks stand behind the last items. -/
theorem SpacesAgreeFrom.alike {left : Kind} {is js : List Item} {last last' : Item}
    (h : SpacesAgreeFrom left (is ++ [last]) (js ++ [last'])) (hkeys : is.map (·.token.key) = js.map (·.token.key))
    (his : ∀ i ∈ is, i.Proper ∧ (∀ t ∈ i.gap, t.text ≠ "") ∧ i.token.kind ≠ .eof)
    (hjs : ∀ j ∈ js, j.Proper ∧ ∀ t ∈ j.gap, t.text ≠ "") :
    CellsAlike (gatherFrom left is) (gatherFrom left js) := by
  induction is generalizing js left with
  | nil =>
    obtain rfl : js = [] := by simpa using hkeys.symm
    trivial
  | cons i is ih =>
    cases js with
    | nil => cases hkeys
    | cons j js =>
      obtain ⟨hkey, hrest⟩ := List.cons.inj hkeys
      obtain ⟨hspaces, htail⟩ := h
      obtain ⟨hi, hti, he⟩ := his i List.mem_cons_self
      obtain ⟨hj, htj⟩ := hjs j List.mem_cons_self
      have hkind : i.token.kind = j.token.kind := congrArg Prod.fst hkey
      have hcells := ih htail hrest (fun k hk => his k (List.mem_cons_of_mem _ hk))
        (fun k hk => hjs k (List.mem_cons_of_mem _ hk))
      refine ⟨(hspaces he).alike hi hj hti htj hkey he, ?_⟩
      rw [← hkind]
      exact hcells

namespace Reads

variable {s t : String} {is js : List Item} {last last' : Item}

theorem text_ne (h : Reads s is last) : ∀ i ∈ is, ∀ b ∈ i.gap, b.text ≠ "" := by
  intro i hi b hb htext
  have hspell := h.spells b (List.mem_append_left _ (mem_flatten_of_mem_gap hi hb))
  exact hspell.ne_nil (by simp [htext])

/-- The cells of sources whose layouts agree are alike. -/
theorem cellsAlike (h : Reads s is last) (h' : Reads t js last')
    (hkeys : is.map (·.token.key) = js.map (·.token.key)) (ha : LayoutsAgree (is ++ [last]) (js ++ [last'])) :
    CellsAlike (gather is) (gather js) := by
  have his : ∀ i ∈ is, i.Proper ∧ (∀ b ∈ i.gap, b.text ≠ "") ∧ i.token.kind ≠ .eof := fun i hi =>
    ⟨h.proper i (List.mem_append_left _ hi), h.text_ne i hi, h.token_ne_eof i hi⟩
  have hjs : ∀ j ∈ js, j.Proper ∧ ∀ b ∈ j.gap, b.text ≠ "" := fun j hj =>
    ⟨h'.proper j (List.mem_append_left _ hj), h'.text_ne j hj⟩
  cases is with
  | nil =>
    obtain rfl : js = [] := by simpa using hkeys.symm
    trivial
  | cons i is =>
    cases js with
    | nil => cases hkeys
    | cons j js =>
      obtain ⟨hkey, hrest⟩ := List.cons.inj hkeys
      have hkind : i.token.kind = j.token.kind := congrArg Prod.fst hkey
      have hcells := SpacesAgreeFrom.alike ha hrest (fun k hk => his k (List.mem_cons_of_mem _ hk))
        (fun k hk => hjs k (List.mem_cons_of_mem _ hk))
      refine ⟨⟨hkey, rfl, fun _ => rfl, fun _ => rfl⟩, ?_⟩
      rw [← hkind]
      exact hcells

end Reads

/-- **The formatted text is canonical.** Two sources with the same program whose layouts agree are formatted to the same
text, whatever the options. -/
theorem format_eq_of_layoutsAgree {s t : String} (hs : (lex s).fault = none) (ht : (lex t).fault = none)
    (hprogram : program (lex s).tokens = program (lex t).tokens)
    (hlayout : LayoutsAgree (items (lex s).tokens) (items (lex t).tokens)) (o : Options) :
    format o s = format o t := by
  obtain ⟨is, last, hreads⟩ := exists_reads hs
  obtain ⟨js, last', hreads'⟩ := exists_reads ht
  have hkeys : is.map (·.token.key) = js.map (·.token.key) := by
    rw [hreads.program, hreads'.program] at hprogram
    exact List.append_cancel_right hprogram
  rw [hreads.items, hreads'.items] at hlayout
  have halike := hreads.cellsAlike hreads' hkeys hlayout
  exact hreads.format_congr hreads' (Walk.laid_alike rfl hreads.meets hreads'.meets halike hreads.kind_ne_eof)

/-- Other widths, other line breaks and more blank lines, with a comment before and behind a blank. -/
theorem format_eq_of_layoutsAgree_comments :
    LayoutsAgree (items (lex "field x : A(*a*)  =\n\n  (*b*)\nmatch m with\n| B => c end").tokens)
      (items (lex "\n field\tx   : A(*a*)  =  \r\n \r\r  (*b*) \r       match m   with\r| B => c end \r").tokens) ∧
    format { indentUnit := "--", newline := "x" } "field x : A(*a*)  =\n\n  (*b*)\nmatch m with\n| B => c end" =
      format { indentUnit := "--", newline := "x" }
        "\n field\tx   : A(*a*)  =  \r\n \r\r  (*b*) \r       match m   with\r| B => c end \r" :=
  ⟨by decide +kernel, format_eq_of_layoutsAgree (by decide +kernel) (by decide +kernel) (by decide +kernel)
    (by decide +kernel) _⟩

end ScillaLayout
