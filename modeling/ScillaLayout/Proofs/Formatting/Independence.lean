import ScillaLayout.Proofs.Formatting.Text
import ScillaLayout.Proofs.Layout.Clause

/-!
# Declarations are formatted independently

A source that goes on with a top-level declaration is read as its two parts with line breaks in between
(`Reads.exists_append`). No address clause is open at the keyword, so the layout makes a new start there. What a
declaration is formatted to does not depend on what stands before it (`format_append_declaration`).
-/

namespace ScillaLayout

open Lexeme

/-! ## Items without their places -/

/-- The kinds and texts of an item. -/
def Item.key (i : Item) : List (Kind × String) × (Kind × String) := (i.gap.map Token.key, i.token.key)

/-- Where a token list is cut depends on its kinds. -/
theorem map_key_itemsFrom {gap gap' ts us : List Token} (hgap : gap.map Token.key = gap'.map Token.key)
    (h : ts.map Token.key = us.map Token.key) :
    (itemsFrom gap ts).map Item.key = (itemsFrom gap' us).map Item.key := by
  induction ts generalizing us gap gap' with
  | nil =>
    obtain rfl : us = [] := by simpa using h.symm
    rfl
  | cons t ts ih =>
    cases us with
    | nil => cases h
    | cons u us =>
      obtain ⟨hkey, hrest⟩ := List.cons.inj h
      have hspace : t.isSpace = u.isSpace := by
        rw [Token.isSpace, Token.isSpace, show t.kind = u.kind from congrArg Prod.fst hkey]
      rw [itemsFrom, itemsFrom, hspace]
      split
      · exact ih (by simp [hgap, hkey]) hrest
      · rw [List.map_cons, List.map_cons, ih rfl hrest]
        simp only [Item.key, hgap, hkey]

namespace Gap

/-- The shape of spaces is known from their kinds and texts. -/
theorem shape_ofSpaces (g : List Token) : (ofSpaces g).shape =
    (((g.map Token.key).head?.filter (·.1.isWhitespace)).map (·.2),
      min 2 ((g.map Token.key).countP (·.1 == .newline)),
      if (g.map Token.key).any (·.1 == .newline) then
        ((g.map Token.key).getLast?.filter (·.1.isWhitespace)).map (·.2)
      else none) := by
  have hblank : ∀ b : Option Token, (b.filter (·.isWhitespace)).map (·.text) =
      ((b.map Token.key).filter (·.1.isWhitespace)).map (·.2) := by
    intro b
    cases b with
    | none => rfl
    | some b => cases hb : b.isWhitespace <;> simp_all [Option.filter_some, Token.key, Token.isWhitespace]
  have hbreak : ∀ t : Token, (t.key.1 == .newline) = t.isNewline := fun t => rfl
  simp only [shape, ofSpaces, lastBlank, List.head?_map, List.getLast?_map, hblank, List.countP_map, List.any_map,
    List.length_take, ← List.countP_eq_length_filter, Function.comp_def, hbreak]
  split
  · rw [hblank]
  · rfl

theorem shape_before (g : Gap) (t : Token) :
    (g.before t).shape = if t.kind = .eof then (g.shape.1, g.shape.2.1, none) else g.shape := by
  unfold before
  split <;> rfl

theorem shape_collapsed (g : Gap) (prev : Kind) :
    (g.collapsed prev).shape = if prev = .comment then g.shape else (g.shape.1.map fun _ => " ", g.shape.2) := by
  unfold collapsed
  split
  · rfl
  · simp [shape, Function.comp_def]

end Gap

/-- The cells of items with the same kinds and texts have the same shapes. -/
theorem map_shape_gatherFrom {is js : List Item} (h : is.map Item.key = js.map Item.key) (prev : Kind) :
    (gatherFrom prev is).map Cell.shape = (gatherFrom prev js).map Cell.shape := by
  induction is generalizing js prev with
  | nil =>
    obtain rfl : js = [] := by simpa using h.symm
    rfl
  | cons i is ih =>
    cases js with
    | nil => cases h
    | cons j js =>
      obtain ⟨hkey, hrest⟩ := List.cons.inj h
      obtain ⟨hgap, htoken⟩ := Prod.mk.inj hkey
      have hkind : i.token.kind = j.token.kind := congrArg Prod.fst htoken
      rw [gatherFrom, gatherFrom, List.map_cons, List.map_cons, hkind, ih hrest]
      simp only [Cell.shape, Gap.shape_collapsed, Gap.shape_before, Gap.shape_ofSpaces, hgap, htoken, hkind]

theorem map_shape_gather {is js : List Item} (h : is.map Item.key = js.map Item.key) :
    (gather is).map Cell.shape = (gather js).map Cell.shape := by
  cases is with
  | nil =>
    obtain rfl : js = [] := by simpa using h.symm
    rfl
  | cons i is =>
    cases js with
    | nil => cases h
    | cons j js =>
      obtain ⟨hkey, hrest⟩ := List.cons.inj h
      obtain ⟨-, htoken⟩ := Prod.mk.inj hkey
      have hkind : i.token.kind = j.token.kind := congrArg Prod.fst htoken
      rw [gather, gather, List.map_cons, List.map_cons, hkind, map_shape_gatherFrom hrest]
      simp only [Cell.shape, htoken]

/-- Cells of the same shapes are alike. -/
theorem cellsAlike_of_shape {cs cs' : List Cell} (h : cs.map Cell.shape = cs'.map Cell.shape) : CellsAlike cs cs' := by
  induction cs generalizing cs' with
  | nil =>
    obtain rfl : cs' = [] := by simpa using h.symm
    trivial
  | cons c cs ih =>
    cases cs' with
    | nil => cases h
    | cons c' cs' =>
      obtain ⟨hshape, hrest⟩ := List.cons.inj h
      obtain ⟨hgap, hkey⟩ := Prod.mk.inj hshape
      have halike := Gap.alike_of_shape hgap
      exact ⟨⟨hkey, halike.breaks, halike.trail, fun _ => halike.lead⟩, ih hrest⟩

/-! ## Reading two parts -/

/-- Text `x` written `n` times. -/
def repeated (n : Nat) (x : String) : String := String.join (List.replicate n x)

theorem repeated_succ (n : Nat) (x : String) : repeated (n + 1) x = x ++ repeated n x := by
  simp [repeated, List.replicate_succ, String.join_cons]

/-- A line break of a source. -/
def lineFeed : Token := .synthetic .newline "\n"

/-- A line feed is extended by nothing. -/
theorem stops_lineFeed (cs : List Char) : Stops (Kind.newline.extendedBy ['\n']) cs := by
  cases cs with
  | nil => exact stops_nil _
  | cons c cs => exact stops_cons.2 rfl

theorem chain_lineFeeds (n : Nat) {xs : List (Kind × String)} (hxs : IsChain xs) :
    IsChain ((List.replicate n lineFeed).map Token.key ++ xs) := by
  induction n with
  | zero => exact hxs
  | succ n ih =>
    have hspell : Kind.newline.Spells ['\n'] := by simp [Kind.Spells]
    exact ⟨hspell, stops_lineFeed _, ih⟩

theorem chainText_lineFeeds (n : Nat) :
    chainText ((List.replicate n lineFeed).map Token.key) = List.replicate n '\n' := by
  induction n with
  | zero => rfl
  | succ n ih =>
    rw [List.replicate_succ, List.map_cons, chainText_cons, ih]
    rfl

theorem toList_repeated_lineFeed (n : Nat) : (repeated n "\n").toList = List.replicate n '\n' := by
  induction n with
  | zero => rfl
  | succ n ih =>
    rw [repeated_succ, String.toList_append, ih]
    rfl

/-- A document ends with a token that is no space. -/
theorem getLast?_flatten {is : List Item} (h : ∀ i ∈ is, i.token.isSpace = false) :
    ∀ t ∈ (flatten is).getLast?, t.isSpace = false := by
  intro t ht
  rcases List.eq_nil_or_concat is with rfl | ⟨is', i, rfl⟩
  · cases ht
  · rw [List.concat_eq_append] at ht h
    rw [flatten_append, flatten_cons, flatten_nil, ← List.append_assoc, List.getLast?_concat] at ht
    obtain rfl := Option.some.inj ht
    exact h i (by simp)

namespace Reads

variable {a b : String} {is js : List Item} {j last last' : Item} {n : Nat}

/-- The chain of two parts with line breaks in between. -/
theorem chain_append (h : Reads a is last) (h' : Reads b js last') (hn : 0 < n) :
    IsChain ((flatten is).map Token.key ++
      ((List.replicate n lineFeed).map Token.key ++ (flatten js ++ last'.gap).map Token.key)) := by
  have hleft : IsChain ((flatten is).map Token.key) := by
    have hchain := h.chain
    rw [List.map_append] at hchain
    exact hchain.left
  refine hleft.append (chain_lineFeeds n h'.chain) fun x hx => ?_
  rw [List.getLast?_map] at hx
  obtain ⟨t, ht, rfl⟩ := Option.map_eq_some_iff.1 hx
  have hspace := getLast?_flatten (fun i hi => (h.spaces i (List.mem_append_left _ hi)).2) t ht
  -- the first line break is white space
  obtain ⟨m, rfl⟩ := Nat.exists_eq_succ_of_ne_zero (Nat.ne_of_gt hn)
  exact stops_cons.2 (Kind.extendedBy_whiteSpace hspace _ (by decide))

/-- **Two parts with line breaks in between** are read as their items, up to their places. -/
theorem exists_append (h : Reads a is last) (hlast : last.gap = []) (h' : Reads b (j :: js) last') (hj : j.gap = [])
    (hn : 0 < n) : ∃ ks last'', Reads (a ++ repeated n "\n" ++ b) ks last'' ∧
      ks.map Item.key = (is ++ ⟨List.replicate n lineFeed, j.token⟩ :: js).map Item.key := by
  have hchain := h.chain_append h' hn
  have htext : (a ++ repeated n "\n" ++ b).toList = chainText ((flatten is).map Token.key ++
      ((List.replicate n lineFeed).map Token.key ++ (flatten (j :: js) ++ last'.gap).map Token.key)) := by
    have hleft := h.text
    rw [hlast, List.append_nil] at hleft
    rw [chainText_append, chainText_append, hleft, chainText_lineFeeds, h'.text, String.toList_append,
      String.toList_append, toList_repeated_lineFeed, List.append_assoc]
  have hread := Lexed.read_chainText hchain .start
  rw [← htext] at hread
  obtain ⟨hfault, hkeys⟩ := hread
  obtain ⟨ks, last'', hreads⟩ := exists_reads hfault
  refine ⟨ks, last'', hreads, ?_⟩
  -- the same kinds and texts as those of the items put together
  have hflat : (lex (a ++ repeated n "\n" ++ b)).tokens.map Token.key =
      (flatten (is ++ ⟨List.replicate n lineFeed, j.token⟩ :: js ++ [last'])).map Token.key := by
    refine hkeys.trans ?_
    simp [hj, h'.mark]
  have hspaces : ∀ i ∈ is ++ ⟨List.replicate n lineFeed, j.token⟩ :: js ++ [last'],
      (∀ t ∈ i.gap, t.isSpace = true) ∧ i.token.isSpace = false := by
    intro i hi
    simp only [List.append_assoc, List.cons_append, List.mem_append, List.mem_cons] at hi
    rcases hi with hi | rfl | hi
    · exact h.spaces i (List.mem_append_left _ hi)
    · refine ⟨fun t ht => ?_, (h'.spaces j (by simp)).2⟩
      obtain rfl := List.eq_of_mem_replicate ht
      rfl
    · exact h'.spaces i (by simpa using Or.inr hi)
  have hitems : (ks ++ [last'']).map Item.key =
      (is ++ ⟨List.replicate n lineFeed, j.token⟩ :: js ++ [last']).map Item.key := by
    rw [← hreads.items, ← items_flatten hspaces]
    exact map_key_itemsFrom rfl hflat
  rw [List.map_append, List.map_append] at hitems
  exact (List.append_inj' hitems rfl).1

end Reads

/-! ## The layout of a declaration -/

namespace Walk

variable {o : Options} {w : Walk}

/-- A declaration behind line breaks is not indented. -/
theorem shape_settle_topLevel {g : Gap} {t : Token} (hc : w.clause = none) (hk : t.kind.isTopLevel = true)
    (hb : g.breaks ≠ []) : (w.settle o ⟨g, t⟩).shape = (none, g.breaks.length, none) := by
  have hbreak : w.breaksAt g t = true := by simp [breaksAt, hc, hb]
  obtain ⟨hnil, -⟩ := entry_topLevel (o := o) w w g g hk rfl
  have hgap : w.gapOut o g t = ⟨g.trail, g.breaks, none⟩ := by
    simp [gapOut, hc, isCode_of_isTopLevel hk, hbreak, indentation_nil hnil, Gap.broken, hb]
  have hne : (⟨g.trail, g.breaks, none⟩ : Gap).breaks ≠ [] := hb
  rw [settle, hgap, Gap.finished_broken hne]
  simp [Gap.shape]

/-- **A declaration is laid out as if nothing stood before it**, but for the line breaks. -/
theorem laid_declaration {cs ds : List Cell} {g : Gap} {t : Token} (hm : Meets {} (cs ++ ⟨g, t⟩ :: ds))
    (he : ∀ d ∈ ds, d.token.kind ≠ .eof) (hc : (cs.foldl (visit o) {}).clause = none) (hk : t.kind.isTopLevel = true)
    (hb : g.breaks ≠ []) (hstart : Meets {} (⟨.empty, t⟩ :: ds)) :
    (laid o {} (cs ++ ⟨g, t⟩ :: ds)).map Cell.shape = (laid o {} cs).map Cell.shape ++
      ((none, g.breaks.length, none), t.key) :: (laid o (visit o {} ⟨.empty, t⟩) ds).map Cell.shape := by
  have hthere := hm.foldl_visit (o := o)
  have hscene := scene_visit_topLevel (o := o) hthere.ready hstart.ready hthere.fits hstart.fits hc rfl hk rfl
  have htail := laid_alike (o := o) hscene hthere.visit hstart.visit (cellsAlike_of_shape rfl) he
  rw [laid_append, laid, List.map_append, List.map_cons, htail]
  simp only [Cell.shape, shape_settle_topLevel hc hk hb]

end Walk

namespace Reads

variable {o : Options} {a b : String} {is js : List Item} {j last last' : Item} {n : Nat}

/-- Where all address clauses are closed, the walk is outside of them. -/
theorem clause_eq_none (h : Reads a is last) (hdepth : clauseDepth (lex a).tokens = 0) :
    ((gather is).foldl (Walk.visit o) {}).clause = none := by
  have hclauses := Walk.clauses_start.foldl_visit (o := o) h.meets
  rw [map_token_gather] at hclauses
  refine hclauses.clause_eq_none ?_
  have hkind : last.token.kind = .eof := congrArg Prod.fst h.mark
  rw [clauseDepth, h.tokens, ClauseCount.foldl_push_flatten fun i hi => (h.spaces i hi).1, List.map_append,
    List.foldl_append, List.map_singleton, List.foldl_cons, List.foldl_nil,
    ClauseCount.push_other (h.spaces last (by simp)).2 (by simp [hkind]) (by simp [hkind])] at hdepth
  exact hdepth

/-- The last token before the end mark is that of the last item. -/
theorem ends (h : Reads a is last) (hend : ∃ t ∈ (lex a).tokens.dropLast.getLast?, t.isSpace = false) :
    last.gap = [] ∧ is ≠ [] := by
  obtain ⟨t, ht, hspace⟩ := hend
  rw [h.tokens, flatten_append, flatten_cons, flatten_nil, ← List.append_assoc, List.dropLast_concat] at ht
  rcases List.eq_nil_or_concat last.gap with hgap | ⟨g, u, hgap⟩
  · refine ⟨hgap, ?_⟩
    rintro rfl
    rw [hgap] at ht
    cases ht
  · have hu := (h.spaces last (by simp)).1 u (by simp [hgap])
    rw [hgap, List.concat_eq_append, ← List.append_assoc, List.getLast?_concat] at ht
    obtain rfl := Option.some.inj ht
    rw [hspace] at hu
    cases hu

/-- The first token is that of the first item, when it starts a declaration. -/
theorem starts (h : Reads b js last) (hstart : ∃ t ∈ (lex b).tokens.head?, t.kind.isTopLevel = true) :
    ∃ j js', js = j :: js' ∧ j.gap = [] ∧ j.token.kind.isTopLevel = true := by
  obtain ⟨t, ht, hk⟩ := hstart
  have hcode := Walk.isCode_of_isTopLevel hk
  rw [h.tokens] at ht
  -- spaces start no declaration
  have hfirst : ∀ {i : Item} {is : List Item}, (∀ u ∈ i.gap, u.isSpace = true) → t ∈ (flatten (i :: is)).head? →
      i.gap = [] ∧ t = i.token := by
    intro i is hspaces hmem
    cases hgap : i.gap with
    | nil =>
      rw [flatten_cons, hgap] at hmem
      exact ⟨rfl, (Option.some.inj hmem).symm⟩
    | cons u g =>
      rw [flatten_cons, hgap] at hmem
      obtain rfl := Option.some.inj hmem
      rw [isCode_of_isSpace (hspaces u (by rw [hgap]; exact List.mem_cons_self))] at hcode
      cases hcode
  cases js with
  | nil =>
    obtain ⟨-, rfl⟩ := hfirst (h.spaces last (by simp)).1 ht
    have heof : last.token.kind = .eof := congrArg Prod.fst h.mark
    rw [heof] at hk
    cases hk
  | cons j js =>
    obtain ⟨hgap, rfl⟩ := hfirst (h.spaces j (by simp)).1 ht
    exact ⟨j, js, rfl, hgap, hk⟩

end Reads

/-! ## The text of a declaration -/

theorem spaces_lineFeeds (n : Nat) : Spaces (List.replicate n lineFeed) := by
  induction n with
  | zero => exact .nil
  | succ n ih => exact .newline rfl ih

theorem proper_lineFeeds (n : Nat) {t : Token} (ht : t.isSpace = false) :
    Item.Proper ⟨List.replicate n lineFeed, t⟩ := by
  refine ⟨spaces_lineFeeds n, ht, fun b hb hk => ?_⟩
  obtain rfl := List.eq_of_mem_replicate hb
  cases hk

namespace Reads

variable {o : Options} {a b c : String} {is js ks : List Item} {j last last' last'' : Item} {n : Nat}

/-- The shapes of two parts are those of each, with the line breaks before the declaration. -/
theorem shape_append (h : Reads a is last) (his : is ≠ []) (hdepth : clauseDepth (lex a).tokens = 0)
    (h' : Reads b (j :: js) last') (hk : j.token.kind.isTopLevel = true) (hn : 1 ≤ n) (hboth : Reads c ks last'')
    (hkeys : ks.map Item.key = (is ++ ⟨List.replicate n lineFeed, j.token⟩ :: js).map Item.key) :
    (Walk.laid o {} (gather ks)).map Cell.shape = (Walk.laid o {} (gather is)).map Cell.shape ++
      ((none, min 2 n, none), j.token.key) ::
        (Walk.laid o (Walk.visit o {} ⟨.empty, j.token⟩) (gatherFrom j.token.kind js)).map Cell.shape := by
  have hproper : ∀ i ∈ is ++ ⟨List.replicate n lineFeed, j.token⟩ :: js, i.Proper := by
    intro i hi
    rcases List.mem_append.1 hi with hi | hi
    · exact h.proper i (List.mem_append_left _ hi)
    · rcases List.mem_cons.1 hi with rfl | hi
      · exact proper_lineFeeds n (h'.proper j (by simp)).token
      · exact h'.proper i (by simp [hi])
  have hmeets := start_meets hproper
  have hlaid := Walk.laid_alike (o := o) rfl hboth.meets hmeets (cellsAlike_of_shape (map_shape_gather hkeys))
    hboth.kind_ne_eof
  obtain ⟨prev, hgather⟩ := gather_append his (⟨List.replicate n lineFeed, j.token⟩ :: js)
  have hbreaks := Gap.length_breaks (List.replicate n lineFeed) j.token prev
  rw [List.countP_replicate, if_pos (show lineFeed.isNewline = true from rfl)] at hbreaks
  rw [hgather] at hmeets hlaid
  have heof : ∀ d ∈ gatherFrom j.token.kind js, d.token.kind ≠ .eof := fun d hd =>
    h'.kind_ne_eof d (List.mem_cons_of_mem _ hd)
  have hne : (((Gap.ofSpaces (List.replicate n lineFeed)).before j.token).collapsed prev).breaks ≠ [] := by
    intro hnil
    rw [hnil, List.length_nil] at hbreaks
    omega
  rw [hlaid, gatherFrom, Walk.laid_declaration hmeets heof (h.clause_eq_none hdepth) hk hne h'.meets, hbreaks]

/-- The shapes of a declaration at the start of a source. -/
theorem shape_declaration (h : Reads b (j :: js) last) : (Walk.laid o {} (gather (j :: js))).map Cell.shape =
    ((none, 0, none), j.token.key) ::
      (Walk.laid o (Walk.visit o {} ⟨.empty, j.token⟩) (gatherFrom j.token.kind js)).map Cell.shape := by
  rw [gather, Walk.laid, Walk.settle_fresh h.meets.ready h.meets.fits rfl]
  rfl

end Reads

theorem shapeText_breaks (o : Options) (m : Nat) (t : Token) :
    shapeText o ((none, m, none), t.key) = repeated m o.newline ++ t.text := by
  simp [shapeText, repeated, Token.key]

/-- The text that a source is formatted to, with a line break at the end. -/
theorem Reads.format_text {o : Options} {s : String} {is : List Item} {last : Item} (h : Reads s is last)
    (ho : o.endWithNewline = true) (hne : is ≠ []) : ScillaLayout.format o s =
      .ok (String.join (((Walk.laid o {} (gather is)).map Cell.shape).map (shapeText o)) ++ o.newline) := by
  have hcells : gather is ≠ [] := by
    cases is with
    | nil => exact absurd rfl hne
    | cons i is => simp [gather]
  rw [h.format, Walk.renderAll_laid, Options.ending, if_pos ⟨hcells, ho⟩]
  simp [Options.newlineToken, Token.synthetic]

/-- **Declarations are formatted independently.** Let `a` end with a token that is no space, with all address clauses
closed, and let `b` start with a top-level declaration. With line breaks in between, they are formatted one by one, and
at most one blank line is left between them. -/
theorem format_append_declaration {a b : String} (ha : (lex a).fault = none) (hb : (lex b).fault = none)
    (hend : ∃ t ∈ (lex a).tokens.dropLast.getLast?, t.isSpace = false) (hdepth : clauseDepth (lex a).tokens = 0)
    (hstart : ∃ t ∈ (lex b).tokens.head?, t.kind.isTopLevel = true) {n : Nat} (hn : 1 ≤ n) {o : Options}
    (ho : o.endWithNewline = true) :
    ∃ x y, format o a = .ok x ∧ format o b = .ok y ∧
      format o (a ++ repeated n "\n" ++ b) = .ok (x ++ repeated (min n 2 - 1) o.newline ++ y) := by
  obtain ⟨is, last, hreads⟩ := exists_reads ha
  obtain ⟨js, last', hreads'⟩ := exists_reads hb
  obtain ⟨hlast, his⟩ := hreads.ends hend
  obtain ⟨j, js, rfl, hgap, hk⟩ := hreads'.starts hstart
  obtain ⟨ks, last'', hboth, hkeys⟩ := hreads.exists_append hlast hreads' hgap hn
  have hne : ks ≠ [] := by
    rintro rfl
    simp at hkeys
  refine ⟨_, _, hreads.format_text ho his, hreads'.format_text ho (List.cons_ne_nil _ _), ?_⟩
  rw [hboth.format_text ho hne, hreads.shape_append his hdepth hreads' hk hn hboth hkeys, hreads'.shape_declaration]
  -- one line break ends the first part, the others stand between the two
  have hbreaks : repeated (min 2 n) o.newline = o.newline ++ repeated (min n 2 - 1) o.newline := by
    rw [← repeated_succ, show min n 2 - 1 + 1 = min 2 n by omega]
  simp only [List.map_append, List.map_cons, String.join_append, String.join_cons, shapeText_breaks, hbreaks,
    String.append_assoc]
  simp [repeated]

/-- Blocks that are left open, in a field whose type has a clause, do not reach the next field. -/
theorem format_append_declaration_open :
    clauseDepth (lex "field f : ByStr20 with\nend = match m with\n| A => (let x").tokens = 0 ∧
    ∃ x y, format { newline := "\r\n" } "field f : ByStr20 with\nend = match m with\n| A => (let x" = .ok x ∧
      format { newline := "\r\n" } "field g\n : T" = .ok y ∧
      format { newline := "\r\n" } ("field f : ByStr20 with\nend = match m with\n| A => (let x" ++ repeated 3 "\n" ++
        "field g\n : T") = .ok (x ++ repeated (min 3 2 - 1) "\r\n" ++ y) :=
  ⟨by decide +kernel, format_append_declaration (by decide +kernel) (by decide +kernel) (by decide +kernel)
    (by decide +kernel) (by decide +kernel) (by decide) rfl⟩

end ScillaLayout
