import ScillaLayout.Layout.Format
import ScillaLayout.Proofs.Layout.Shape
import ScillaLayout.Proofs.Lexing.Seam

/-!
# The text of a formatted source

The formatted text of a source is the text of its laid out cells (`Reads.format`), and that depends on the shapes of
the gaps alone (`Walk.renderAll_laid`).
-/

namespace ScillaLayout

/-! ## Texts -/

theorem toList_pushn (c : Char) (n : Nat) : ("".pushn c n).toList = List.replicate n c := by
  rw [String.pushn_eq_repeat_push]
  induction n with
  | zero => rfl
  | succ n ih => rw [Nat.repeat, String.toList_push, ih, List.replicate_succ']

/-- The text of a cell of a given shape. -/
def shapeText (o : Options) (s : (Option String × Nat × Option String) × (Kind × String)) : String :=
  s.1.1.getD "" ++ (String.join (List.replicate s.1.2.1 o.newline) ++ (s.1.2.2.getD "" ++ s.2.2))

namespace Gap

theorem renderAll_finished (o : Options) (g : Gap) (prev : Option Kind) (t : Token) :
    Token.renderAll ((g.finished o prev t.kind).tokens ++ [t]) =
      shapeText o ((g.finished o prev t.kind).shape, t.key) := by
  have hblank : ∀ b : Option Token, Token.renderAll b.toList = (b.map (·.text)).getD "" := fun b => by
    cases b with
    | none => rfl
    | some b => simp
  have hbreaks : ∀ ns : List Token, Token.renderAll (ns.map (·.withText o.newline)) =
      String.join (List.replicate ns.length o.newline) := fun ns => by
    induction ns with
    | nil => rfl
    | cons n ns ih => simp [List.replicate_succ, String.join_cons, ih]
  simp only [Gap.tokens, Token.renderAll_append, hblank, finished_breaks, hbreaks, shapeText, shape, List.length_map]
  simp [Token.key, String.append_assoc]

end Gap

namespace Walk

variable {o : Options} {w w' : Walk}

/-- The text that the layout leaves depends on the shapes of its cells. -/
theorem renderAll_laid (o : Options) (w : Walk) (cs : List Cell) :
    Token.renderAll (cellTokens (w.laid o cs)) = String.join (((w.laid o cs).map Cell.shape).map (shapeText o)) := by
  induction cs generalizing w with
  | nil => rfl
  | cons c cs ih =>
    have hcell := Gap.renderAll_finished o (w.gapOut o c.gap c.token) w.out.lastKind c.token
    rw [laid, cellTokens_cons, ← List.singleton_append, ← List.append_assoc, Token.renderAll_append, ih, settle, hcell]
    simp [Cell.shape, String.join_cons]

end Walk

/-! ## Sources -/

theorem map_token_gather (is : List Item) : (gather is).map (·.token) = is.map (·.token) := by
  have hfrom : ∀ (is : List Item) (prev : Kind), (gatherFrom prev is).map (·.token) = is.map (·.token) := by
    intro is
    induction is with
    | nil => exact fun _ => rfl
    | cons i is ih => exact fun prev => by simp [gatherFrom, ih]
  cases is with
  | nil => rfl
  | cons i is => simp [gather, hfrom]

namespace Reads

variable {s : String} {is : List Item} {last : Item}

theorem meets (h : Reads s is last) : Walk.Meets {} (gather is) :=
  start_meets fun i hi => h.proper i (List.mem_append_left _ hi)

theorem spells (h : Reads s is last) : ∀ t ∈ flatten is ++ last.gap, t.kind.Spells t.text.toList :=
  fun t ht => h.chain.spells t.key (List.mem_map_of_mem ht)

/-- No token but the end mark is one. -/
theorem token_ne_eof (h : Reads s is last) : ∀ i ∈ is, i.token.kind ≠ .eof := by
  intro i hi hk
  have hspell := h.spells i.token (List.mem_append_left _ (token_mem_flatten hi))
  simp [hk, Kind.Spells] at hspell

theorem kind_ne_eof (h : Reads s is last) : ∀ c ∈ gather is, c.token.kind ≠ .eof := by
  intro c hc
  have htoken : c.token ∈ is.map (·.token) := map_token_gather is ▸ List.mem_map_of_mem hc
  obtain ⟨i, hi, hit⟩ := List.mem_map.1 htoken
  exact hit ▸ h.token_ne_eof i hi

theorem spaces (h : Reads s is last) :
    ∀ i ∈ is ++ [last], (∀ t ∈ i.gap, t.isSpace = true) ∧ i.token.isSpace = false :=
  fun i hi => ⟨(h.proper i hi).spaces.isSpace, (h.proper i hi).token⟩

theorem items (h : Reads s is last) : items (lex s).tokens = is ++ [last] := by
  rw [h.tokens, items_flatten h.spaces]

/-- **The formatted text** of a source is that of its laid out cells. -/
theorem format (h : Reads s is last) (o : Options) : format o s =
    .ok (Token.renderAll (cellTokens (Walk.laid o {} (gather is))) ++ Token.renderAll (o.ending (gather is))) := by
  have hkind : last.token.kind = .eof := congrArg Prod.fst h.mark
  have htext : last.token.text = "" := congrArg Prod.snd h.mark
  have herror : (lex s).error? s = none := by rw [Lexed.error?, h.fault]; rfl
  rw [ScillaLayout.format, herror, h.tokens, layout_flatten o h.proper hkind]
  simp [htext]

/-- The formatted text depends on the shapes of the laid out cells. -/
theorem format_congr {o : Options} {t : String} {js : List Item} {last' : Item} (h : Reads s is last)
    (h' : Reads t js last')
    (hs : (Walk.laid o {} (gather is)).map Cell.shape = (Walk.laid o {} (gather js)).map Cell.shape) :
    ScillaLayout.format o s = ScillaLayout.format o t := by
  have hnil : gather is = [] ↔ gather js = [] := by
    have hempty : ∀ ks : List Item, (Walk.laid o {} (gather ks)).map Cell.shape = [] ↔ gather ks = [] := by simp
    rw [← hempty is, ← hempty js, hs]
  rw [h.format, h'.format, Walk.renderAll_laid, Walk.renderAll_laid, hs, Options.ending, Options.ending]
  simp only [ne_eq, hnil]

end Reads

/-- What a source is formatted to is decided by formatting it. -/
instance decidableFormat (o : Options) (s f : String) : Decidable (format o s = .ok f) :=
  match format o s with
  | .ok x => decidable_of_iff (x = f) ⟨congrArg Except.ok, Except.ok.inj⟩
  | .error _ => .isFalse nofun

theorem fault_of_format {o : Options} {s f : String} (h : format o s = .ok f) : (lex s).fault = none := by
  cases hf : (lex s).fault with
  | none => rfl
  | some fault =>
    rw [format, Lexed.error?, hf] at h
    cases h

theorem isSome_fault_of_format {o : Options} {s : String} {e : LexError} (h : format o s = .error e) :
    (lex s).fault.isSome := by
  cases hf : (lex s).fault with
  | none =>
    rw [format, Lexed.error?, hf] at h
    cases h
  | some fault => rfl

end ScillaLayout
