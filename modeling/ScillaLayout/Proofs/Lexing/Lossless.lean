import ScillaLayout.Proofs.Lexing.Seam
import ScillaLayout.Token.Lexing

/-!
# Nothing is lost in reading

Reading a source token by token comes to an end, and the tokens lie end to end from the start of the source on. Either
they make up the source and the last one is an empty end mark, or one error is reported and the last token is an illegal
one; the tokens before it are then those of the text before it (`lexing_lossless`).

`Lexing.next?_nil`, `next?_ok` and `next?_error` say what a step of reading does, and `Lexing.Run` is what holds of all
steps up to the last.
-/

namespace ScillaLayout

open Lexeme (Stops)

theorem Position.after_offset (p : Position) (cs : List Char) :
    (p.after cs).offset = p.offset + (String.ofList cs).utf8ByteSize := by
  induction cs generalizing p with
  | nil => simp
  | cons c cs ih =>
    rw [after_cons, ih, step_offset, String.ofList_cons, String.utf8ByteSize_append, String.utf8ByteSize_singleton]
    omega

/-! ## Tokens end to end -/

/-- The tokens lie end to end from `p` on, each over its own text. -/
def Tiles (p : Position) : List Token → Prop
  | [] => True
  | t :: ts => t.span = some ⟨p, p.after t.text.toList⟩ ∧ Tiles (p.after t.text.toList) ts

namespace Tiles

theorem left {ts us : List Token} {p : Position} (h : Tiles p (ts ++ us)) : Tiles p ts := by
  induction ts generalizing p with
  | nil => trivial
  | cons t ts ih => exact ⟨h.1, ih h.2⟩

/-- The last token starts behind the bytes of the tokens before it. -/
theorem last {ts : List Token} {t : Token} {p : Position} (h : Tiles p (ts ++ [t])) :
    ∃ q, t.span = some ⟨q, q.after t.text.toList⟩ ∧ q.offset = p.offset + (Token.renderAll ts).utf8ByteSize := by
  induction ts generalizing p with
  | nil => exact ⟨p, h.1, by simp⟩
  | cons u ts ih =>
    obtain ⟨q, hspan, hoffset⟩ := ih h.2
    refine ⟨q, hspan, ?_⟩
    rw [hoffset, Position.after_offset, String.ofList_toList, Token.renderAll_cons, String.utf8ByteSize_append]
    omega

end Tiles

namespace Lexing

/-! ## Steps -/

/-- Reading gives the tokens `ts` one after the other and comes to `l'`. -/
inductive Yields : Lexing → List Token → Lexing → Prop
  | nil (l : Lexing) : Yields l [] l
  | cons {l l₁ l₂ : Lexing} {t : Token} {ts : List Token} (next : l.next? = some (t, l₁)) (rest : Yields l₁ ts l₂) :
    Yields l (t :: ts) l₂

/-- Reading gives the tokens `ts` one after the other and then nothing more. -/
structure Exhausts (l : Lexing) (ts : List Token) (l' : Lexing) : Prop where
  yields : Yields l ts l'
  ended : l'.next? = none

variable {l l₁ l' : Lexing}

theorem Exhausts.cons {t : Token} {ts : List Token} (next : l.next? = some (t, l₁)) (h : Exhausts l₁ ts l') :
    Exhausts l (t :: ts) l' := ⟨.cons next h.yields, h.ended⟩

/-- There is one way to read to the end. -/
theorem Exhausts.collect {ts : List Token} (h : Exhausts l ts l') : l.collect = (ts, l') := by
  obtain ⟨hyields, hended⟩ := h
  induction hyields with
  | nil l =>
    rw [Lexing.collect]
    split
    · rfl
    · next hnext => simp [hended] at hnext
  | cons next _ ih =>
    rw [Lexing.collect]
    split
    · next hnext => simp [next] at hnext
    · next hnext =>
      obtain ⟨rfl, rfl⟩ := Prod.mk.inj (Option.some.inj (next.symm.trans hnext))
      rw [ih hended]

/-- Past the text `x`, with `rest` behind it. -/
def advance (l : Lexing) (x rest : List Char) : Lexing := { l with position := l.position.after x, rest }

/-- A token over the text `x`. -/
def tokenOver (l : Lexing) (k : Kind) (x : List Char) : Token :=
  ⟨k, String.ofList x, some ⟨l.position, l.position.after x⟩⟩

theorem next?_done (h : l.done = true) : l.next? = none := by simp [next?, h]

theorem next?_nil (h : l.done = false) (hrest : l.rest = []) :
    l.next? = some (l.tokenOver .eof [], { l with done := true }) := by
  simp [next?, h, hrest, tokenOver]

theorem next?_ok {c : Char} {cs x rest : List Char} {k : Kind} (h : l.done = false) (hrest : l.rest = c :: cs)
    (hread : Lexeme.read c cs = ⟨.ok k, x, rest⟩) : l.next? = some (l.tokenOver k x, l.advance x rest) := by
  simp [next?, h, hrest, hread, tokenOver, advance]

theorem next?_error {c : Char} {cs x rest : List Char} {fault : LexFault} (h : l.done = false)
    (hrest : l.rest = c :: cs) (hread : Lexeme.read c cs = ⟨.error fault, x, rest⟩) : l.next? =
      some (l.tokenOver .illegal x,
        (l.advance x rest).stop fault (if fault.isAtStart then l.position else l.position.after x)) := by
  simp [next?, h, hrest, hread, tokenOver, advance]

/-! ## All steps -/

/-- What reading from `l` on comes to: the tokens `ts`, then `last`, then nothing more. -/
structure Run (l : Lexing) (ts : List Token) (last : Token) (l' : Lexing) : Prop where
  exhausts : Exhausts l (ts ++ [last]) l'
  tokens : (Lexed.read l.position l.rest).tokens = ts ++ [last]
  tiles : Tiles l.position (ts ++ [last])
  chain : IsChain (ts.map Token.key)
  text : chainText (ts.map Token.key) ++ (last.text.toList ++ l'.rest) = l.rest
  ending :
    (Lexed.read l.position l.rest).fault = none ∧ last.kind = .eof ∧ last.text = "" ∧ l'.rest = [] ∧
      l'.error? = l.error? ∧ l'.reported = l.reported ∨
    (Lexed.read l.position l.rest).fault ≠ none ∧ last.kind = .illegal ∧
      ∃ e, l'.error? = some e ∧ l'.reported = l.reported ++ [e]

theorem run_nil (h : l.done = false) (hrest : l.rest = []) :
    Run l [] (l.tokenOver .eof []) { l with done := true } where
  exhausts := .cons (next?_nil h hrest) ⟨.nil _, next?_done rfl⟩
  tokens := by simp [hrest, Lexed.read, tokenOver]
  tiles := ⟨rfl, trivial⟩
  chain := trivial
  text := by simp [hrest, tokenOver]
  ending := .inl ⟨by simp [hrest, Lexed.read], rfl, rfl, hrest, rfl, rfl⟩

theorem run_error {c : Char} {cs x rest : List Char} {fault : LexFault} (h : l.done = false)
    (hrest : l.rest = c :: cs) (hread : Lexeme.read c cs = ⟨.error fault, x, rest⟩) :
    ∃ l', Run l [] (l.tokenOver .illegal x) l' := by
  refine ⟨_, .cons (next?_error h hrest hread) ⟨.nil _, next?_done rfl⟩, ?_, ⟨by simp [tokenOver], trivial⟩, trivial,
    ?_, .inr ⟨?_, rfl, _, rfl, rfl⟩⟩
  · rw [hrest, Lexed.read]
    simp [hread, tokenOver]
  · have hcut := (Lexeme.read_cuts c cs).append
    rw [hread] at hcut
    simpa [tokenOver, stop, advance, hrest] using hcut
  · rw [hrest]
    exact Lexed.read_cons_error hread _

/-- A piece in front of a run. -/
theorem Run.cons {c : Char} {cs x rest : List Char} {k : Kind} {ts : List Token} {last : Token} (h : l.done = false)
    (hrest : l.rest = c :: cs) (hread : Lexeme.read c cs = ⟨.ok k, x, rest⟩)
    (hrun : Run (l.advance x rest) ts last l') : Run l (l.tokenOver k x :: ts) last l' := by
  obtain ⟨hcut, hspell, hstop⟩ := Lexeme.read_eq_ok_iff.1 hread
  have hlexed : Lexed.read l.position l.rest =
      Lexed.cons (l.tokenOver k x) (Lexed.read (l.position.after x) rest) := by
    rw [hrest]
    exact Lexed.read_cons_ok hread _
  -- what follows the piece starts with the text of the tokens of the run, so it does not extend the piece either
  have hbehind : Stops (k.extendedBy x) (chainText (ts.map Token.key)) := by
    rw [← show _ = rest from hrun.text] at hstop
    exact hstop.left
  refine ⟨.cons (next?_ok h hrest hread) hrun.exhausts, ?_, ?_, ?_, ?_, ?_⟩
  · rw [hlexed]
    exact congrArg (_ :: ·) hrun.tokens
  · exact ⟨by simp [tokenOver], by simpa [tokenOver, advance] using hrun.tiles⟩
  · exact ⟨by simpa [tokenOver] using hspell, by simpa [tokenOver] using hbehind, hrun.chain⟩
  · rw [hrest, ← hcut, ← show _ = rest from hrun.text]
    simp [Token.key, tokenOver]
  · rw [hlexed]
    exact hrun.ending

/-- Reading always comes to an end. -/
theorem exists_run (h : l.done = false) : ∃ ts last l', Run l ts last l' := by
  induction hn : l.rest.length using Nat.strongRecOn generalizing l with
  | ind n ih =>
    cases hrest : l.rest with
    | nil => exact ⟨_, _, _, run_nil h hrest⟩
    | cons c cs =>
      rcases hread : Lexeme.read c cs with ⟨verdict, x, rest⟩
      cases verdict with
      | error fault =>
        obtain ⟨l', hrun⟩ := run_error h hrest hread
        exact ⟨_, _, l', hrun⟩
      | ok k =>
        have hlt : (l.advance x rest).rest.length < n := by
          have hshort := Lexeme.read_rest_length_lt c cs
          rw [hread, ← hrest, hn] at hshort
          exact hshort
        obtain ⟨ts, last, l', hrun⟩ := ih _ hlt (l := l.advance x rest) h rfl
        exact ⟨_, last, l', hrun.cons h hrest hread⟩

/-- Tokens that form a chain and lie end to end are read from their own text. -/
theorem exhausts_of_chain {ts : List Token} (h : l.done = false) (hchain : IsChain (ts.map Token.key))
    (htiles : Tiles l.position ts) (hrest : l.rest = chainText (ts.map Token.key)) :
    ∃ mark l', Exhausts l (ts ++ [mark]) l' ∧ mark.kind = .eof ∧ l'.error? = l.error? := by
  induction ts generalizing l with
  | nil => exact ⟨_, _, .cons (next?_nil h hrest) ⟨.nil _, next?_done rfl⟩, rfl, rfl⟩
  | cons t ts ih =>
    obtain ⟨hspell, hstop, hchain⟩ := hchain
    obtain ⟨hspan, htiles⟩ := htiles
    obtain ⟨c, cs, hx, hread⟩ := Lexeme.read_of_spells hspell hstop
    have ht : l.tokenOver t.kind t.text.toList = t := by simp [tokenOver, ← hspan]
    have hnext := next?_ok h (hrest.trans (congrArg (· ++ _) hx)) hread
    rw [ht] at hnext
    obtain ⟨mark, l', hread', hmark, herror⟩ := ih (l := l.advance t.text.toList _) h hchain htiles rfl
    exact ⟨mark, l', .cons hnext hread', hmark, herror⟩

/-! ## Sources -/

/-- The source `s` was read to its end as the tokens `ts` and an empty end mark, and nothing is reported. -/
structure Complete (s : String) (ts : List Token) (last : Token) (l : Lexing) : Prop where
  error : l.error? = none
  reported : l.reported = []
  kind : last.kind = .eof
  empty : last.text = ""
  place : ∃ p, last.span = some ⟨p, p⟩ ∧ p.offset = s.utf8ByteSize
  text : Token.renderAll (ts ++ [last]) = s

/-- Reading the source `s` was stopped by an error behind the tokens `ts`. The error is reported once, what was read is
a prefix of the source, and the tokens before the illegal one are those of their own text. No chain of tokens makes up
the whole source. -/
structure Broken (s : String) (ts : List Token) (last : Token) (l : Lexing) : Prop where
  error : ∃ e, l.error? = some e ∧ l.reported = [e]
  kind : last.kind = .illegal
  text : ∃ rest, Token.renderAll (ts ++ [last]) ++ rest = s
  before : ∃ mark l', Exhausts (ofSource (Token.renderAll ts)) (ts ++ [mark]) l' ∧ mark.kind = .eof ∧ l'.error? = none
  stuck : ¬∃ xs, IsChain xs ∧ chainText xs = s.toList

variable {s : String} {ts : List Token} {last : Token}

theorem Run.source_text (h : Run (ofSource s) ts last l) :
    Token.renderAll (ts ++ [last]) ++ String.ofList l.rest = s := by
  apply String.toList_injective
  have htext : _ = s.toList := h.text
  rw [← htext]
  simp [Token.toList_renderAll]

/-- The tokens before the last one are pieces of the source. -/
theorem Run.pieces (h : Run l ts last l') : ∀ t ∈ ts, t.text ≠ "" ∧ t.kind ≠ .eof ∧ t.kind ≠ .illegal := by
  intro t ht
  have hspell := h.chain.spells _ (List.mem_map_of_mem ht)
  refine ⟨fun htext => hspell.ne_nil (by simp [Token.key, htext]), ?_, ?_⟩ <;>
  · intro hkind
    simp [Token.key, hkind, Kind.Spells] at hspell

theorem Run.complete_or_broken (h : Run (ofSource s) ts last l) : Complete s ts last l ∨ Broken s ts last l := by
  obtain ⟨-, hkind, hempty, hrest, herror, hreported⟩ | ⟨hfault, hkind, e, herror, hreported⟩ := h.ending
  · left
    obtain ⟨p, hspan, hoffset⟩ := h.tiles.last
    have htext : Token.renderAll (ts ++ [last]) = s := by simpa [hrest] using h.source_text
    refine ⟨herror, hreported, hkind, hempty, ⟨p, by simpa [hempty] using hspan, ?_⟩, htext⟩
    rw [hoffset, ← htext]
    simp [hempty, ofSource, Position.start]
  · right
    have hprefix := exhausts_of_chain (l := ofSource (Token.renderAll ts)) rfl h.chain h.tiles.left
      (Token.toList_renderAll ts)
    refine ⟨⟨e, herror, hreported⟩, hkind, ⟨_, h.source_text⟩, hprefix, ?_⟩
    rintro ⟨xs, hchain, htext⟩
    exact hfault (Lexed.read_eq_chain_iff.2 ⟨htext, hchain⟩).1

end Lexing

/-- **Reading loses nothing.** Every source is read to an end; the tokens lie end to end from its start on, and all but
the last are pieces of it. They are the tokens that `tokenize` and `lex` list. -/
theorem lexing_lossless (s : String) : ∃ (ts : List Token) (last : Token) (l : Lexing),
    (Lexing.ofSource s).Exhausts (ts ++ [last]) l ∧
    tokenize s = (ts ++ [last], l.error?) ∧ (lex s).tokens = ts ++ [last] ∧
    Tiles .start (ts ++ [last]) ∧
    (∀ t ∈ ts, t.text ≠ "" ∧ t.kind ≠ .eof ∧ t.kind ≠ .illegal) ∧
    (Lexing.Complete s ts last l ∨ Lexing.Broken s ts last l) := by
  obtain ⟨ts, last, l, hrun⟩ := Lexing.exists_run (l := Lexing.ofSource s) rfl
  refine ⟨ts, last, l, hrun.exhausts, ?_, hrun.tokens, hrun.tiles, hrun.pieces, hrun.complete_or_broken⟩
  rw [tokenize, hrun.exhausts.collect]

end ScillaLayout
