import Mathlib.Data.List.Induction
import ScillaLayout.Proofs.Lexing.Classes

/-!
# Places of tokens

Every token starts and ends at a place of the source that is counted right: its offset falls between two characters, its
line is found by counting line breaks and its column by counting characters from the last one. The excerpt at such a
place shows the line around it with a caret under it. The same holds of the place of an error (`places_marked`).

Reading counts as it goes, with one look at the next character for a carriage return that stands before a line feed.
That comes to the same (`Position.marks_after`) because no token ends between these two (`Lexeme.read_whole`).
-/

namespace ScillaLayout

open Text (isLineBreak)

/-! ## Lines of a text -/

/-- Number of line breaks. A carriage return and the line feed behind it are one. -/
def breaksIn : List Char → Nat
  | [] => 0
  | '\r' :: '\n' :: cs => breaksIn cs + 1
  | c :: cs => if isLineBreak c then breaksIn cs + 1 else breaksIn cs

/-- The cut between two texts falls between a carriage return and its line feed. -/
def SplitsBreak (before behind : List Char) : Prop := before.getLast? = some '\r' ∧ behind.head? = some '\n'

/-- The text `source` is cut behind `front ++ left`, and `left ++ right` is the longest stretch without line breaks
around the cut. -/
structure LineCut (source front left right back : List Char) : Prop where
  text : front ++ left ++ (right ++ back) = source
  whole : ¬SplitsBreak (front ++ left) (right ++ back)
  line : ∀ c ∈ left ++ right, isLineBreak c = false
  starts : ∀ c ∈ front.getLast?, isLineBreak c = true
  ends : ∀ c ∈ back.head?, isLineBreak c = true

/-- The place is counted right, and its excerpt shows the line and the column. -/
def Position.Marks (source : List Char) (p : Position) : Prop :=
  ∃ front left right back, LineCut source front left right back ∧
    p.offset = (String.ofList (front ++ left)).utf8ByteSize ∧
    p.line = 1 + breaksIn (front ++ left) ∧
    p.column = 1 + left.length ∧
    excerpt? source p = some (String.ofList (left ++ right ++ '\n' :: List.replicate left.length ' ' ++ ['^']))

/-- Every cut is a cut of a line. -/
theorem exists_lineCut {before behind : List Char} (h : ¬SplitsBreak before behind) : ∃ front left right back,
    before = front ++ left ∧ LineCut (before ++ behind) front left right back ∧
      lineAround before behind = left ++ right := by
  have hbefore : (before.reverse.dropWhile (!isLineBreak ·)).reverse ++
      (before.reverse.takeWhile (!isLineBreak ·)).reverse = before := by
    rw [← List.reverse_append, List.takeWhile_append_dropWhile, List.reverse_reverse]
  have hbehind := List.takeWhile_append_dropWhile (p := (!isLineBreak ·)) (l := behind)
  refine ⟨_, _, _, _, hbefore.symm, ⟨by rw [hbefore, hbehind], by rwa [hbefore, hbehind], ?_, ?_, ?_⟩, rfl⟩
  · intro c hc
    rw [List.mem_append, List.mem_reverse] at hc
    have hline : (!isLineBreak c) = true := hc.elim (Lexeme.takeWhile_all _ _ c) (Lexeme.takeWhile_all _ _ c)
    simpa using hline
  · intro c hc
    rw [List.getLast?_reverse] at hc
    have hstop := List.head?_dropWhile_not (!isLineBreak ·) before.reverse
    rw [hc] at hstop
    simpa using hstop
  · intro c hc
    have hstop := List.head?_dropWhile_not (!isLineBreak ·) behind
    rw [hc] at hstop
    simpa using hstop

/-! ## Counting places -/

namespace Position

/-- A step over a line break. -/
theorem step_break (p : Position) {c : Char} {next : Option Char} (h : c = '\n' ∨ c = '\r' ∧ next ≠ some '\n') :
    (p.step c next).line = p.line + 1 ∧ (p.step c next).column = 1 := by
  rw [step, if_pos h]
  exact ⟨rfl, rfl⟩

/-- A step inside of a line, or over a carriage return whose line feed is still to come. -/
theorem step_inner (p : Position) {c : Char} {next : Option Char} (h : ¬(c = '\n' ∨ c = '\r' ∧ next ≠ some '\n')) :
    (p.step c next).line = p.line ∧ (p.step c next).column = p.column + 1 := by
  rw [step, if_neg h]
  exact ⟨rfl, rfl⟩

/-- **Lines are counted right.** -/
theorem after_line (p : Position) (cs : List Char) : (p.after cs).line = p.line + breaksIn cs := by
  fun_induction breaksIn cs generalizing p with
  | case1 => rfl
  | case2 cs ih =>
    rw [after_cons, after_cons, ih, (step_break _ (.inl rfl)).1, List.head?_cons, (step_inner p (by simp)).1]
    omega
  | case3 c cs hpair hbreak ih =>
    have hstep : c = '\n' ∨ c = '\r' ∧ cs.head? ≠ some '\n' := by
      simp only [isLineBreak, Bool.or_eq_true, beq_iff_eq] at hbreak
      refine hbreak.imp_right fun hc => ⟨hc, fun hnext => ?_⟩
      obtain ⟨cs', rfl⟩ := List.head?_eq_some_iff.1 hnext
      exact hpair cs' hc rfl
    rw [after_cons, ih, (step_break p hstep).1]
    omega
  | case4 c cs hpair hbreak ih =>
    have hstep : ¬(c = '\n' ∨ c = '\r' ∧ cs.head? ≠ some '\n') := by
      simp only [isLineBreak, Bool.or_eq_true, beq_iff_eq] at hbreak
      rintro (hc | ⟨hc, -⟩)
      · exact hbreak (.inl hc)
      · exact hbreak (.inr hc)
    rw [after_cons, ih, (step_inner p hstep).1]

/-- Counting goes on behind a cut that splits no line break. -/
theorem after_append (p : Position) {xs ys : List Char} (h : ¬SplitsBreak xs ys) :
    p.after (xs ++ ys) = (p.after xs).after ys := by
  induction xs generalizing p with
  | nil => rfl
  | cons c xs ih =>
    cases xs with
    | nil =>
      have hstep : p.step c ys.head? = p.step c none := by
        have hsame : (c = '\r' ∧ ys.head? ≠ some '\n') ↔ (c = '\r' ∧ none ≠ some '\n') := by
          simp only [SplitsBreak, List.getLast?_singleton, Option.some.injEq, not_and] at h
          simp only [ne_eq, reduceCtorEq, not_false_eq_true, and_true, and_iff_left_iff_imp]
          exact h
        simp only [step, hsame]
      rw [List.cons_append, List.nil_append, after_cons, hstep]
      rfl
    | cons d xs =>
      have hrest : ¬SplitsBreak (d :: xs) ys := by
        rwa [SplitsBreak, List.getLast?_cons_cons] at h
      rw [List.cons_append, after_cons, after_cons, ih _ hrest]
      rfl

theorem after_column_unbroken (p : Position) {cs : List Char} (h : ∀ c ∈ cs, isLineBreak c = false) :
    (p.after cs).column = p.column + cs.length := by
  induction cs generalizing p with
  | nil => rfl
  | cons c cs ih =>
    have hc := h c List.mem_cons_self
    simp only [isLineBreak, Bool.or_eq_false_iff, beq_eq_false_iff_ne] at hc
    rw [after_cons, ih _ fun d hd => h d (List.mem_cons_of_mem _ hd), (step_inner p (by simp [hc])).2, List.length_cons]
    omega

theorem after_column_break (p : Position) (cs : List Char) {c : Char} (h : isLineBreak c = true) :
    (p.after (cs ++ [c])).column = 1 := by
  induction cs generalizing p with
  | nil =>
    simp only [isLineBreak, Bool.or_eq_true, beq_iff_eq] at h
    exact (step_break p (by simpa using h)).2
  | cons d cs ih => exact ih _

/-- **Columns are counted right.** -/
theorem after_column {front left : List Char} (hstarts : ∀ c ∈ front.getLast?, isLineBreak c = true)
    (hleft : ∀ c ∈ left, isLineBreak c = false) : (start.after (front ++ left)).column = 1 + left.length := by
  have hwhole : ¬SplitsBreak front left := by
    rintro ⟨-, hhead⟩
    have hbreak := hleft '\n' (List.mem_of_head? hhead)
    cases hbreak
  have hfront : (start.after front).column = 1 := by
    cases front using List.reverseRecOn with
    | nil => rfl
    | append_singleton front c => exact after_column_break _ _ (hstarts c (by simp))
  rw [after_append _ hwhole, after_column_unbroken _ hleft, hfront]

end Position

/-! ## Excerpts -/

/-- A text is cut behind the bytes of its first part. -/
theorem splitBytes_append (before behind : List Char) :
    splitBytes (before ++ behind) (String.ofList before).utf8ByteSize = some (before, behind) := by
  induction before with
  | nil => simp [splitBytes]
  | cons c before ih =>
    have hpos := c.utf8Size_pos
    rw [String.ofList_cons, String.utf8ByteSize_append, String.utf8ByteSize_singleton, List.cons_append]
    obtain ⟨n, hn⟩ := Nat.exists_eq_add_one.2 (Nat.add_pos_left hpos (String.ofList before).utf8ByteSize)
    rw [hn, splitBytes, if_neg (by omega), ← hn, Nat.add_sub_cancel_left, ih]
    rfl

/-- **Where reading has come to, its place is counted right**, if it has not stopped in a line break. -/
theorem Position.marks_after {before behind : List Char} (h : ¬SplitsBreak before behind) :
    (Position.start.after before).Marks (before ++ behind) := by
  obtain ⟨front, left, right, back, rfl, hcut, haround⟩ := exists_lineCut h
  have hleft : ∀ c ∈ left, isLineBreak c = false := fun c hc => hcut.line c (List.mem_append_left _ hc)
  have hoffset : (Position.start.after (front ++ left)).offset = (String.ofList (front ++ left)).utf8ByteSize := by
    rw [after_offset, Position.start, Nat.zero_add]
  have hcolumn := after_column hcut.starts hleft
  refine ⟨front, left, right, back, hcut, hoffset, after_line _ _, hcolumn, ?_⟩
  rw [excerpt?, hoffset, splitBytes_append, Option.map_some]
  simp only [haround, hcolumn, Nat.add_sub_cancel_left]

/-! ## Where pieces end -/

namespace Lexeme

/-- A piece does not end between a carriage return and its line feed. -/
def Whole (l : Lexeme) : Prop := ¬SplitsBreak l.text l.rest

theorem whole_of_last {l : Lexeme} (front : List Char) {c : Char} (h : l.text = front ++ [c]) (hc : c ≠ '\r') :
    l.Whole := by
  rintro ⟨hreturn, -⟩
  rw [h, List.getLast?_concat] at hreturn
  exact hc (Option.some.inj hreturn)

theorem whole_single {verdict : Except LexFault Kind} {c : Char} {rest : List Char} (hc : c ≠ '\r') :
    Whole ⟨verdict, [c], rest⟩ := whole_of_last [] rfl hc

theorem whole_pair {verdict : Except LexFault Kind} {c d : Char} {rest : List Char} (hd : d ≠ '\r') :
    Whole ⟨verdict, [c, d], rest⟩ := whole_of_last [c] rfl hd

theorem whole_of_rest {l : Lexeme} (h : l.rest = []) : l.Whole := by
  rintro ⟨-, hhead⟩
  simp [h] at hhead

/-- A run of characters among which there is no carriage return. -/
theorem run_whole (kind : Kind) {opening : List Char} {inside : Char → Bool} (hopening : '\r' ∉ opening)
    (hinside : inside '\r' = false) (cs : List Char) : (run kind opening inside cs).Whole := by
  rintro ⟨hlast, -⟩
  rcases List.mem_append.1 (List.mem_of_getLast? hlast) with hmem | hmem
  · exact hopening hmem
  · rw [takeWhile_all inside cs _ hmem] at hinside
    cases hinside

theorem comment_whole (cs : List Char) : (comment cs).Whole := by
  unfold comment
  split
  · next text rest h =>
    obtain ⟨⟨front, rfl⟩, -⟩ := closesAtEnd_of_closeComment? h
    exact whole_of_last ('(' :: '*' :: (front ++ ['*'])) (c := ')') (by simp) (by decide)
  · exact whole_of_rest rfl

theorem stringLiteral_whole (cs : List Char) : (stringLiteral cs).Whole := by
  unfold stringLiteral
  split
  · next text rest h =>
    obtain ⟨body, rfl, -⟩ := plainQuotes_of_closeString? h
    exact whole_of_last ('\x22' :: body) rfl (by decide)
  · exact whole_of_rest rfl

theorem isWordChar_return : Vocabulary.isWordChar '\r' = false :=
  Vocabulary.isWordChar_eq_false_of_isWhiteSpace (by decide)

theorem other_whole {c : Char} (hc : c ≠ '\r') (cs : List Char) : (other c cs).Whole := by
  unfold other
  split
  · exact run_whole _ (by simp) (by decide) _
  split
  · exact run_whole _ (by simp) (by decide) _
  split
  · exact run_whole .id (by simp) isWordChar_return (c :: cs)
  split <;> exact whole_single hc

/-- **No piece ends between a carriage return and its line feed.** -/
theorem read_whole (c : Char) (cs : List Char) : (read c cs).Whole := by
  unfold read
  split
  · exact comment_whole _
  · exact whole_pair (by decide)
  · exact whole_pair (by decide)
  · exact whole_pair (by decide)
  · unfold minus
    split
    · exact run_whole _ (by decide) (by decide) _
    · exact whole_single (by decide)
  · exact whole_pair (by decide)
  · exact whole_single (by decide)
  · exact stringLiteral_whole _
  · exact whole_single (by decide)
  · exact whole_pair (by decide)
  · next hlone =>
    -- a lone carriage return has no line feed behind it
    rintro ⟨-, hhead⟩
    obtain ⟨cs', rfl⟩ := List.head?_eq_some_iff.1 hhead
    exact hlone cs' rfl
  · unfold hexLiteral
    split
    · exact run_whole _ (by decide) (by decide) _
    · exact whole_pair (by decide)
  · unfold special
    split
    · exact run_whole _ (by decide) isWordChar_return _
    · exact whole_single (by decide)
  · unfold typeParameter
    split
    · exact run_whole .tid (by decide) isWordChar_return _
    · exact whole_single (by decide)
  · exact other_whole (by assumption) _

end Lexeme

/-! ## From place to place -/

/-- The token starts and ends at places of the source. -/
def Token.Placed (source : List Char) (t : Token) : Prop :=
  ∃ span, t.span = some span ∧ span.first.Marks source ∧ span.last.Marks source

/-- The error is at a place of the source and shows the excerpt there. -/
def LexError.Placed (source : List Char) (e : LexError) : Prop :=
  e.position.Marks source ∧ excerpt? source e.position = some e.excerpt

theorem LexError.placed_atPlace {source : List Char} {p : Position} (h : p.Marks source) (message : String) :
    (LexError.atPlace source p message).Placed source := by
  refine ⟨h, ?_⟩
  obtain ⟨_, _, _, _, -, -, -, -, hexcerpt⟩ := h
  simp [atPlace, hexcerpt]

namespace Lexing

variable {l l' : Lexing} {before : List Char}

/-- Reading has come behind the part `before` of the source. -/
structure Behind (l : Lexing) (before : List Char) : Prop where
  source : before ++ l.rest = l.source
  position : l.position = Position.start.after before
  whole : ¬SplitsBreak before l.rest

theorem behind_start (s : String) : (ofSource s).Behind [] := ⟨rfl, rfl, by simp [SplitsBreak]⟩

theorem Behind.marks (h : l.Behind before) : l.position.Marks l.source := by
  rw [h.position, ← h.source]
  exact Position.marks_after h.whole

/-- Past a piece. -/
theorem Behind.advance {x rest : List Char} (h : l.Behind before) (hrest : x ++ rest = l.rest) (hx : x ≠ [])
    (hwhole : ¬SplitsBreak x rest) : (l.advance x rest).Behind (before ++ x) := by
  have hseam : ¬SplitsBreak before x := by
    rintro ⟨hlast, hhead⟩
    refine h.whole ⟨hlast, ?_⟩
    rw [← hrest, List.head?_append, hhead, Option.some_or]
  refine ⟨?_, ?_, ?_⟩
  · show before ++ x ++ rest = l.source
    rw [List.append_assoc, hrest, h.source]
  · rw [Position.after_append _ hseam, ← h.position]
    rfl
  · rintro ⟨hlast, hhead⟩
    rw [List.getLast?_append, List.getLast?_eq_some_getLast hx, Option.some_or,
      ← List.getLast?_eq_some_getLast hx] at hlast
    exact hwhole ⟨hlast, hhead⟩

/-- Reading is at a place of the source, and so is the error if it has met one. -/
structure InPlace (l : Lexing) : Prop where
  here : ∃ before, l.Behind before
  error : ∀ e ∈ l.error?, e.Placed l.source

/-- **One token** goes from a place of the source to another. -/
theorem InPlace.next {t : Token} (h : l.InPlace) (hnext : l.next? = some (t, l')) :
    l'.source = l.source ∧ l'.InPlace ∧ t.Placed l.source := by
  obtain ⟨before, hbehind⟩ := h.here
  cases hdone : l.done with
  | true =>
    rw [next?_done hdone] at hnext
    cases hnext
  | false =>
    cases hrest : l.rest with
    | nil =>
      obtain ⟨rfl, rfl⟩ := Prod.mk.inj (Option.some.inj ((next?_nil hdone hrest).symm.trans hnext))
      exact ⟨rfl, ⟨⟨before, hbehind.source, hbehind.position, hbehind.whole⟩, h.error⟩, _, rfl, hbehind.marks,
        hbehind.marks⟩
    | cons c cs =>
      rcases hread : Lexeme.read c cs with ⟨verdict, x, rest⟩
      obtain ⟨hcut, hne⟩ := Lexeme.read_cuts c cs
      have hwhole := Lexeme.read_whole c cs
      rw [hread] at hcut hne hwhole
      have hahead := hbehind.advance (hcut.trans hrest.symm) hne hwhole
      cases verdict with
      | ok k =>
        obtain ⟨rfl, rfl⟩ := Prod.mk.inj (Option.some.inj ((next?_ok hdone hrest hread).symm.trans hnext))
        exact ⟨rfl, ⟨⟨_, hahead⟩, h.error⟩, _, rfl, hbehind.marks, hahead.marks⟩
      | error fault =>
        obtain ⟨rfl, rfl⟩ := Prod.mk.inj (Option.some.inj ((next?_error hdone hrest hread).symm.trans hnext))
        refine ⟨rfl, ⟨⟨_, hahead.source, hahead.position, hahead.whole⟩, ?_⟩, _, rfl, hbehind.marks, hahead.marks⟩
        rintro e he
        obtain rfl := Option.some.inj he
        refine LexError.placed_atPlace ?_ _
        split
        · exact hbehind.marks
        · exact hahead.marks

/-- **All tokens** that are read are at places of the source. -/
theorem InPlace.yields {ts : List Token} (hread : Yields l ts l') (h : l.InPlace) :
    l'.source = l.source ∧ l'.InPlace ∧ ∀ t ∈ ts, t.Placed l.source := by
  induction hread with
  | nil l => exact ⟨rfl, h, by simp⟩
  | cons next rest ih =>
    obtain ⟨hsource, hplace, htoken⟩ := h.next next
    obtain ⟨hsource', hplace', htokens⟩ := ih hplace
    rw [hsource] at hsource' htokens
    refine ⟨hsource', hplace', fun t ht => ?_⟩
    rcases List.mem_cons.1 ht with rfl | ht
    · exact htoken
    · exact htokens t ht

end Lexing

/-- **Places are counted right.** Every token of a source starts and ends at a place that is marked by its offset, line
and column, and whose excerpt shows the line and the column. So is the place of the error that stops reading. -/
theorem places_marked (s : String) :
    (∀ t ∈ (tokenize s).1, t.Placed s.toList) ∧ ∀ e, (tokenize s).2 = some e → e.Placed s.toList := by
  obtain ⟨ts, last, l, hrun⟩ := Lexing.exists_run (l := Lexing.ofSource s) rfl
  have hstart : (Lexing.ofSource s).InPlace := ⟨⟨[], Lexing.behind_start s⟩, by simp [Lexing.ofSource]⟩
  obtain ⟨hsource, hplace, htokens⟩ := Lexing.InPlace.yields hrun.exhausts.yields hstart
  rw [tokenize, hrun.exhausts.collect]
  refine ⟨htokens, fun e he => ?_⟩
  have herror := hplace.error e he
  rwa [hsource] at herror

/-- A comment over two lines and a string literal that is not closed, with two kinds of line breaks and letters of two
bytes. -/
def openLiteral : String := "(*é\r\né*) \"\ré"

/-- The error is at the end, behind the one letter of the third line. -/
theorem places_marked_open_literal : ∃ e, (tokenize openLiteral).2 = some e ∧ e.position = ⟨15, 3, 2⟩ ∧
    e.excerpt = "é\n ^" ∧ e.Placed openLiteral.toList := by
  obtain ⟨e, herror, hposition, hexcerpt⟩ : ∃ e ∈ (tokenize openLiteral).2, e.position = ⟨15, 3, 2⟩ ∧
      e.excerpt = "é\n ^" := by
    decide +kernel
  exact ⟨e, herror, hposition, hexcerpt, (places_marked openLiteral).2 e herror⟩

end ScillaLayout
