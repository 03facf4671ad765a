import ScillaLayout.Proofs.Layout.Alignment

/-!
# Bindings that follow each other

In `let x = a in let y = b in c` every binding is the body of the one before, and yet all of them stand on one level,
with the last body one unit deeper (`lets_align`). The first `let` may close everything that is open; the ones behind an
`in` never do, they find the block of the first one on top and share it. In between nothing is left open
(`Walk.Amid.foldl`), and no line ends in a way that closes a block (`Walk.AfterIn.foldl`).

The body starts a line unless it has one to itself already. Only a comment before it on its own line keeps it where it
is (`body_stays_behind_comment`).
-/

namespace ScillaLayout

/-! ## Brackets -/

namespace Kind

/-- The block that an opening bracket opens. -/
def opensBracket? : Kind → Option Block
  | .lparen => some .paren
  | .lbrace => some .brace
  | .lsqb => some .bracket
  | _ => none

/-- The block that a closing bracket closes. -/
def closesBracket? : Kind → Option Block
  | .rparen => some .paren
  | .rbrace => some .brace
  | .rsqb => some .bracket
  | _ => none

/-- Tokens that have no place between a `let` and its `in` here. -/
def endsBinding (k : Kind) : Bool :=
  k.isTopLevel || [.kwIn, .kwWith, .kwMatch, .kwFun, .kwTfun, .kwLet, .bar, .kwEnd].contains k

/-- Tokens that stand further left than the blocks before them say. -/
def movesOwnLine (k : Kind) : Bool :=
  k.isTopLevel || [.kwLet, .kwIn, .kwEnd, .bar, .rparen, .rbrace, .rsqb].contains k

end Kind

/-- Whether every bracket is closed in its turn, when those of `inner` are open. -/
def bracketsNested : List Block → List Token → Bool
  | inner, [] => inner.isEmpty
  | inner, t :: ts =>
    match t.kind.opensBracket?, t.kind.closesBracket?, inner with
    | some b, _, _ => bracketsNested (b :: inner) ts
    | none, none, _ => bracketsNested inner ts
    | none, some b, c :: outer => b == c && bracketsNested outer ts
    | none, some _, [] => false

namespace Walk

variable {o : Options} {w : Walk} {s : Stack} {t : Token} {k : Kind}

/-- What is no code is seen through `Sight.push`. -/
theorem sight_step (hc : w.clause = none) (ht : t.isCode = false) :
    (w.step o t).out.sight = w.out.sight.push t := by
  rw [step, ht]
  split
  · simp only [newline, hc]
    rw [← Before.sight_cons, ← (endLine_frame w).1]
    rfl
  · rw [if_neg (by simp), trivia]
    split
    · next hblank =>
      rw [Bool.and_eq_true] at hblank
      rw [Sight.push_blank hblank.2]
    · exact Before.sight_cons t w.out

/-! ## Between `let` and `in` -/

/-- In the middle of a line, with the blocks `s` open and no `in` just before. -/
structure Amid (w : Walk) (s : Stack) : Prop where
  outside : w.clause = none
  blocks : w.stack = s
  onLine : w.out.sight.lineLast ≠ none
  notIn : w.out.sight.lineCode ≠ some .kwIn

namespace Amid

/-- There, no line break is put in. -/
theorem entered (h : w.Amid s) (hk : k.startsLine = false) : w.entered o k = w.enter o k := by
  have hbreak : (!w.out.isLineStart && w.breaksBefore k) = false := by
    rw [breaksBefore, hk, Before.followsIn_eq]
    cases hcode : w.out.sight.lineCode with
    | none => simp
    | some last =>
      have hlast : last ≠ .kwIn := fun hin => h.notIn (by rw [hcode, hin])
      simp [hlast]
  rw [Walk.entered, breakLine, hbreak]
  rfl

/-- Behind a code token. -/
theorem of_code (hc : w.clause = none) (ht : t.isCode = true) (hin : t.kind ≠ .kwIn)
    (hclause : (w.entered o t.kind).2.opensClause = false) :
    (w.step o t).Amid ((w.entered o t.kind).2.opens.toList ++ (w.entered o t.kind).1.stack) := by
  obtain ⟨hout, hstack, hclause', -⟩ := code_frame o w t
  have hsight : (w.code o t).out.sight = ⟨t.isAddressType, some t.kind, some t.kind, some t.kind⟩ := by
    rw [hout, Before.sight_cons, Sight.push_code ht]
  rw [step_code hc ht]
  refine ⟨?_, hstack, by simp [hsight], by simpa [hsight] using hin⟩
  rw [hclause', hclause]
  exact hc

/-- Blanks and comments change nothing. -/
theorem trivia (h : w.Amid s) (hn : t.isNewline = false) (ht : t.isCode = false) : (w.step o t).Amid s := by
  have hsight := sight_step (o := o) h.outside ht
  have hline : (w.step o t).out.sight.lineLast ≠ none ∧ (w.step o t).out.sight.lineCode = w.out.sight.lineCode := by
    rw [hsight, Sight.push, hn, ht]
    split
    · exact ⟨h.onLine, rfl⟩
    · exact ⟨by simp, rfl⟩
  exact ⟨(step_frame ht).1.trans h.outside, (step_trivia hn ht).trans h.blocks, hline.1, hline.2 ▸ h.notIn⟩

end Amid

theorem startsLine_of_not_endsBinding (hk : k.endsBinding = false) : k.startsLine = false := by
  cases k <;> first | rfl | cases hk

/-- What the code tokens of a binding do to the blocks. -/
theorem enter_of_not_endsBinding (w : Walk) (hk : k.endsBinding = false) :
    (w.enter o k).2.opensClause = false ∧
    (w.enter o k).2.opens.toList ++ (w.enter o k).1.stack =
      match k.opensBracket?, k.closesBracket? with
      | some b, _ => b :: w.stack
      | none, some b => w.stack.closeBracket b
      | none, none => w.stack := by
  cases k with
  | rparen | rbrace | rsqb =>
    simp only [enter, enterCloser]
    split <;> exact ⟨rfl, rfl⟩
  | kwImport | kwLibrary | kwScillaVersion | kwContract | kwTransition | kwProcedure | kwType | kwField => cases hk
  | kwIn | kwWith | kwMatch | kwFun | kwTfun | kwLet | bar | kwEnd => cases hk
  | _ => exact ⟨rfl, rfl⟩

namespace Amid

variable {inner : List Block} {ts : List Token}

/-- **One token of a binding**: the brackets that are open are those on top of the blocks. -/
theorem step (h : w.Amid (inner ++ s)) (hn : t.isNewline = false) (hk : t.kind.endsBinding = false)
    (hnested : bracketsNested inner (t :: ts) = true) :
    ∃ inner', (w.step o t).Amid (inner' ++ s) ∧ bracketsNested inner' ts = true := by
  cases ht : t.isCode with
  | false =>
    have hbracket : t.kind.opensBracket? = none ∧ t.kind.closesBracket? = none := by
      rw [Token.isCode] at ht
      generalize t.kind = k at ht
      cases k <;> first | exact ⟨rfl, rfl⟩ | cases ht
    simp only [bracketsNested, hbracket.1, hbracket.2] at hnested
    exact ⟨inner, h.trivia hn ht, hnested⟩
  | true =>
    have hin : t.kind ≠ .kwIn := by
      intro hin
      rw [hin] at hk
      cases hk
    obtain ⟨hclause, hstack⟩ := enter_of_not_endsBinding (o := o) w hk
    rw [← h.entered (startsLine_of_not_endsBinding hk)] at hclause hstack
    have hstep := of_code h.outside ht hin hclause
    rw [hstack, h.blocks] at hstep
    cases hopen : t.kind.opensBracket? with
    | some b =>
      simp only [hopen, bracketsNested] at hstep hnested
      exact ⟨b :: inner, hstep, hnested⟩
    | none =>
      cases hclose : t.kind.closesBracket? with
      | none =>
        simp only [hopen, hclose, bracketsNested] at hstep hnested
        exact ⟨inner, hstep, hnested⟩
      | some b =>
        cases inner with
        | nil => simp [hopen, hclose, bracketsNested] at hnested
        | cons c outer =>
          simp only [hopen, hclose, bracketsNested, Bool.and_eq_true, beq_iff_eq] at hstep hnested
          obtain ⟨rfl, hnested⟩ := hnested
          have htop : Stack.closeBracket b (b :: outer ++ s) = outer ++ s := by simp [Stack.closeBracket, Stack.top?]
          exact ⟨outer, htop ▸ hstep, hnested⟩

/-- **All tokens of a binding** leave the blocks as they were. -/
theorem foldl (h : w.Amid (inner ++ s)) (hn : ∀ t ∈ ts, t.isNewline = false)
    (hk : ∀ t ∈ ts, t.kind.endsBinding = false) (hnested : bracketsNested inner ts = true) :
    (ts.foldl (Walk.step o) w).Amid s := by
  induction ts generalizing w inner with
  | nil =>
    obtain rfl : inner = [] := by simpa [bracketsNested] using hnested
    exact h
  | cons t ts ih =>
    obtain ⟨inner', hstep, hrest⟩ := h.step (o := o) (hn t List.mem_cons_self) (hk t List.mem_cons_self) hnested
    exact ih hstep (fun u hu => hn u (List.mem_cons_of_mem _ hu)) (fun u hu => hk u (List.mem_cons_of_mem _ hu)) hrest

end Amid

/-! ## Behind `in` -/

/-- Behind an `in`, with the blocks `s` open and nothing but spaces and comments since. -/
structure AfterIn (w : Walk) (s : Stack) : Prop where
  outside : w.clause = none
  blocks : w.stack = s
  code : w.out.sight.code = some .kwIn
  address : w.out.sight.address = false
  last : ∀ k ∈ w.out.sight.lineLast, k = .kwIn ∨ k = .comment

namespace AfterIn

/-- Neither an `in` nor a comment completes a line. -/
theorem endLine (h : w.AfterIn s) : w.endLine = w := by
  have hlast := h.last
  unfold Walk.endLine
  cases hline : w.out.onLine with
  | nil => rfl
  | cons last line =>
    have hcompletes : w.completes last.kind = false := by
      rcases hlast last.kind (by simp [Before.sight, hline]) with hk | hk <;> rw [hk, completes] <;> split <;> rfl
    simp only [hcompletes, Bool.false_eq_true, if_false]

theorem of_in (h : w.Amid s) (hk : t.kind = .kwIn) :
    (w.step o t).AfterIn s ∧ (w.step o t).out.sight.lineCode = some .kwIn := by
  have ht : t.isCode = true := by simp [Token.isCode, hk, Kind.isCode]
  have haddress : t.isAddressType = false := by simp [Token.isAddressType, hk]
  have hentered : w.entered o t.kind = w.enter o t.kind := h.entered (by rw [hk]; rfl)
  have henter : (w.enter o .kwIn).1 = w ∧ (w.enter o .kwIn).2.opens = none ∧
      (w.enter o .kwIn).2.opensClause = false := by
    rw [enter]
    split <;> exact ⟨rfl, rfl, rfl⟩
  obtain ⟨hout, hstack, hclause, -⟩ := code_frame o w t
  have hsight : (w.code o t).out.sight = ⟨t.isAddressType, some t.kind, some t.kind, some t.kind⟩ := by
    rw [hout, Before.sight_cons, Sight.push_code ht]
  rw [hentered, hk, henter.1, henter.2.1] at hstack
  rw [hentered, hk, henter.2.2] at hclause
  rw [step_code h.outside ht]
  exact ⟨⟨hclause.trans h.outside, hstack.trans h.blocks, by rw [hsight, hk], by rw [hsight, haddress],
    by simp [hsight, hk]⟩, by rw [hsight, hk]⟩

/-- **One space or comment** behind an `in`. -/
theorem step (h : w.AfterIn s) (ht : t.isSpace = true ∨ t.kind = .comment) : (w.step o t).AfterIn s := by
  have hcode : t.isCode = false := by
    rcases ht with ht | ht
    · exact isCode_of_isSpace ht
    · simp [Token.isCode, ht, Kind.isCode]
  have hsight := sight_step (o := o) h.outside hcode
  have hstack : (w.step o t).stack = w.stack := by
    cases hn : t.isNewline with
    | false => exact step_trivia hn hcode
    | true =>
      rw [Walk.step, if_pos hn]
      simp only [newline, h.outside, h.endLine]
      rfl
  refine ⟨(step_frame hcode).1.trans h.outside, hstack.trans h.blocks, ?_, ?_, ?_⟩ <;>
    rw [hsight, Sight.push, hcode]
  · split
    · exact h.code
    · split <;> exact h.code
  · split
    · exact h.address
    · split
      · exact h.address
      · next hblank hn =>
        have hk : t.kind = .comment := by
          rcases ht with ht | ht
          · simp [isSpace_eq, hblank, hn] at ht
          · exact ht
        simp [Token.isAddressType, hk]
  · split
    · exact h.last
    · split
      · simp [Sight.newline]
      · next hblank hn =>
        rcases ht with ht | ht
        · simp [isSpace_eq, hblank, hn] at ht
        · simp [ht]

/-- **All spaces and comments** behind an `in`. -/
theorem foldl {gap : List Token} (h : w.AfterIn s) (hgap : ∀ t ∈ gap, t.isSpace = true ∨ t.kind = .comment) :
    (gap.foldl (Walk.step o) w).AfterIn s ∧
      (gap.foldl (Walk.step o) w).out.sight = gap.foldl Sight.push w.out.sight := by
  induction gap generalizing w with
  | nil => exact ⟨h, rfl⟩
  | cons t gap ih =>
    have ht := hgap t List.mem_cons_self
    have hcode : t.isCode = false := by
      rcases ht with ht | ht
      · exact isCode_of_isSpace ht
      · simp [Token.isCode, ht, Kind.isCode]
    obtain ⟨hrest, hsight⟩ := ih (h.step (o := o) ht) fun u hu => hgap u (List.mem_cons_of_mem _ hu)
    rw [sight_step h.outside hcode] at hsight
    exact ⟨hrest, hsight⟩

/-- A line break before the next token closes nothing. -/
theorem breakLine (h : w.AfterIn s) (k : Kind) : (w.breakLine o k).stack = s ∧
    (w.breakLine o k).out.sight.code = some .kwIn ∧ (w.breakLine o k).out.sight.address = false := by
  rw [Walk.breakLine]
  split
  · rw [h.endLine]
    have hnewline : o.newlineToken.isNewline = true := rfl
    have hsight : (w.write o.newlineToken).out.sight = w.out.sight.newline :=
      (Before.sight_cons _ _).trans (Sight.push_newline hnewline _)
    rw [hsight]
    exact ⟨h.blocks, h.code, h.address⟩
  · exact ⟨h.blocks, h.code, h.address⟩

end AfterIn

/-! ## The level of a chain -/

end Walk

/-- Blocks on which a further binding shares the level of the one around it. -/
def Stack.SharesLet (s : Stack) : Prop := s.top? = some .letIn ∧ s.base? ≠ some .typeDecl

namespace Walk

variable {o : Options} {w : Walk} {s : Stack} {t : Token} {k : Kind}

theorem units_of_top? (h : s.top? = some .letIn) : s.units - 1 + 1 = s.units := by
  cases s with
  | nil => cases h
  | cons b s =>
    obtain rfl : b = .letIn := Option.some.inj h
    simp [Stack.units]

/-- A `let` leaves its block on top, and its line stands one unit before it. -/
theorem entered_let (o : Options) (w : Walk) : ∃ s : Stack, s.SharesLet ∧ (w.entered o .kwLet).2.opensClause = false ∧
    (w.entered o .kwLet).2.opens.toList ++ (w.entered o .kwLet).1.stack = s ∧
    (w.entered o .kwLet).1.stack.units - (w.entered o .kwLet).2.dedent + 1 = s.units := by
  show ∃ s : Stack, s.SharesLet ∧ ((w.breakLine o .kwLet).enterLet).2.opensClause = false ∧
    ((w.breakLine o .kwLet).enterLet).2.opens.toList ++ ((w.breakLine o .kwLet).enterLet).1.stack = s ∧
    ((w.breakLine o .kwLet).enterLet).1.stack.units - ((w.breakLine o .kwLet).enterLet).2.dedent + 1 = s.units
  generalize w.breakLine o .kwLet = v
  rw [enterLet]
  by_cases hfresh : v.isFreshLet = true
  · rw [if_pos hfresh]
    exact ⟨[.letIn], ⟨rfl, by simp [Stack.base?]⟩, rfl, rfl, rfl⟩
  · have hbase : v.stack.base? ≠ some .typeDecl := fun hbase => hfresh (by rw [isFreshLet, hbase])
    rw [if_neg hfresh]
    by_cases htop : v.stack.top? = some .letIn
    · rw [if_pos htop]
      exact ⟨v.stack, ⟨htop, hbase⟩, rfl, rfl, units_of_top? htop⟩
    · rw [if_neg htop]
      refine ⟨.letIn :: v.stack, ⟨rfl, ?_⟩, rfl, rfl, by simp [Stack.units, Effect.opening]⟩
      cases hstack : v.stack with
      | nil => simp [Stack.base?]
      | cons b below =>
        rw [hstack] at hbase
        simpa [Stack.base?] using hbase

namespace AfterIn

/-- Behind an `in` a `let` closes nothing and opens nothing. -/
theorem entered_let (h : w.AfterIn s) (hs : s.SharesLet) :
    (w.entered o .kwLet).1.stack = s ∧ (w.entered o .kwLet).2 = .dedenting 1 := by
  obtain ⟨hstack, hcode, -⟩ := h.breakLine (o := o) .kwLet
  have hfresh : (w.breakLine o .kwLet).isFreshLet = false := by
    rw [isFreshLet_eq, hstack, hcode]
    split
    · next hbase => exact absurd hbase hs.2
    · rfl
    · rfl
  show ((w.breakLine o .kwLet).enterLet).1.stack = s ∧ ((w.breakLine o .kwLet).enterLet).2 = .dedenting 1
  rw [enterLet, hfresh, if_neg (by simp), hstack, if_pos hs.1]
  exact ⟨rfl, rfl⟩

/-- Behind an `in` a token that does not move its own line stands in the blocks that are open. -/
theorem entered_body (h : w.AfterIn s) (hs : s.SharesLet) (hk : k.movesOwnLine = false) :
    (w.entered o k).1.stack = s ∧ (w.entered o k).2.dedent = 0 := by
  obtain ⟨hstack, -, haddress⟩ := h.breakLine (o := o) k
  rw [entered]
  generalize w.breakLine o k = v at hstack haddress
  subst hstack
  have htop := hs.1
  cases k with
  | kwImport | kwLibrary | kwScillaVersion | kwContract | kwTransition | kwProcedure | kwType | kwField => cases hk
  | kwLet | kwIn | kwEnd | bar | rparen | rbrace | rsqb => cases hk
  | kwFun | kwTfun => simp [enter, enterFunction, htop, Effect.opening]
  | kwWith =>
    have haddress' : v.out.followsAddressType = false := haddress
    simp [enter, enterWith, haddress', htop]
  | _ => exact ⟨rfl, rfl⟩

end AfterIn

end Walk

/-! ## Chains -/

/-- Whether a comment stands behind the last line break. -/
def commentBehindBreak (gap : List Token) : Bool :=
  gap.any (·.isNewline) && (gap.reverse.takeWhile (!·.isNewline)).any (·.kind == .comment)

/-- Behind an `in` and a gap the `in` is on the same line, or a comment, or the line starts there. -/
theorem sight_gap {gap : List Token} (hgap : ∀ t ∈ gap, t.isSpace = true ∨ t.kind = .comment) {s : Sight}
    (hs : s.lineCode = some .kwIn) (hcomment : commentBehindBreak gap = false) :
    (gap.foldl Sight.push s).lineLast = none ∨ (gap.foldl Sight.push s).lineCode = some .kwIn := by
  suffices hline : (gap.any (·.isNewline) = false → (gap.foldl Sight.push s).lineCode = some .kwIn) ∧
      (gap.any (·.isNewline) = true → (gap.reverse.takeWhile (!·.isNewline)).any (·.kind == .comment) = false →
        (gap.foldl Sight.push s).lineLast = none) by
    cases hany : gap.any (·.isNewline) with
    | false => exact .inr (hline.1 hany)
    | true => exact .inl (hline.2 hany (by simpa [commentBehindBreak, hany] using hcomment))
  clear hcomment
  induction gap using List.reverseRecOn with
  | nil => exact ⟨fun _ => hs, fun h => by cases h⟩
  | append_singleton gap t ih =>
    obtain ⟨hcode, hlast⟩ := ih fun u hu => hgap u (List.mem_append_left _ hu)
    rw [List.foldl_append, List.foldl_cons, List.foldl_nil]
    simp only [List.any_append, List.any_cons, List.any_nil, Bool.or_false, List.reverse_append, List.reverse_singleton,
      List.singleton_append]
    cases hn : t.isNewline with
    | true =>
      rw [Sight.push_newline hn]
      exact ⟨fun h => by simp at h, fun _ _ => rfl⟩
    | false =>
      rw [Bool.or_false, List.takeWhile_cons_of_pos (by simp [hn]), List.any_cons]
      rcases hgap t (List.mem_append_right _ List.mem_cons_self) with ht | ht
      · have hblank : t.isWhitespace = true := by simpa [isSpace_eq, hn] using ht
        rw [Sight.push_blank hblank]
        refine ⟨hcode, fun h h' => hlast h ?_⟩
        rw [Bool.or_eq_false_iff] at h'
        exact h'.2
      · have hpush : (gap.foldl Sight.push s).push t =
            { gap.foldl Sight.push s with address := t.isAddressType, lineLast := some t.kind } := by
          simp [Sight.push, hn, Token.isWhitespace, Token.isCode, ht, Kind.isWhitespace, Kind.isCode]
        rw [hpush]
        exact ⟨hcode, fun _ h => by simp [ht] at h⟩

/-- A binding, from its `let` to its `in`, and what stands between the `in` and the next code token. -/
structure Binding where
  keyword : Token
  inside : List Token
  close : Token
  gap : List Token
  deriving DecidableEq, Repr

namespace Binding

/-- The tokens of a binding. -/
def tokens (b : Binding) : List Token := b.keyword :: (b.inside ++ b.close :: b.gap)

/-- A binding on one line without blocks of its own, and with its brackets nested. -/
structure Plain (b : Binding) : Prop where
  keyword : b.keyword.kind = .kwLet
  line : ∀ t ∈ b.inside, t.isNewline = false
  inside : ∀ t ∈ b.inside, t.kind.endsBinding = false
  brackets : bracketsNested [] b.inside = true
  close : b.close.kind = .kwIn
  gap : ∀ t ∈ b.gap, t.isSpace = true ∨ t.kind = .comment

instance (b : Binding) : Decidable b.Plain :=
  decidable_of_iff (b.keyword.kind = .kwLet ∧ (∀ t ∈ b.inside, t.isNewline = false) ∧
      (∀ t ∈ b.inside, t.kind.endsBinding = false) ∧ bracketsNested [] b.inside = true ∧ b.close.kind = .kwIn ∧
      ∀ t ∈ b.gap, t.isSpace = true ∨ t.kind = .comment)
    ⟨fun ⟨h₁, h₂, h₃, h₄, h₅, h₆⟩ => ⟨h₁, h₂, h₃, h₄, h₅, h₆⟩,
      fun ⟨h₁, h₂, h₃, h₄, h₅, h₆⟩ => ⟨h₁, h₂, h₃, h₄, h₅, h₆⟩⟩

end Binding

namespace Walk

variable {o : Options} {w : Walk} {s : Stack} {b : Binding}

/-- **A binding** leaves the blocks as they are behind its `let`. -/
theorem AfterIn.binding (h : (w.step o b.keyword).Amid s) (hb : b.Plain) :
    (b.tokens.foldl (Walk.step o) w).AfterIn s ∧ (commentBehindBreak b.gap = false →
      (b.tokens.foldl (Walk.step o) w).out.sight.lineLast = none ∨
        (b.tokens.foldl (Walk.step o) w).out.sight.lineCode = some .kwIn) := by
  have hstart : (w.step o b.keyword).Amid ([] ++ s) := h
  have hinside := hstart.foldl (o := o) hb.line hb.inside hb.brackets
  obtain ⟨hclose, hcode⟩ := AfterIn.of_in (o := o) hinside hb.close
  obtain ⟨hgap, hsight⟩ := hclose.foldl (o := o) hb.gap
  have htokens : b.tokens.foldl (Walk.step o) w =
      b.gap.foldl (Walk.step o) ((b.inside.foldl (Walk.step o) (w.step o b.keyword)).step o b.close) := by
    simp [Binding.tokens]
  rw [htokens, hsight]
  exact ⟨hgap, sight_gap hb.gap hcode⟩

/-- The first `let` of a chain. -/
theorem first_let (hc : w.clause = none) {t : Token} (hk : t.kind = .kwLet) :
    ∃ s : Stack, s.SharesLet ∧ (w.step o t).Amid s ∧ (w.margin o t.kind).units + 1 = s.units := by
  have ht : t.isCode = true := by simp [Token.isCode, hk, Kind.isCode]
  obtain ⟨s, hs, hclause, hstack, hunits⟩ := entered_let o w
  rw [← hk] at hclause hstack hunits
  exact ⟨s, hs, hstack ▸ Amid.of_code hc ht (by simp [hk]) hclause, hunits⟩

/-- A further `let`. -/
theorem AfterIn.next_let (h : w.AfterIn s) (hs : s.SharesLet) {t : Token} (hk : t.kind = .kwLet) :
    (w.step o t).Amid s ∧ (w.margin o t.kind).units + 1 = s.units := by
  have ht : t.isCode = true := by simp [Token.isCode, hk, Kind.isCode]
  obtain ⟨hstack, heffect⟩ := h.entered_let (o := o) hs
  rw [← hk] at hstack heffect
  have hstep := Amid.of_code (o := o) h.outside ht (by simp [hk]) (by rw [heffect]; rfl)
  rw [heffect, hstack] at hstep
  refine ⟨hstep, ?_⟩
  rw [margin, heffect, hstack]
  exact units_of_top? hs.1

/-- **All further bindings** of a chain leave the blocks as they are. -/
theorem AfterIn.bindings {bs : List Binding} (h : w.AfterIn s) (hs : s.SharesLet) (hbs : ∀ b ∈ bs, b.Plain) :
    ((bs.flatMap Binding.tokens).foldl (Walk.step o) w).AfterIn s := by
  induction bs generalizing w with
  | nil => exact h
  | cons b bs ih =>
    have hb := hbs b List.mem_cons_self
    rw [List.flatMap_cons, List.foldl_append]
    exact ih (AfterIn.binding (h.next_let hs hb.keyword).1 hb).1 fun c hc => hbs c (List.mem_cons_of_mem _ hc)

/-- A body that does not stand behind a comment on a line of its own starts a line. -/
theorem lineStart_of_body {k : Kind}
    (h : k.startsLine = true ∨ w.out.sight.lineLast = none ∨ w.out.sight.lineCode = some .kwIn) :
    (w.entered o k).1.out.isLineStart = true := by
  rcases h with hk | hlast | hcode
  · exact entered_isLineStart hk
  · have hstart : w.out.isLineStart = true := by rw [Before.isLineStart_eq, hlast]; rfl
    rw [entered, (enter_frame k).1, breakLine, hstart, if_neg (by simp)]
    exact hstart
  · rw [entered, (enter_frame k).1, breakLine]
    have hin : w.breaksBefore k = true := by simp [breaksBefore, Before.followsIn_eq, hcode]
    rw [hin, Bool.and_true]
    split
    · rfl
    · next hstart => simpa using hstart

end Walk

namespace Binding

variable {o : Options} {before : List Token} {bs front back : List Binding} {b : Binding}

/-- Every `let` of a chain finds or leaves the same blocks. -/
theorem chain (hc : (Walk.run o before).clause = none) (hbs : ∀ b ∈ bs, b.Plain) : ∃ s : Stack, s.SharesLet ∧
    ∀ front b back, bs = front ++ b :: back →
      (Walk.run o (before ++ front.flatMap tokens)).clause = none ∧
      ((Walk.run o (before ++ front.flatMap tokens)).step o b.keyword).Amid s ∧
      ((Walk.run o (before ++ front.flatMap tokens)).margin o b.keyword.kind).units + 1 = s.units := by
  cases bs with
  | nil => exact ⟨[.letIn], ⟨rfl, by simp [Stack.base?]⟩, fun front b back h => by simp at h⟩
  | cons first bs =>
    have hfirst := hbs first List.mem_cons_self
    obtain ⟨s, hs, hlet, hunits⟩ := Walk.first_let (o := o) hc hfirst.keyword
    refine ⟨s, hs, fun front b back h => ?_⟩
    cases front with
    | nil =>
      obtain ⟨rfl, rfl⟩ := List.cons.inj h
      rw [List.flatMap_nil, List.append_nil]
      exact ⟨hc, hlet, hunits⟩
    | cons c front =>
      obtain ⟨rfl, rfl⟩ := List.cons.inj h
      have hfront : ∀ d ∈ front, d.Plain := fun d hd =>
        hbs d (List.mem_cons_of_mem _ (List.mem_append_left _ hd))
      have hafter := (Walk.AfterIn.binding hlet hfirst).1.bindings (o := o) hs hfront
      rw [← Walk.run_append, ← Walk.run_append, List.append_assoc, ← List.flatMap_cons] at hafter
      have hb := hbs b (List.mem_cons_of_mem _ (List.mem_append_right _ List.mem_cons_self))
      exact ⟨hafter.outside, hafter.next_let hs hb.keyword⟩

end Binding

/-- **The bindings of a chain stand on one level**, and the body one unit deeper. The body starts a line, unless it
stands behind a comment on a line below the `in`. -/
theorem lets_align {o : Options} {before : List Token} (hc : (Walk.run o before).clause = none) {bs : List Binding}
    (hne : bs ≠ []) (hbs : ∀ b ∈ bs, b.Plain) (behind : List Token) :
    ∃ units, (∀ front b back, bs = front ++ b :: back → ∃ padding, Walk.Starts o
        (before ++ (bs.flatMap Binding.tokens ++ behind)) (before ++ front.flatMap Binding.tokens) b.keyword
        ⟨padding, units⟩) ∧
      ∀ body rest, behind = body :: rest → body.isCode = true → body.kind.movesOwnLine = false →
        (∀ b ∈ bs.getLast?, body.kind.startsLine = true ∨ commentBehindBreak b.gap = false) →
        ∃ padding, Walk.Starts o (before ++ (bs.flatMap Binding.tokens ++ behind))
          (before ++ bs.flatMap Binding.tokens) body ⟨padding, units + 1⟩ := by
  obtain ⟨s, hs, hlets⟩ := Binding.chain hc hbs
  refine ⟨s.units - 1, fun front b back h => ?_, ?_⟩
  · obtain ⟨hclause, -, hunits⟩ := hlets front b back h
    have hb := hbs b (h ▸ List.mem_append_right _ List.mem_cons_self)
    have hstarts := Walk.starts_of_startsLine (t := b.keyword) hclause (by rw [hb.keyword]; rfl)
      (b.inside ++ b.close :: b.gap ++ (back.flatMap Binding.tokens ++ behind))
    have htokens : before ++ (bs.flatMap Binding.tokens ++ behind) = before ++ front.flatMap Binding.tokens ++
        b.keyword :: (b.inside ++ b.close :: b.gap ++ (back.flatMap Binding.tokens ++ behind)) := by
      simp [h, Binding.tokens]
    have hlevel :
        s.units - 1 = ((Walk.run o (before ++ front.flatMap Binding.tokens)).margin o b.keyword.kind).units := by
      omega
    rw [htokens, hlevel]
    exact ⟨_, hstarts⟩
  · rintro body rest rfl hcode hmoves hcomment
    obtain ⟨front, last, rfl⟩ := (List.eq_nil_or_concat' bs).resolve_left hne
    obtain ⟨-, hlet, -⟩ := hlets front last [] rfl
    obtain ⟨hafter, hline⟩ := Walk.AfterIn.binding hlet (hbs last (by simp))
    have hrun : last.tokens.foldl (Walk.step o) (Walk.run o (before ++ front.flatMap Binding.tokens)) =
        Walk.run o (before ++ (front ++ [last]).flatMap Binding.tokens) := by
      rw [← Walk.run_append]
      simp
    rw [hrun] at hafter hline
    obtain ⟨hstack, hdedent⟩ := hafter.entered_body (o := o) hs hmoves
    have hstart : ((Walk.run o (before ++ (front ++ [last]).flatMap Binding.tokens)).entered o
        body.kind).1.out.isLineStart = true := by
      refine Walk.lineStart_of_body ?_
      rcases hcomment last (by simp) with hk | hgap
      · exact .inl hk
      · exact .inr (hline hgap)
    have hstarts := Walk.starts_of_lineStart hafter.outside hcode hstart rest
    have hlevel : s.units - 1 + 1 =
        ((Walk.run o (before ++ (front ++ [last]).flatMap Binding.tokens)).margin o body.kind).units := by
      rw [Walk.units_of_top? hs.1, Walk.margin, hstack, hdedent, Nat.sub_zero]
    rw [← List.append_assoc, hlevel]
    exact ⟨_, hstarts⟩

/-- A field whose value is a chain of two bindings, with brackets, comments and a line of its own for one of them. -/
def chainedLets : List Token := toIndent "field f : T = let x = (g [a]) in\n(* c *)\nlet y = b in (* d *) x"

/-- The bindings and the body of a field. -/
theorem lets_align_field : ∃ before b b' body rest,
    chainedLets = before ++ ([b, b'].flatMap Binding.tokens ++ body :: rest) ∧ b.Plain ∧ b'.Plain ∧
      body.isCode = true ∧ body.kind.movesOwnLine = false ∧ commentBehindBreak b'.gap = false ∧
      ∃ units, (∃ padding, Walk.Starts {} (before ++ ([b, b'].flatMap Binding.tokens ++ body :: rest))
          (before ++ [].flatMap Binding.tokens) b.keyword ⟨padding, units⟩) ∧
        (∃ padding, Walk.Starts {} (before ++ ([b, b'].flatMap Binding.tokens ++ body :: rest))
          (before ++ [b].flatMap Binding.tokens) b'.keyword ⟨padding, units⟩) ∧
        ∃ padding, Walk.Starts {} (before ++ ([b, b'].flatMap Binding.tokens ++ body :: rest))
          (before ++ [b, b'].flatMap Binding.tokens) body ⟨padding, units + 1⟩ := by
  have hparts : ∃ before b b' body rest,
      chainedLets = before ++ ([b, b'].flatMap Binding.tokens ++ body :: rest) ∧
      (Walk.run {} before).clause = none ∧ b.Plain ∧ b'.Plain ∧ body.isCode = true ∧
      body.kind.movesOwnLine = false ∧ commentBehindBreak b'.gap = false :=
    ⟨chainedLets.take 10,
      ⟨chainedLets[10]?.getD .space, (chainedLets.take 24).drop 11, chainedLets[24]?.getD .space,
        (chainedLets.take 28).drop 25⟩,
      ⟨chainedLets[28]?.getD .space, (chainedLets.take 36).drop 29, chainedLets[36]?.getD .space,
        (chainedLets.take 40).drop 37⟩,
      chainedLets[40]?.getD .space, chainedLets.drop 41, by decide +kernel⟩
  obtain ⟨before, b, b', body, rest, htokens, hc, hb, hb', hcode, hmoves, hgap⟩ := hparts
  have hplain : ∀ c ∈ [b, b'], c.Plain := by simp [hb, hb']
  obtain ⟨units, hlets, hbody⟩ := lets_align hc (by simp) hplain (body :: rest)
  exact ⟨before, b, b', body, rest, htokens, hb, hb', hcode, hmoves, hgap, units, hlets [] b [b'] rfl,
    hlets [b] b' [] rfl, hbody body rest rfl hcode hmoves (by simp [hgap])⟩

/-- A body behind a comment on a line of its own. -/
def commentedBody : List Token := toIndent "let x = a in\n(* c *) y"

/-- **A body can stand behind a comment.** Where the line is broken behind the `in`, a comment before the body keeps it
from starting a line: the `in` is not on its line, and comments are not moved. -/
theorem body_stays_behind_comment : ∃ (b : Binding) (body : Token) (rest : List Token),
    commentedBody = b.tokens ++ body :: rest ∧ (Walk.run {} []).clause = none ∧ b.Plain ∧ body.isCode = true ∧
      body.kind.movesOwnLine = false ∧
      ∃ below : Before, (Walk.run {} (b.tokens ++ [body])).out = body :: below ∧ below.isLineStart = false :=
  ⟨⟨commentedBody[0]?.getD .space, (commentedBody.take 8).drop 1, commentedBody[8]?.getD .space,
      (commentedBody.take 12).drop 9⟩, commentedBody[12]?.getD .space, commentedBody.drop 13, by decide +kernel,
    rfl, by decide +kernel, by decide +kernel, by decide +kernel, (commentedBody.take 12).reverse, by decide +kernel⟩

end ScillaLayout
