import Mathlib.Data.List.Infix
import ScillaLayout.Proofs.Layout.Alignment

/-!
# What leaves the open blocks as they were

A `match` up to its own `end` opens and closes blocks of its own only, whatever stands in it, unless it is under a
binding or a type declaration, where the end of a line may close more (`match_leaves_blocks`).

An address clause is known from the tokens alone. The walk is inside of one exactly when they say so, comes out of it
with the blocks that it had before, and writes it on one line (`clauses_written_inline`). Inside of a clause the walk
writes no line break (`Walk.breaks_step`) and stacks the clauses on what was open (`Walk.InClause`).
-/

namespace ScillaLayout

/-! ## Match blocks -/

/-- The tokens from a `match` to its own `end`. Outside of address clauses a `match` opens and an `end` closes, and
there is no keyword of a top-level declaration; inside of a clause only clauses open and close. -/
structure MatchBlock (m : Token) (inside : List Token) (e : Token) : Prop where
  opens : m.kind = .kwMatch
  stays : BlockCount.stays { depth := 1 } inside = true
  direct : (countInside inside).isDirect = true
  closes : e.kind = .kwEnd

instance (m : Token) (inside : List Token) (e : Token) : Decidable (MatchBlock m inside e) :=
  decidable_of_iff (m.kind = .kwMatch ∧ BlockCount.stays { depth := 1 } inside = true ∧
      (countInside inside).isDirect = true ∧ e.kind = .kwEnd)
    ⟨fun h => ⟨h.1, h.2.1, h.2.2.1, h.2.2.2⟩, fun h => ⟨h.opens, h.stays, h.direct, h.closes⟩⟩

/-- **A match leaves the blocks as they were**, and the note of the field and of the clause too, on any blocks but those
of a binding or a type declaration. -/
theorem match_leaves_blocks (o : Options) {w : Walk} (hc : w.clause = none) (hcalm : w.stack.Calm) {m e : Token}
    {inside : List Token} (h : MatchBlock m inside e) :
    ((m :: (inside ++ [e])).foldl (Walk.step o) w).stack = w.stack ∧
      ((m :: (inside ++ [e])).foldl (Walk.step o) w).field = w.field ∧
      ((m :: (inside ++ [e])).foldl (Walk.step o) w).clause = w.clause := by
  have hstart := Walk.inBlock_start (o := o) hc h.opens
  rw [Walk.blocksAt_of_calm hcalm] at hstart
  rw [List.foldl_cons, List.foldl_append, hc]
  exact (hstart.foldl hcalm h.stays).close hcalm h.direct h.closes

/-- A walk inside of a field declaration. -/
def inField : Walk := Walk.run {} (lex "field f : T =").tokens.dropLast

/-- A block with a clause that holds the keyword of a declaration, brackets that do not match, a binding without a body
and an arm that is a block. -/
def unrulyBlock : List Token :=
  (lex "match x with | (let y = ByStr20 with field end in\n| match z with | ] end\nf end").tokens.dropLast

/-- An unruly block in a field declaration leaves it open. -/
theorem match_leaves_blocks_field : ∃ m inside e, unrulyBlock = m :: (inside ++ [e]) ∧ MatchBlock m inside e ∧
    inField.stack = [.field] ∧ inField.field = some 0 ∧ inField.clause = none ∧
      ((m :: (inside ++ [e])).foldl (Walk.step {}) inField).stack = inField.stack ∧
      ((m :: (inside ++ [e])).foldl (Walk.step {}) inField).field = inField.field ∧
      ((m :: (inside ++ [e])).foldl (Walk.step {}) inField).clause = inField.clause := by
  obtain ⟨htokens, hblock⟩ : unrulyBlock = unrulyBlock.head?.getD .space ::
        (unrulyBlock.tail.dropLast ++ [unrulyBlock.getLast?.getD .space]) ∧
      MatchBlock (unrulyBlock.head?.getD .space) unrulyBlock.tail.dropLast (unrulyBlock.getLast?.getD .space) := by
    decide +kernel
  obtain ⟨hstack, hfield, hc⟩ : inField.stack = [.field] ∧ inField.field = some 0 ∧ inField.clause = none := by
    decide +kernel
  have hcalm : inField.stack.Calm := by
    rw [hstack]
    exact ⟨by decide, by decide⟩
  exact ⟨_, _, _, htokens, hblock, hstack, hfield, hc, match_leaves_blocks {} hc hcalm hblock⟩

/-! ## Inside of an address clause -/

/-- Behind an address type the line has not ended in `in`. -/
theorem Before.followsIn_of_followsAddressType {b : Before} (h : b.followsAddressType = true) :
    b.followsIn = false := by
  induction b with
  | nil => rfl
  | cons t b ih =>
    cases hs : t.isSpace with
    | true =>
      have hb : Before.followsAddressType b = true := by
        rw [followsAddressType_eq, solid_cons_space hs, ← followsAddressType_eq] at h
        exact h
      have hcode : t.isCode = false := isCode_of_isSpace hs
      cases hn : t.isNewline with
      | true => simp [followsIn, codeOnLine, seek, hn]
      | false =>
        have hsame : Before.followsIn (t :: b) = Before.followsIn b := by simp [followsIn, codeOnLine, seek, hn, hcode]
        rw [hsame]
        exact ih hb
    | false =>
      have haddress : t.isAddressType = true := by
        rw [followsAddressType_eq, solid_cons hs] at h
        simpa using h
      have hk : t.kind = .bystrType := by
        simp only [Token.isAddressType, Bool.and_eq_true, beq_iff_eq] at haddress
        exact haddress.1
      simp [followsIn, codeOnLine, seek, Token.isNewline, Token.isCode, hk, Kind.isCode]

namespace Walk

variable {o : Options} {w : Walk} {t : Token}

/-- A `with` behind an address type opens its clause on all open blocks. -/
theorem step_clause_stack (hc : w.clause = none) (hk : t.kind = .kwWith) (ha : w.out.followsAddressType = true) :
    (w.step o t).stack = .withArms :: w.stack := by
  have hcode : t.isCode = true := by simp [Token.isCode, hk, Kind.isCode]
  -- the token does not start a line of its own, so no line ends before it
  have hline : w.breakLine o .kwWith = w := by
    simp [breakLine, breaksBefore, Kind.startsLine, Kind.isTopLevel, Before.followsIn_of_followsAddressType ha]
  rw [step_code hc hcode, (code_frame o w t).2.1, hk, entered, hline]
  simp [enter, enterWith, ha]

theorem countP_trimmed (out : Before) : out.trimmed.countP (·.isNewline) = out.countP (·.isNewline) := by
  induction out with
  | nil => rfl
  | cons t out ih =>
    rw [Before.trimmed, List.dropWhile_cons]
    split
    · next ht => rw [List.countP_cons_of_neg (by simp [isNewline_of_isWhitespace ht]), ← ih]; rfl
    · rfl

/-- **Inside of a clause no line break is written.** -/
theorem breaks_step {base : Nat} (hc : w.clause = some base) :
    (w.step o t).out.countP (·.isNewline) = w.out.countP (·.isNewline) := by
  have hwrite : t.isNewline = false → (t :: w.out).countP (·.isNewline) = w.out.countP (·.isNewline) :=
    fun ht => List.countP_cons_of_neg (by simp [ht])
  rw [step]
  split
  · simp only [newline, hc]
    rw [List.countP_cons_of_neg (by simp [Token.isNewline]), countP_trimmed]
  · next hn =>
    have hn : t.isNewline = false := by simpa using hn
    split
    · simp only [hc, inlineCode]
      split
      · split <;> exact hwrite hn
      · exact hwrite hn
      · exact hwrite hn
    · rw [trivia]
      split
      · rfl
      · exact hwrite hn

/-- Code in a clause is written as it comes. -/
theorem step_inline_out {base : Nat} (hc : w.clause = some base) (ht : t.isCode = true) :
    (w.step o t).out = t :: w.out := by
  rw [step, isNewline_of_isCode ht, ht, if_neg (by simp), if_pos rfl]
  simp only [hc, inlineCode]
  split
  · split <;> rfl
  · rfl
  · rfl

/-- The walk is in an address clause that was opened on the blocks `below`, as deep as `n` says, and has written
`breaks` line breaks in all; or it has just come out of it. -/
structure InClause (below : Stack) (breaks : Nat) (n : ClauseCount) (w : Walk) : Prop where
  clauses : w.Clauses n
  stack : w.stack = List.replicate n.depth .withArms ++ below
  breaks : w.out.countP (·.isNewline) = breaks

namespace InClause

variable {below : Stack} {breaks : Nat} {n : ClauseCount}

/-- **One token** in a clause. -/
theorem step (h : w.InClause below breaks n) (hn : 0 < n.depth) : (w.step o t).InClause below breaks (n.push t) := by
  obtain ⟨base, hc⟩ : ∃ base, w.clause = some base := by
    refine Option.ne_none_iff_exists'.1 fun hnone => ?_
    have hzero := h.clauses.outside hnone
    omega
  refine ⟨h.clauses.step t, ?_, (breaks_step hc).trans h.breaks⟩
  rw [step_inside hc]
  by_cases hwith : t.kind = .kwWith
  · rw [ClauseCount.push_with hwith]
    simp only [inlineStack, hwith, h.clauses.address, h.stack]
    cases n.address <;> rfl
  by_cases hend : t.kind = .kwEnd
  · -- the innermost block is the innermost clause
    rw [ClauseCount.push_end hend]
    simp only [inlineStack, hend, h.stack]
    rw [← Nat.sub_add_cancel hn]
    rfl
  · rw [inlineStack_other hwith hend, ClauseCount.depth_push_other hwith hend]
    exact h.stack

end InClause

end Walk

/-! ## A whole clause -/

/-- The tokens `a :: inside` are an address clause behind `before`. It ends before its own `end`, at the head of
`behind`, or at the end of the document when `behind` is empty. -/
structure AddressClause (before : List Token) (a : Token) (inside behind : List Token) : Prop where
  outside : clauseDepth before = 0
  stays : ∀ mid, mid <+: inside → 0 < clauseDepth (before ++ a :: mid)
  ends : ∀ e ∈ behind.head?, clauseDepth (before ++ a :: (inside ++ [e])) = 0

instance (before : List Token) (a : Token) (inside behind : List Token) :
    Decidable (AddressClause before a inside behind) :=
  decidable_of_iff (clauseDepth before = 0 ∧ (∀ mid ∈ inside.inits, 0 < clauseDepth (before ++ a :: mid)) ∧
      ∀ e ∈ behind.head?, clauseDepth (before ++ a :: (inside ++ [e])) = 0)
    ⟨fun h => ⟨h.1, fun mid hmid => h.2.1 mid ((List.mem_inits _ _).2 hmid), h.2.2⟩,
      fun h => ⟨h.outside, fun mid hmid => h.stays mid ((List.mem_inits _ _).1 hmid), h.ends⟩⟩

theorem clauseDepth_concat (ts : List Token) (t : Token) :
    clauseDepth (ts ++ [t]) = ((ts.foldl ClauseCount.push {}).push t).depth := by
  simp [clauseDepth]

/-- **The walk is inside of a clause exactly where the tokens say so.** -/
theorem Walk.isSome_clause_run (o : Options) (ts : List Token) :
    (Walk.run o ts).clause.isSome = true ↔ 0 < clauseDepth ts := by
  have hclauses := Walk.clauses_run o ts
  cases hc : (Walk.run o ts).clause with
  | none => simp [clauseDepth, hclauses.outside hc]
  | some base => simpa [clauseDepth] using (hclauses.inside base hc).1

namespace AddressClause

variable {o : Options} {before inside behind : List Token} {a e : Token}

/-- What opens a clause is a `with` behind an address type. -/
theorem opens (h : AddressClause before a inside behind) :
    a.kind = .kwWith ∧ (before.foldl ClauseCount.push {}).address = true := by
  have hzero : (before.foldl ClauseCount.push {}).depth = 0 := h.outside
  have hpos := h.stays [] List.nil_prefix
  rw [clauseDepth_concat] at hpos
  by_cases hwith : a.kind = .kwWith
  · refine ⟨hwith, ?_⟩
    rw [ClauseCount.push_with hwith] at hpos
    cases ha : (before.foldl ClauseCount.push {}).address with
    | true => rfl
    | false => simp [ha, hzero] at hpos
  by_cases hend : a.kind = .kwEnd
  · rw [ClauseCount.push_end hend, hzero] at hpos
    cases hpos
  · rw [ClauseCount.depth_push_other hwith hend, hzero] at hpos
    cases hpos

theorem isCode (h : AddressClause before a inside behind) : a.isCode = true := by
  simp [Token.isCode, h.opens.1, Kind.isCode]

theorem isSpace (h : AddressClause before a inside behind) : a.isSpace = false :=
  Kind.isSpace_eq_false_of_isCode h.isCode

/-- What closes a clause is an `end`. -/
theorem closes (h : AddressClause before a inside behind) (he : e ∈ behind.head?) : e.kind = .kwEnd := by
  have hpos : 0 < ((before ++ a :: inside).foldl ClauseCount.push {}).depth := h.stays inside List.prefix_rfl
  have hzero := h.ends e he
  rw [← List.cons_append, ← List.append_assoc, clauseDepth_concat] at hzero
  by_contra hend
  by_cases hwith : e.kind = .kwWith
  · rw [ClauseCount.push_with hwith] at hzero
    simp only at hzero
    split at hzero <;> omega
  · rw [ClauseCount.depth_push_other hwith hend] at hzero
    omega

theorem exists_clause (h : AddressClause before a inside behind) {mid : List Token} (hmid : mid <+: inside) :
    ∃ base, (Walk.run o (before ++ a :: mid)).clause = some base :=
  Option.isSome_iff_exists.1 ((Walk.isSome_clause_run o _).2 (h.stays mid hmid))

/-- The clause is opened on the blocks that are open before it. -/
theorem start (h : AddressClause before a inside behind) :
    (Walk.run o (before ++ [a])).InClause (Walk.run o before).stack
      ((Walk.run o (before ++ [a])).out.countP (·.isNewline)) ((before ++ [a]).foldl ClauseCount.push {}) := by
  obtain ⟨hk, ha⟩ := h.opens
  have hclauses := Walk.clauses_run o before
  have hdepth : ((before ++ [a]).foldl ClauseCount.push {}).depth = 1 := by
    rw [List.foldl_append, List.foldl_cons, List.foldl_nil, ClauseCount.push_with hk, ha,
      show (before.foldl ClauseCount.push {}).depth = 0 from h.outside]
    rfl
  refine ⟨Walk.clauses_run o _, ?_, rfl⟩
  rw [hdepth, Walk.run_concat]
  exact Walk.step_clause_stack (hclauses.clause_eq_none h.outside) hk (hclauses.address.trans ha)

/-- **All tokens** of the clause, and the one that closes it. -/
theorem run (h : AddressClause before a inside behind) (mid : List Token)
    (hmid : ∀ front, front <+: mid → front ≠ mid → front <+: inside) :
    (Walk.run o (before ++ a :: mid)).InClause (Walk.run o before).stack
      ((Walk.run o (before ++ [a])).out.countP (·.isNewline)) ((before ++ a :: mid).foldl ClauseCount.push {}) := by
  induction mid using List.reverseRecOn with
  | nil => exact h.start
  | append_singleton mid t ih =>
    have hinside : mid <+: inside := hmid mid (List.prefix_append _ _) (by simp)
    have hin := ih fun front hfront _ => hfront.trans hinside
    have hrun : Walk.run o (before ++ a :: (mid ++ [t])) = (Walk.run o (before ++ a :: mid)).step o t := by
      rw [← List.cons_append, ← List.append_assoc, Walk.run_concat]
    rw [hrun, ← List.cons_append, ← List.append_assoc, List.foldl_append]
    exact hin.step (h.stays mid hinside)

/-- Where the clause has come to its `end`, only that is missing. -/
theorem prefix_inside {front : List Token} (hfront : front <+: inside ++ [e]) (hne : front ≠ inside ++ [e]) :
    front <+: inside := (List.prefix_concat_iff.1 hfront).resolve_left hne

theorem stack (h : AddressClause before a inside behind) {mid : List Token} (hmid : mid <+: inside) :
    (Walk.run o (before ++ a :: mid)).stack =
      List.replicate (clauseDepth (before ++ a :: mid)) .withArms ++ (Walk.run o before).stack :=
  (h.run mid fun _ hfront _ => hfront.trans hmid).stack

theorem stack_end (h : AddressClause before a inside behind) (he : e ∈ behind.head?) :
    (Walk.run o (before ++ a :: (inside ++ [e]))).stack = (Walk.run o before).stack := by
  have hstack := (h.run (o := o) (inside ++ [e]) fun _ => prefix_inside).stack
  rw [show ((before ++ a :: (inside ++ [e])).foldl ClauseCount.push {}).depth = 0 from h.ends e he] at hstack
  exact hstack

/-- What is written of the clause is one line. -/
theorem exists_line (h : AddressClause before a inside behind) : ∃ line below : Before,
    (Walk.run o (before ++ a :: inside)).out = line ++ a :: below ∧ solid below.reverse = solid before ∧
      solid line.reverse = solid inside ∧ ∀ t ∈ line, t.isNewline = false := by
  have hc := (Walk.clauses_run o before).clause_eq_none h.outside
  have hout : (Walk.run o (before ++ [a])).out = a :: (Walk.run o before).ahead o a.kind := by
    rw [Walk.run_concat, Walk.step_code hc h.isCode]
    exact (Walk.code_frame o _ a).1
  obtain ⟨line, hline⟩ : a :: (Walk.run o before).ahead o a.kind <:+ (Walk.run o (before ++ a :: inside)).out := by
    rw [List.append_cons, Walk.run_append]
    exact Walk.keeps_foldl o _ inside a _ h.isSpace ⟨[], hout.symm⟩
  have hbelow := Walk.solid_written h.isSpace hout
  refine ⟨line, _, hline.symm, hbelow, ?_, ?_⟩
  · have hsolid := Walk.solid_tokens_run o (before ++ a :: inside)
    rw [Walk.tokens, ← hline, List.reverse_append, List.reverse_cons, List.append_assoc, List.singleton_append,
      solid_append, solid_append, hbelow, solid_cons h.isSpace, solid_cons h.isSpace] at hsolid
    exact (List.cons.inj (List.append_cancel_left hsolid)).2
  · -- all line breaks were there when the clause was opened
    have hbreaks := (h.run (o := o) inside fun _ hfront _ => hfront).breaks
    rw [← hline, hout, List.countP_append] at hbreaks
    have hzero : line.countP (·.isNewline) = 0 := by omega
    simpa [List.countP_eq_zero] using hzero

end AddressClause

/-- In the list `written` the clause `a :: inside` behind `before` stands on one line, and what comes next is the head
of `behind`. -/
def WrittenInline (written before : List Token) (a : Token) (inside behind : List Token) : Prop :=
  ∃ front line rest, written = front ++ a :: (line ++ rest) ∧ solid front = solid before ∧
    solid line = solid inside ∧ rest.head? = behind.head? ∧ ∀ t ∈ line, t.isNewline = false

theorem AddressClause.writtenInline {o : Options} {before inside behind : List Token} {a : Token}
    (h : AddressClause before a inside behind) :
    WrittenInline (indentLines o (before ++ a :: (inside ++ behind))) before a inside behind := by
  obtain ⟨line, below, hout, hbelow, hinside, hbreaks⟩ := h.exists_line (o := o)
  have hline : ∀ t ∈ line.reverse, t.isNewline = false := fun t ht => hbreaks t (List.mem_reverse.1 ht)
  cases behind with
  | nil =>
    refine ⟨below.reverse, line.reverse, [], ?_, hbelow, hinside, rfl, hline⟩
    rw [indentLines, Walk.tokens, List.append_nil, hout]
    simp
  | cons e behind =>
    -- the `end` is no space, so what has been written before it stays
    have hcode : e.isCode = true := by simp [Token.isCode, h.closes rfl, Kind.isCode]
    have hspace : e.isSpace = false := Kind.isSpace_eq_false_of_isCode hcode
    obtain ⟨base, hc⟩ := h.exists_clause (o := o) List.prefix_rfl
    have hrun : Walk.run o (before ++ a :: (inside ++ e :: behind)) =
        behind.foldl (Walk.step o) ((Walk.run o (before ++ a :: inside)).step o e) := by
      rw [← List.cons_append, ← List.append_assoc, Walk.run_append, List.foldl_cons]
    obtain ⟨rest, hrest⟩ := Walk.keeps_foldl o ((Walk.run o (before ++ a :: inside)).step o e) behind e _ hspace
      ⟨[], (Walk.step_inline_out hc hcode).symm⟩
    rw [← hrun, hout] at hrest
    refine ⟨below.reverse, line.reverse, e :: rest.reverse, ?_, hbelow, hinside, rfl, hline⟩
    rw [indentLines, Walk.tokens, ← hrest]
    simp

/-- **Address clauses** are known from the tokens alone, behind any part of the list. Inside of one the walk stacks
clauses on the blocks that were open before it, it comes out of it with these blocks, and writes it on one line. -/
theorem clauses_written_inline (o : Options) (ts : List Token) :
    (∀ front, front <+: ts → ((Walk.run o front).clause.isSome = true ↔ 0 < clauseDepth front)) ∧
    ∀ before a inside behind, ts = before ++ a :: (inside ++ behind) → AddressClause before a inside behind →
      (∀ mid, mid <+: inside → (Walk.run o (before ++ a :: mid)).stack =
        List.replicate (clauseDepth (before ++ a :: mid)) .withArms ++ (Walk.run o before).stack) ∧
      (∀ e ∈ behind.head?, (Walk.run o (before ++ a :: (inside ++ [e]))).stack = (Walk.run o before).stack) ∧
      WrittenInline (indentLines o ts) before a inside behind := by
  refine ⟨fun front _ => Walk.isSome_clause_run o front, ?_⟩
  rintro before a inside behind rfl h
  exact ⟨fun _ => h.stack, fun _ => h.stack_end, h.writtenInline⟩

/-- A clause over three lines with another one in it. -/
def brokenClause : List Token :=
  (lex "transition T (a : ByStr20 with\nfield x : ByStr20 with end,\nmatch end) b").tokens.dropLast

/-- A clause over three lines with another one in it is written on one. -/
theorem clauses_written_inline_nested : ∃ before a inside behind,
    brokenClause = before ++ a :: (inside ++ behind) ∧ AddressClause before a inside behind ∧ behind ≠ [] ∧
      WrittenInline (indentLines {} brokenClause) before a inside behind := by
  obtain ⟨htokens, hclause, hne⟩ : brokenClause = brokenClause.take 11 ++ (brokenClause[11]?.getD .space) ::
        ((brokenClause.take 28).drop 12 ++ brokenClause.drop 28) ∧
      AddressClause (brokenClause.take 11) (brokenClause[11]?.getD .space) ((brokenClause.take 28).drop 12)
        (brokenClause.drop 28) ∧ brokenClause.drop 28 ≠ [] := by
    decide +kernel
  exact ⟨_, _, _, _, htokens, hclause, hne, ((clauses_written_inline {} brokenClause).2 _ _ _ _ htokens hclause).2.2⟩

end ScillaLayout
