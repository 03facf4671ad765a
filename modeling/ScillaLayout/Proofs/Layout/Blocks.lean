import Mathlib.Data.List.TakeWhile
import ScillaLayout.Proofs.Layout.State

/-!
# Match blocks

Which `match` blocks are open can be read off the tokens, as it can for address clauses: `BlockCount` counts a `match`
outside of clauses against the next `end`. From a block on the stack upward, as many blocks are open that `end` closes
as the tokens since it say (`Stack.Above`), whatever else is opened and closed in between (`Stack.Above.step`).

Only the end of a line can close more than that, and only under a binding or a type declaration (`Walk.closesAt`). On
any other blocks a `match` leaves nothing behind when its `end` has come (`Walk.InBlock.close`).
-/

namespace ScillaLayout

/-! ## Address clauses, token by token -/

theorem Before.followsAddressType_eq (b : Before) :
    b.followsAddressType = (solid b).head?.any Token.isAddressType := by
  induction b with
  | nil => rfl
  | cons t b ih =>
    cases ht : t.isSpace with
    | true =>
      rw [solid_cons_space ht, ← ih]
      simp [followsAddressType, nonSpace, seek, ht]
    | false =>
      simp [followsAddressType, nonSpace, seek, ht, solid]
      rfl

namespace Walk

variable {o : Options} {w : Walk}

/-- A token that is no space hides what is before it from a `with`. -/
theorem address_step (o : Options) (w : Walk) (t : Token) :
    (w.step o t).out.sight.address = if t.isSpace then w.out.sight.address else t.isAddressType := by
  show Before.followsAddressType _ = if t.isSpace then w.out.followsAddressType else _
  rw [Before.followsAddressType_eq, Before.followsAddressType_eq, solid_step]
  cases ht : t.isSpace with
  | true => rw [solid_cons_space ht, if_pos rfl]
  | false => rw [solid_cons ht]; rfl

/-- What is no code opens and closes no block. -/
theorem kind_ne_of_not_isCode {t : Token} (h : t.isCode = false) :
    t.kind ≠ .kwMatch ∧ t.kind ≠ .kwWith ∧ t.kind ≠ .kwEnd := by
  refine ⟨?_, ?_, ?_⟩ <;> intro hk <;> simp [Token.isCode, hk, Kind.isCode] at h

/-- Only code opens and closes clauses and starts fields. -/
theorem step_frame {t : Token} (ht : t.isCode = false) :
    (w.step o t).clause = w.clause ∧ (w.step o t).field = w.field := by
  rw [step]
  split
  · rw [newline]
    split
    · exact ⟨(endLine_frame w).2.1, (endLine_frame w).2.2.2⟩
    · exact ⟨rfl, rfl⟩
  · rw [ht, if_neg (by simp), trivia]
    split <;> exact ⟨rfl, rfl⟩

/-- A comment, a blank or the end mark leaves the blocks alone. -/
theorem step_trivia {t : Token} (hn : t.isNewline = false) (ht : t.isCode = false) :
    (w.step o t).stack = w.stack := by
  rw [step, hn, ht, if_neg (by simp), if_neg (by simp), trivia]
  split <;> rfl

theorem step_code {t : Token} (hc : w.clause = none) (ht : t.isCode = true) : w.step o t = w.code o t := by
  rw [step, isNewline_of_isCode ht, ht, if_neg (by simp), if_pos rfl]
  simp only [hc]

/-- A code token inside of a clause. -/
theorem step_inline {base : Nat} (hc : w.clause = some base) {t : Token} (ht : t.isCode = true) :
    (w.step o t).stack = w.inlineStack t.kind ∧ (w.step o t).clause = w.inlineClause base t.kind ∧
      (w.step o t).field = w.field := by
  rw [step, isNewline_of_isCode ht, ht, if_neg (by simp), if_pos rfl]
  simp only [hc, inlineCode]
  split
  · next hk =>
    simp only [inlineStack, inlineClause, hk, Before.sight]
    by_cases ha : w.out.followsAddressType = true <;> simp [ha, write, hc, Stack.move]
  · next hk =>
    simp only [inlineStack, inlineClause, hk]
    exact ⟨rfl, rfl, rfl⟩
  · next hw he =>
    rw [inlineStack_other hw he, inlineClause_other he]
    exact ⟨rfl, hc, rfl⟩

/-- Inside of a clause lines do not end. -/
theorem step_inside {base : Nat} (hc : w.clause = some base) (t : Token) :
    (w.step o t).stack = w.inlineStack t.kind := by
  cases ht : t.isCode with
  | true => exact (step_inline hc ht).1
  | false =>
    obtain ⟨-, hwith, hend⟩ := kind_ne_of_not_isCode ht
    rw [inlineStack_other hwith hend]
    cases hn : t.isNewline with
    | true =>
      rw [step, if_pos hn]
      simp only [newline, hc]
    | false => exact step_trivia hn ht

theorem address_breakLine (o : Options) (w : Walk) (k : Kind) :
    (w.breakLine o k).out.sight.address = w.out.sight.address := by
  show Before.followsAddressType _ = Before.followsAddressType _
  rw [Before.followsAddressType_eq, solid_breakLine, ← Before.followsAddressType_eq]

theorem entered_opensClause (o : Options) (w : Walk) (k : Kind) :
    (w.entered o k).2.opensClause = (k == .kwWith && w.out.sight.address) := by
  rw [entered, enter_opensClause, ← address_breakLine o w k]
  rfl

/-- **One more token** opens and closes the clauses that it says. -/
theorem Clauses.step {n : ClauseCount} (h : w.Clauses n) (t : Token) : (w.step o t).Clauses (n.push t) := by
  have haddress := address_step o w t
  cases ht : t.isCode with
  | true =>
    have hspace : t.isSpace = false := Kind.isSpace_eq_false_of_isCode ht
    rw [hspace, if_neg (by simp)] at haddress
    cases hc : w.clause with
    | none =>
      rw [step_code hc ht] at haddress ⊢
      obtain ⟨-, hstack, hclause, -⟩ := code_frame o w t
      have hopens := entered_opensClause o w t.kind
      rw [hopens, h.address, hc] at hclause
      refine h.outside_code hc hspace haddress (fun hk ha => ?_) hclause
      rw [hk, h.address, ha] at hopens
      rw [hstack, hk, show (w.entered o .kwWith).2.opens = some .withArms from opens_of_opensClause hopens]
      rfl
    | some base =>
      obtain ⟨hstack, hclause, -⟩ := step_inline (o := o) hc ht
      exact h.inside_code hc hspace haddress hstack hclause
  | false =>
    obtain ⟨hclause, -⟩ := step_frame (o := o) (w := w) ht
    obtain ⟨-, hwith, hend⟩ := kind_ne_of_not_isCode ht
    have hpush : (n.push t).depth = n.depth ∧ (w.step o t).out.sight.address = (n.push t).address := by
      cases hs : t.isSpace with
      | true => rw [haddress, hs, if_pos rfl, h.address, ClauseCount.push, if_pos hs]; exact ⟨rfl, rfl⟩
      | false => rw [haddress, hs, if_neg (by simp), ClauseCount.push_other hs hwith hend]; exact ⟨rfl, rfl⟩
    refine ⟨hpush.2, fun hnone => hpush.1 ▸ h.outside (hclause ▸ hnone), fun base hbase => ?_⟩
    rw [hclause] at hbase
    rw [hpush.1, step_inside hbase, inlineStack_other hwith hend]
    exact h.inside base hbase

/-- **The walk is inside of the clauses that its tokens say.** -/
theorem clauses_run (o : Options) (ts : List Token) : (run o ts).Clauses (ts.foldl ClauseCount.push {}) := by
  induction ts using List.reverseRecOn with
  | nil => exact clauses_start
  | append_singleton ts t ih =>
    rw [run_concat, List.foldl_append]
    exact ih.step t

end Walk

/-! ## Counting blocks -/

/-- What tokens say of the `match` blocks that they open. -/
structure BlockCount where
  /-- Number of `match` blocks that are open. -/
  depth : Nat := 0
  /-- The address clauses in them. Inside of a clause `match` opens nothing, and `end` closes the clause. -/
  clauses : ClauseCount := {}
  deriving DecidableEq, Repr

namespace BlockCount

/-- One more token. -/
def push (n : BlockCount) (t : Token) : BlockCount where
  depth :=
    if n.clauses.depth = 0 then
      match t.kind with
      | .kwMatch => n.depth + 1
      | .kwEnd => n.depth - 1
      | _ => n.depth
    else n.depth
  clauses := n.clauses.push t

/-- Number of blocks that are open, with the address clauses. -/
def total (n : BlockCount) : Nat := n.depth + n.clauses.depth

/-- Directly in the outermost block. -/
def isDirect (n : BlockCount) : Bool := n.depth = 1 && n.clauses.depth = 0

/-- Whether the outermost block stays open behind all of the tokens, and none of them is the keyword of a top-level
declaration outside of clauses. -/
def stays (n : BlockCount) : List Token → Bool
  | [] => true
  | t :: ts => 0 < (n.push t).depth && (0 < n.clauses.depth || !t.kind.isTopLevel) && (n.push t).stays ts

variable {n : BlockCount} {t : Token}

theorem stays_cons {ts : List Token} (h : n.stays (t :: ts) = true) :
    0 < (n.push t).depth ∧ (n.clauses.depth = 0 → t.kind.isTopLevel = false) ∧ (n.push t).stays ts = true := by
  simp only [stays, Bool.and_eq_true, Bool.or_eq_true, decide_eq_true_eq, Bool.not_eq_true'] at h
  exact ⟨h.1.1, fun hz => h.1.2.resolve_left (by omega), h.2⟩

theorem stays_head {ts : List Token} (h : n.stays (t :: ts) = true) : n.stays [t] = true := by
  simp only [stays, Bool.and_eq_true] at h ⊢
  exact ⟨h.1, trivial⟩

theorem stays_append {ts us : List Token} :
    n.stays (ts ++ us) = (n.stays ts && (ts.foldl push n).stays us) := by
  induction ts generalizing n with
  | nil => rfl
  | cons t ts ih => simp only [List.cons_append, stays, ih, List.foldl_cons, Bool.and_assoc]

theorem isDirect_iff : n.isDirect = true ↔ n.depth = 1 ∧ n.clauses.depth = 0 := by
  simp [isDirect]

theorem total_of_isDirect (h : n.isDirect = true) : n.total = 1 := by
  obtain ⟨hdepth, hclauses⟩ := isDirect_iff.1 h
  rw [total, hdepth, hclauses]

/-- Other tokens open and close no block. -/
theorem push_other (hm : t.kind = .kwMatch → n.clauses.depth ≠ 0) (hw : t.kind ≠ .kwWith) (he : t.kind ≠ .kwEnd) :
    (n.push t).depth = n.depth ∧ (n.push t).clauses.depth = n.clauses.depth := by
  constructor
  · by_cases hc : n.clauses.depth = 0
    · have hm : t.kind ≠ .kwMatch := fun hk => hm hk hc
      simp only [push, hc, if_true]
    · simp only [push, hc, if_false]
  · exact ClauseCount.depth_push_other hw he n.clauses

theorem total_push_other (hm : t.kind = .kwMatch → n.clauses.depth ≠ 0) (hw : t.kind ≠ .kwWith)
    (he : t.kind ≠ .kwEnd) : (n.push t).total = n.total := by
  obtain ⟨hdepth, hclauses⟩ := push_other hm hw he
  rw [total, total, hdepth, hclauses]

theorem isDirect_push_other (hm : t.kind ≠ .kwMatch) (hw : t.kind ≠ .kwWith) (he : t.kind ≠ .kwEnd) :
    (n.push t).isDirect = n.isDirect := by
  obtain ⟨hdepth, hclauses⟩ := push_other (n := n) (absurd · hm) hw he
  rw [isDirect, isDirect, hdepth, hclauses]

theorem total_push_match (hk : t.kind = .kwMatch) (hc : n.clauses.depth = 0) : (n.push t).total = n.total + 1 := by
  have hclauses : (n.push t).clauses.depth = n.clauses.depth := by
    simp [push, ClauseCount.push, Token.isSpace, hk, Kind.isSpace]
  have hdepth : (n.push t).depth = n.depth + 1 := by simp [push, hc, hk]
  rw [total, total, hdepth, hclauses]
  omega

theorem total_push_with (hk : t.kind = .kwWith) :
    (n.push t).total = if n.clauses.address then n.total + 1 else n.total := by
  have hdepth : (n.push t).depth = n.depth := by simp [push, hk]
  rw [total, total, hdepth, push, ClauseCount.push_with hk]
  cases n.clauses.address <;> simp [Nat.add_assoc]

/-- An `end` that leaves the outermost block open closes another one. -/
theorem total_push_end (hk : t.kind = .kwEnd) (h : 0 < (n.push t).depth) :
    (n.push t).total + 1 = n.total ∧ 0 < (n.push t).total := by
  have hclauses : (n.push t).clauses.depth = n.clauses.depth - 1 := by simp [push, ClauseCount.push_end hk]
  have hdepth : (n.push t).depth = if n.clauses.depth = 0 then n.depth - 1 else n.depth := by simp [push, hk]
  rw [total, total, hclauses]
  split at hdepth <;> omega

end BlockCount

/-! ## Blocks above another -/

namespace Stack

variable {ps : List Block} {below s : Stack} {n : Nat}

/-- Kinds of blocks that keep their place on the stack when what is above them closes. -/
structure Pivots (ps : List Block) : Prop where
  bounds : ∀ p ∈ ps, boundsAlternative p = true
  arms : .matchArms ∈ ps → .withArms ∈ ps

/-- On `below` stands one of the blocks `ps`, and above it `n - 1` blocks that `end` closes, among others. -/
def Above (ps : List Block) (below : Stack) (n : Nat) (s : Stack) : Prop :=
  ∃ above p, p ∈ ps ∧ s = above ++ p :: below ∧ above.countP Block.isEndTarget + 1 = n

/-- Whether the nearest block that keeps alternatives apart is an alternative itself. -/
def inArm (s : Stack) : Bool := s.find? boundsAlternative == some .bar

/-- Above an alternative that is the nearest bound everything closes with it. -/
theorem close_bar {above : Stack} (h : ∀ b ∈ above, boundsAlternative b = false) (below : Stack) :
    closeAlternative (above ++ .bar :: below) = below ∧ closeThroughBar (above ++ .bar :: below) = below := by
  constructor
  · have hdrop : (above ++ .bar :: below).dropWhile (!boundsAlternative ·) = .bar :: below := by
      rw [List.dropWhile_append_of_pos (by simpa using h)]
      rfl
    rw [closeAlternative, hdrop]
  · have hne : ∀ b ∈ above, (!decide (b = .bar)) = true := by
      intro b hb
      have hne : b ≠ .bar := fun heq => by simpa [heq, boundsAlternative] using h b hb
      simp [hne]
    rw [closeThroughBar, dropThrough, List.dropWhile_append_of_pos hne]
    rfl

theorem exists_of_inArm (h : s.inArm = true) :
    ∃ above below, s = above ++ .bar :: below ∧ ∀ b ∈ above, boundsAlternative b = false := by
  obtain ⟨-, above, below, hs, hbounds⟩ := List.find?_eq_some_iff_append.1 (beq_iff_eq.1 h)
  exact ⟨above, below, hs, fun b hb => by simpa using hbounds b hb⟩

theorem closeThroughBar_of_inArm (h : s.inArm = true) : s.closeThroughBar = s.closeAlternative := by
  obtain ⟨above, below, rfl, hbounds⟩ := exists_of_inArm h
  rw [(close_bar hbounds below).1, (close_bar hbounds below).2]

theorem closeAlternative_of_not_inArm (h : s.inArm = false) : s.closeAlternative = s := by
  unfold closeAlternative
  split
  · next below hfound =>
    have hs : s = s.takeWhile (!boundsAlternative ·) ++ .bar :: below := by
      rw [← hfound, List.takeWhile_append_dropWhile]
    have hbounds : ∀ b ∈ s.takeWhile (!boundsAlternative ·), (!boundsAlternative b) = true :=
      fun _ => List.mem_takeWhile_imp
    have hfind : s.find? boundsAlternative = some .bar :=
      List.find?_eq_some_iff_append.2 ⟨rfl, _, below, hs, hbounds⟩
    simp [inArm, hfind] at h
  · rfl

theorem boundsAlternative_of_isArmBound {b : Block} (h : b.isArmBound = true) : boundsAlternative b = true := by
  simp only [Block.isArmBound, Bool.or_eq_true, decide_eq_true_eq] at h
  rcases h with h | rfl
  · simp [boundsAlternative, h]
  · rfl

/-- An alternative stands on blocks that are in no arm of their own. -/
theorem not_inArm_of_mayOpenOn (h : Block.bar.MayOpenOn s) : s.inArm = false := by
  cases harm : s.inArm with
  | false => rfl
  | true =>
    obtain ⟨above, below, hs, hbounds⟩ := exists_of_inArm harm
    obtain ⟨b, hb, hbound⟩ := h.alternative rfl above below hs
    have hnot := hbounds b hb
    rw [boundsAlternative_of_isArmBound hbound] at hnot
    cases hnot

/-! ### What stays above -/

theorem above_start {p : Block} (hp : p ∈ ps) (below : Stack) : Above ps below 1 (p :: below) := ⟨[], p, hp, rfl, rfl⟩

namespace Above

theorem suffix (h : Above ps below n s) : below <:+ s := by
  obtain ⟨above, p, -, rfl, -⟩ := h
  exact (List.suffix_cons p below).trans (List.suffix_append above _)

theorem push (h : Above ps below n s) (b : Block) :
    Above ps below (if b.isEndTarget then n + 1 else n) (b :: s) := by
  obtain ⟨above, p, hp, rfl, rfl⟩ := h
  refine ⟨b :: above, p, hp, rfl, ?_⟩
  rw [List.countP_cons]
  split <;> omega

theorem push_other (h : Above ps below n s) {b : Block} (hb : b.isEndTarget = false) : Above ps below n (b :: s) := by
  simpa [hb] using h.push b

/-- A closing bracket closes a bracket above. -/
theorem closeBracket (h : Above ps below n s) (hps : Pivots ps) {opener : Block}
    (hb : boundsAlternative opener = false) : Above ps below n (s.closeBracket opener) := by
  obtain ⟨above, p, hp, rfl, rfl⟩ := h
  unfold Stack.closeBracket
  split
  · next htop =>
    cases above with
    | nil =>
      obtain rfl : p = opener := Option.some.inj htop
      rw [hps.bounds p hp] at hb
      cases hb
    | cons b above =>
      obtain rfl : b = opener := Option.some.inj htop
      have hend : b.isEndTarget = false := by
        simp only [boundsAlternative, Bool.or_eq_false_iff] at hb
        exact hb.2
      exact ⟨above, p, hp, rfl, by simp [hend]⟩
  · exact ⟨above, p, hp, rfl, rfl⟩

/-- A `match` may turn into its arms. -/
theorem arms (h : Above ps below n (.matchArms :: s)) (hps : Pivots ps) : Above ps below n (.withArms :: s) := by
  obtain ⟨above, p, hp, hs, rfl⟩ := h
  cases above with
  | nil =>
    obtain ⟨rfl, rfl⟩ := List.cons.inj hs
    exact ⟨[], .withArms, hps.arms hp, rfl, rfl⟩
  | cons b above =>
    obtain ⟨rfl, rfl⟩ := List.cons.inj hs
    exact ⟨.withArms :: above, p, hp, rfl, rfl⟩

/-- An `end` closes the innermost block above. -/
theorem closeBlock (h : Above ps below (n + 1) s) (hn : 0 < n) : Above ps below n s.closeBlock := by
  obtain ⟨above, p, hp, rfl, hcount⟩ := h
  have hcount : above.countP Block.isEndTarget = n := by omega
  obtain ⟨b, hb, hend⟩ := List.countP_pos_iff.1 (hcount ▸ hn)
  obtain ⟨c, hfind⟩ := Option.isSome_iff_exists.1 (List.find?_isSome.2 ⟨b, hb, hend⟩)
  obtain ⟨hc, front, rest, rfl, hfront⟩ := List.find?_eq_some_iff_append.1 hfind
  have hclose : Stack.closeBlock (front ++ c :: rest ++ p :: below) = rest ++ p :: below := by
    rw [Stack.closeBlock, dropThrough, List.append_assoc, List.dropWhile_append_of_pos hfront]
    simp [hc]
  have hnone : front.countP Block.isEndTarget = 0 := List.countP_eq_zero.2 fun b hb => by simpa using hfront b hb
  rw [hclose]
  refine ⟨rest, p, hp, rfl, ?_⟩
  rw [List.countP_append, List.countP_cons, hnone, if_pos hc] at hcount
  omega

/-- When an arm closes it is one above, or the pivot itself. -/
theorem closeArm (h : Above ps below n s) (hps : Pivots ps) (harm : s.inArm = true) :
    Above ps below n s.closeAlternative ∨ (.bar ∈ ps ∧ n = 1 ∧ s.closeAlternative = below) := by
  obtain ⟨above, p, hp, rfl, rfl⟩ := h
  obtain ⟨front, rest, hs, hfront⟩ := exists_of_inArm harm
  have hnone : front.countP Block.isEndTarget = 0 := by
    refine List.countP_eq_zero.2 fun b hb => ?_
    have hbound := hfront b hb
    simp only [boundsAlternative, Bool.or_eq_false_iff] at hbound
    simp [hbound.2]
  rw [show closeAlternative (above ++ p :: below) = rest from hs ▸ (close_bar hfront rest).1]
  obtain ⟨mid, hmid, hrest⟩ | ⟨mid, hmid, hrest⟩ := List.append_eq_append_iff.1 hs
  · cases mid with
    | nil =>
      obtain ⟨rfl, rfl⟩ := List.cons.inj hrest
      rw [List.append_nil] at hmid
      exact .inr ⟨hp, by rw [← hmid, hnone], rfl⟩
    | cons c mid =>
      -- the pivot is a bound itself
      obtain ⟨rfl, -⟩ := List.cons.inj hrest
      have hbound := hfront p (by simp [hmid])
      rw [hps.bounds p hp] at hbound
      cases hbound
  · cases mid with
    | nil =>
      obtain ⟨rfl, rfl⟩ := List.cons.inj hrest
      rw [List.append_nil] at hmid
      exact .inr ⟨hp, by rw [hmid, hnone], rfl⟩
    | cons c mid =>
      obtain ⟨rfl, rfl⟩ := List.cons.inj hrest
      refine .inl ⟨mid, p, hp, rfl, ?_⟩
      rw [hmid, List.countP_append, hnone, List.countP_cons_of_neg (by decide), Nat.zero_add]

/-- A new alternative closes its sibling above, or takes the place of the pivot. -/
theorem alternative (h : Above ps below n s) (hps : Pivots ps) : Above ps below n (.bar :: s.closeAlternative) := by
  cases harm : s.inArm with
  | false =>
    rw [closeAlternative_of_not_inArm harm]
    exact h.push_other rfl
  | true =>
    obtain h | ⟨hbar, rfl, hclose⟩ := h.closeArm hps harm
    · exact h.push_other rfl
    · exact hclose ▸ above_start hbar below

/-- The outermost block is below the pivot, or the pivot. -/
theorem base? (h : Above ps below n s) : ∃ p ∈ ps, s.base? = Stack.base? (p :: below) := by
  obtain ⟨above, p, hp, rfl, -⟩ := h
  exact ⟨p, hp, List.getLast?_append_of_ne_nil _ (List.cons_ne_nil p below)⟩

end Above

end Stack

/-! ## One token -/

namespace Walk

variable {o : Options} {w : Walk} {t : Token}

/-- Whether a line ends at the token `t`: with a line break, or before a token that has to start a line. Inside of a
clause no line ends. -/
def endsLineAt (w : Walk) (t : Token) : Bool :=
  w.clause.isNone && (t.isNewline || t.isCode && !w.out.isLineStart && w.breaksBefore t.kind)

/-- Whether the line that ends at `t` completes a binding or a type alternative, so that blocks are closed. -/
def closesAt (w : Walk) (t : Token) : Bool := w.endsLineAt t && w.out.onLine.head?.any (w.completes ·.kind)

/-- The open blocks at `t`, when the line that ends there is complete. -/
def blocksAt (w : Walk) (t : Token) : Stack := if w.closesAt t then w.stack.closeThroughBar else w.stack

theorem endLine_stack (w : Walk) : w.endLine.stack =
    if w.out.onLine.head?.any (w.completes ·.kind) then w.stack.closeThroughBar else w.stack := by
  unfold endLine
  cases w.out.onLine with
  | nil => rfl
  | cons last line =>
    simp only [List.head?_cons, Option.any_some]
    by_cases h : w.completes last.kind = true
    · simp only [h, if_true]
      rfl
    · simp only [h, Bool.false_eq_true, if_false]

theorem blocksAt_of_not_endsLineAt (h : w.endsLineAt t = false) : w.blocksAt t = w.stack := by
  simp [blocksAt, closesAt, h]

theorem blocksAt_of_endsLineAt (h : w.endsLineAt t = true) : w.blocksAt t = w.endLine.stack := by
  simp [blocksAt, closesAt, h, endLine_stack]

theorem blocksAt_inside {base : Nat} (hc : w.clause = some base) (t : Token) : w.blocksAt t = w.stack :=
  blocksAt_of_not_endsLineAt (by simp [endsLineAt, hc])

theorem breakLine_stack (hc : w.clause = none) (ht : t.isCode = true) :
    (w.breakLine o t.kind).stack = w.blocksAt t := by
  have hends : w.endsLineAt t = (!w.out.isLineStart && w.breaksBefore t.kind) := by
    simp [endsLineAt, hc, ht, isNewline_of_isCode ht]
  rw [breakLine]
  split
  · next h => exact (blocksAt_of_endsLineAt (hends.trans h)).symm
  · next h => exact (blocksAt_of_not_endsLineAt (hends.trans (by simpa using h))).symm

/-- A token that is no code changes the blocks only where a line ends. -/
theorem step_stack_of_not_isCode (hc : w.clause = none) (ht : t.isCode = false) :
    (w.step o t).stack = w.blocksAt t := by
  cases hn : t.isNewline with
  | true =>
    rw [blocksAt_of_endsLineAt (by simp [endsLineAt, hc, hn]), step, if_pos hn]
    simp only [newline, hc]
    rfl
  | false => rw [blocksAt_of_not_endsLineAt (by simp [endsLineAt, hn, ht]), step_trivia hn ht]

end Walk

namespace Stack.Above

variable {o : Options} {w : Walk} {t : Token} {ps : List Block} {below : Stack} {n : BlockCount}

/-- A `with` opens an address clause, or turns a `match` into its arms. -/
theorem enterWith {k : Nat} (h : Above ps below k w.stack) (hps : Pivots ps) :
    Above ps below (if w.out.sight.address then k + 1 else k) (w.enterWith.2.opens.toList ++ w.enterWith.1.stack) := by
  show Above ps below (if w.out.followsAddressType then k + 1 else k) _
  by_cases ha : w.out.followsAddressType = true
  · simp only [Walk.enterWith, ha, if_true]
    exact h.push .withArms
  · simp only [Walk.enterWith, ha, Bool.false_eq_true, if_false]
    by_cases htop : w.stack.top? = some .matchArms
    · simp only [htop, if_true, Option.toList_none, List.nil_append, Walk.move_stack]
      obtain ⟨rest, hs⟩ := List.head?_eq_some_iff.1 htop
      rw [hs] at h ⊢
      exact h.arms hps
    · simp only [htop, if_false]
      exact h

/-- A code token that closes not all blocks opens and closes those above that it says. -/
theorem enter (h : Above ps below n.total w.stack) (hps : Pivots ps) (hc : n.clauses.depth = 0)
    (ha : w.out.sight.address = n.clauses.address) (hclears : w.clears t.kind = false)
    (hstay : 0 < (n.push t).depth) :
    Above ps below (n.push t).total ((w.enter o t.kind).2.opens.toList ++ (w.enter o t.kind).1.stack) := by
  by_cases hmatch : t.kind = .kwMatch
  · rw [BlockCount.total_push_match hmatch hc, hmatch]
    exact h.push .matchArms
  by_cases hwith : t.kind = .kwWith
  · rw [BlockCount.total_push_with hwith, hwith, ← ha]
    exact h.enterWith hps
  by_cases hend : t.kind = .kwEnd
  · obtain ⟨htotal, hpos⟩ := BlockCount.total_push_end hend hstay
    rw [hend]
    exact (htotal ▸ h).closeBlock hpos
  rw [BlockCount.total_push_other (absurd · hmatch) hwith hend]
  generalize t.kind = k at *
  cases k with
  | kwMatch => exact absurd rfl hmatch
  | kwWith => exact absurd rfl hwith
  | kwEnd => exact absurd rfl hend
  | kwImport | kwLibrary | kwScillaVersion | kwContract | kwTransition | kwProcedure | kwType | kwField => cases hclears
  | kwFun | kwTfun =>
    simp only [Walk.enter, Walk.enterFunction]
    split
    · exact h
    · exact h.push_other rfl
  | kwLet =>
    have hfresh : w.isFreshLet = false := by simpa [Walk.clears, Kind.isTopLevel] using hclears
    simp only [Walk.enter, Walk.enterLet, hfresh, Bool.false_eq_true, if_false]
    split
    · exact h
    · exact h.push_other rfl
  | bar => exact h.alternative hps
  | kwIn =>
    simp only [Walk.enter]
    split <;> exact h
  | lparen | lbrace | lsqb => exact h.push_other rfl
  | rparen | rbrace | rsqb =>
    simp only [Walk.enter, Walk.enterCloser]
    split <;> exact h.closeBracket hps rfl
  | _ => exact h

/-- **One token** inside of a block opens and closes the blocks above that it says. -/
theorem step (h : Above ps below n.total (w.blocksAt t)) (hps : Pivots ps) (hcount : w.Clauses n.clauses)
    (hstay : n.stays [t] = true)
    (hfresh : w.clause = none → t.kind = .kwLet → (w.breakLine o t.kind).isFreshLet = false) :
    Above ps below (n.push t).total (w.step o t).stack := by
  obtain ⟨hpos, htop, -⟩ := BlockCount.stays_cons hstay
  cases hc : w.clause with
  | some base =>
    rw [Walk.blocksAt_inside hc] at h
    rw [Walk.step_inside hc]
    by_cases hwith : t.kind = .kwWith
    · rw [BlockCount.total_push_with hwith]
      simp only [Walk.inlineStack, hwith, hcount.address]
      cases n.clauses.address with
      | true => exact h.push .withArms
      | false => exact h
    by_cases hend : t.kind = .kwEnd
    · obtain ⟨htotal, hpos⟩ := BlockCount.total_push_end hend hpos
      simp only [Walk.inlineStack, hend]
      exact (htotal ▸ h).closeBlock hpos
    · have hin := (hcount.inside base hc).1
      rw [Walk.inlineStack_other hwith hend, BlockCount.total_push_other (fun _ => by omega) hwith hend]
      exact h
  | none =>
    have hzero := hcount.outside hc
    cases ht : t.isCode with
    | false =>
      obtain ⟨hmatch, hwith, hend⟩ := Walk.kind_ne_of_not_isCode ht
      rw [Walk.step_stack_of_not_isCode hc ht, BlockCount.total_push_other (absurd · hmatch) hwith hend]
      exact h
    | true =>
      obtain ⟨-, hstack, -⟩ := Walk.code_frame o w t
      rw [Walk.step_code hc ht, hstack]
      rw [← Walk.breakLine_stack (o := o) hc ht] at h
      refine h.enter hps hzero ((Walk.address_breakLine o w t.kind).trans hcount.address) ?_ hpos
      by_cases hlet : t.kind = .kwLet
      · simp [Walk.clears, htop hzero, hfresh hc hlet]
      · simp [Walk.clears, htop hzero, hlet]

end Stack.Above

/-! ## Under neither a binding nor a type declaration -/

namespace Stack

variable {below s : Stack} {n : Nat}

/-- The outermost block, if there is one, is neither a binding nor a type declaration. -/
def Calm (s : Stack) : Prop := s.base? ≠ some .letIn ∧ s.base? ≠ some .typeDecl

theorem calm_nil : Calm [] := ⟨by simp [base?], by simp [base?]⟩

/-- What is below an open block is calm if the whole is. -/
theorem Calm.of_cons {b : Block} (h : Calm (b :: s)) : s.Calm := by
  cases s with
  | nil => exact calm_nil
  | cons c s => exact h

/-- The blocks of a `match` do not change what is outermost, or are outermost themselves. -/
theorem Above.calm (h : Above [.matchArms, .withArms] below n s) (hbelow : below.Calm) : s.Calm := by
  obtain ⟨p, hp, hbase⟩ := h.base?
  rw [Calm, hbase]
  cases below with
  | nil =>
    simp only [List.mem_cons, List.not_mem_nil, or_false] at hp
    rcases hp with rfl | rfl <;> exact ⟨by decide, by decide⟩
  | cons b below => exact hbelow

/-- Where nothing is open above its own block, an `end` closes that block. -/
theorem Above.closeBlock_self {ps : List Block} (h : Above ps below 1 s) (hps : ∀ p ∈ ps, p.isEndTarget = true) :
    s.closeBlock = below := by
  obtain ⟨above, p, hp, rfl, hcount⟩ := h
  have hnone : ∀ b ∈ above, (!b.isEndTarget) = true := by
    have hzero : above.countP Block.isEndTarget = 0 := by omega
    simpa [List.countP_eq_zero] using hzero
  rw [Stack.closeBlock, dropThrough, List.dropWhile_append_of_pos hnone]
  simp [hps p hp]

end Stack

namespace Walk

variable {o : Options} {w : Walk} {t : Token}

theorem pivots_arms : Stack.Pivots [.matchArms, .withArms] :=
  ⟨by simp [Stack.boundsAlternative, Block.isEndTarget], by simp⟩

/-- On calm blocks no line completes anything, and no binding starts afresh. -/
theorem quiet_of_calm (h : w.stack.Calm) (t : Token) : w.closesAt t = false ∧ w.isFreshLet = false := by
  have hcompletes : ∀ k, w.completes k = false := by
    intro k
    rw [completes]
    split
    · next hb => exact absurd hb h.1
    · next hb => exact absurd hb h.2
    · rfl
  constructor
  · simp [closesAt, hcompletes]
  · rw [isFreshLet]
    split
    · next hb => exact absurd hb h.2
    · next hb => exact absurd hb h.1
    · rfl

theorem blocksAt_of_calm (h : w.stack.Calm) (t : Token) : w.blocksAt t = w.stack := by
  simp [blocksAt, (quiet_of_calm h t).1]

theorem breakLine_not_fresh (h : w.stack.Calm) (hc : w.clause = none) (hk : t.kind = .kwLet) :
    (w.breakLine o t.kind).isFreshLet = false := by
  have hcode : t.isCode = true := by simp [Token.isCode, hk, Kind.isCode]
  have hstack : (w.breakLine o t.kind).stack = w.stack := (breakLine_stack hc hcode).trans (blocksAt_of_calm h t)
  exact (quiet_of_calm (hstack.symm ▸ h) t).2

/-- A field declaration stays the one that is being made, unless a token closes all blocks. -/
theorem step_field (htop : w.clause = none → t.kind.isTopLevel = false)
    (hfresh : w.clause = none → t.kind = .kwLet → (w.breakLine o t.kind).isFreshLet = false) :
    (w.step o t).field = w.field := by
  cases ht : t.isCode with
  | false => exact (step_frame ht).2
  | true =>
    cases hc : w.clause with
    | some base => exact (step_inline hc ht).2.2
    | none =>
      have hopens : (w.entered o t.kind).2.opens ≠ some .field := by
        intro h
        have htop := htop hc
        rw [enter_opens_field.1 h] at htop
        cases htop
      have hclears : ¬(w.breakLine o t.kind).clears t.kind = true := by
        by_cases hk : t.kind = .kwLet
        · simp [clears, htop hc, hfresh hc hk]
        · simp [clears, htop hc, hk]
      rw [step_code hc ht, (code_frame o w t).2.2.2, if_neg hopens, entered, (enter_frame t.kind).2.2.2, if_neg hclears,
        (breakLine_frame w t.kind).2.1]

/-- The walk is inside of a `match` block on the blocks `below`, as deep as `n` counts from that block on, and `field`
is noted for the field that is being declared. -/
structure InBlock (below : Stack) (field : Option Nat) (n : BlockCount) (w : Walk) : Prop where
  above : Stack.Above [.matchArms, .withArms] below n.total w.stack
  clauses : w.Clauses n.clauses
  field : w.field = field

/-- A `match` opens its block on what is open at its line. -/
theorem step_match_stack (hc : w.clause = none) (hk : t.kind = .kwMatch) :
    (w.step o t).stack = .matchArms :: w.blocksAt t := by
  have hcode : t.isCode = true := by simp [Token.isCode, hk, Kind.isCode]
  rw [step_code hc hcode, (code_frame o w t).2.1, ← breakLine_stack (o := o) hc hcode, hk]
  rfl

theorem inBlock_start (hc : w.clause = none) (hk : t.kind = .kwMatch) :
    (w.step o t).InBlock (w.blocksAt t) w.field { depth := 1 } := by
  have hcode : t.isCode = true := by simp [Token.isCode, hk, Kind.isCode]
  have hspace : t.isSpace = false := Kind.isSpace_eq_false_of_isCode hcode
  have haddress : (w.step o t).out.sight.address = false := by
    rw [address_step, hspace, if_neg (by simp)]
    simp [Token.isAddressType, hk]
  have hclause : (w.step o t).clause = none := by
    rw [step_code hc hcode, (code_frame o w t).2.2.1, entered_opensClause, hk]
    exact hc
  refine ⟨?_, ⟨haddress, fun _ => rfl, by simp [hclause]⟩, ?_⟩
  · rw [step_match_stack hc hk]
    exact Stack.above_start List.mem_cons_self _
  · exact step_field (fun _ => by rw [hk]; rfl) (fun _ hlet => by rw [hk] at hlet; cases hlet)

namespace InBlock

variable {below : Stack} {field : Option Nat} {n : BlockCount}

theorem calm (h : w.InBlock below field n) (hbelow : below.Calm) : w.stack.Calm := h.above.calm hbelow

/-- **One token** inside of a block. -/
theorem step (h : w.InBlock below field n) (hbelow : below.Calm) (hstay : n.stays [t] = true) :
    (w.step o t).InBlock below field (n.push t) := by
  have hcalm := h.calm hbelow
  have hfresh := breakLine_not_fresh (o := o) (t := t) hcalm
  obtain ⟨-, htop, -⟩ := BlockCount.stays_cons hstay
  refine ⟨?_, h.clauses.step t, (step_field (fun hc => htop (h.clauses.outside hc)) hfresh).trans h.field⟩
  exact Stack.Above.step ((blocksAt_of_calm hcalm t).symm ▸ h.above) pivots_arms h.clauses hstay hfresh

/-- **All tokens** inside of a block. -/
theorem foldl {ts : List Token} (h : w.InBlock below field n) (hbelow : below.Calm) (hstay : n.stays ts = true) :
    (ts.foldl (Walk.step o) w).InBlock below field (ts.foldl BlockCount.push n) := by
  induction ts generalizing w n with
  | nil => exact h
  | cons t ts ih => exact ih (h.step hbelow (BlockCount.stays_head hstay)) (BlockCount.stays_cons hstay).2.2

/-- **Its own `end`** closes a block and leaves the walk as it was before. -/
theorem close (h : w.InBlock below field n) (hbelow : below.Calm) (hdirect : n.isDirect = true)
    (hk : t.kind = .kwEnd) :
    (w.step o t).stack = below ∧ (w.step o t).field = field ∧ (w.step o t).clause = none := by
  have hcode : t.isCode = true := by simp [Token.isCode, hk, Kind.isCode]
  have hcalm := h.calm hbelow
  have hc := h.clauses.clause_eq_none (BlockCount.isDirect_iff.1 hdirect).2
  have habove : Stack.Above [.matchArms, .withArms] below 1 w.stack :=
    BlockCount.total_of_isDirect hdirect ▸ h.above
  obtain ⟨-, hstack, hclause, -⟩ := code_frame o w t
  rw [← step_code (o := o) hc hcode] at hstack hclause
  have hclosed : (w.step o t).stack = w.stack.closeBlock := by
    rw [hstack, ← blocksAt_of_calm hcalm t, ← breakLine_stack (o := o) hc hcode, hk]
    rfl
  refine ⟨?_, ?_, ?_⟩
  · rw [hclosed]
    exact habove.closeBlock_self (by simp [Block.isEndTarget])
  · exact (step_field (fun _ => by rw [hk]; rfl) (breakLine_not_fresh hcalm)).trans h.field
  · rw [hclause, entered_opensClause, hk]
    exact hc

end InBlock

end Walk

end ScillaLayout
