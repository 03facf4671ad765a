import Mathlib.Data.List.Infix
import ScillaLayout.Proofs.Editing.Lines
import ScillaLayout.Proofs.Editing.Walker
import ScillaLayout.Proofs.Layout.Neutral

/-!
# What the loop visits

The loop of the walk goes by an index into a sequence that changes under it: a turn may put a line break before its
token, take blanks away around it, or both. Here the same loop keeps a record of the calls that it makes
(`Cursor.recordFrom`), each with the sequence and the index at that time, and does what the loop does without it
(`Cursor.erases_recordVisit`).

What a turn can do is said once (`Turn`, `Cursor.recordVisit_of`), and each property of the record is read off a turn
and then carried along the turns of the loop (`Turns`). Equal tokens are told apart by what stands around them: when a
token is visited nothing behind it has been changed, so all that is ahead says which token of the input it is
(`startsAt`), and what is before a line break is not changed any more once its line has ended, so it says which line
break of the result this is (`lineEnds`).

Every code token and every line break is visited once, a line break that is put in is not visited, and the end of every
line of the result is run once, between the code before it and the code behind it (`cursor_visits_once`).
-/

namespace ScillaLayout.Editing

open Checked (loop loop_done loop_turn)
open Sequence

/-! ## Calls -/

/-- The parts of the loop whose calls are recorded. -/
inductive Callee where
  | visitNewline | visitCode | visitInline | breakLine | endOfLine | enter
  deriving DecidableEq, Repr

/-- A call: what is called, and the loop at that time. -/
structure Call where
  callee : Callee
  cursor : Cursor

namespace Call

/-- The tokens before the one that the call is about. -/
def before (c : Call) : List Token := c.cursor.tokens.take c.cursor.index

/-- The token that the call is about, and those behind it. -/
def ahead (c : Call) : List Token := c.cursor.tokens.drop c.cursor.index

/-- The tokens up to the one that the call is about, and with it. -/
def through (c : Call) : List Token := c.cursor.tokens.take (c.cursor.index + 1)

/-- Whether the call enters a code token, inside or outside of an address clause. -/
def enters (c : Call) : Bool := c.callee = .enter || c.callee = .visitInline

end Call

/-- An edit that keeps a record of calls, the oldest first. -/
abbrev Recorded := StateT (List Call) Checked

/-- Records a call. -/
def record (callee : Callee) (c : Cursor) : Recorded Unit := modify (· ++ [⟨callee, c⟩])

namespace Cursor

/-! ## The loop with a record -/

/-- Closes what the line that ends at the index completes. -/
def recordEndOfLine (c : Cursor) : Recorded Cursor := do
  record .endOfLine c
  c.endOfLine

/-- A line break. -/
def recordNewline (c : Cursor) : Recorded Cursor := do
  record .visitNewline c
  match c.clause with
  | none => c.recordEndOfLine
  | some _ =>
    let c ← c.trim
    let tokens ← c.tokens.dropBehind (·.isWhitespace) c.index
    return { c with tokens := tokens.set c.index .space }

/-- Puts a line break before the token and goes on to the token. -/
def recordBreak (o : Options) (c : Cursor) : Recorded Cursor := do
  record .breakLine c
  let c ← { c with tokens := ← c.tokens.insertAt c.index o.newlineToken }.recordEndOfLine
  return c.next

/-- Puts a line break before a code token that has to start a line and does not yet. -/
def recordStartLine (o : Options) (c : Cursor) (k : Kind) : Recorded Cursor := do
  if ← c.tokens.isFirstOnLine c.index then return c
  else if ← c.breaksBefore k then c.recordBreak o
  else return c

/-- A code token. -/
def recordCode (o : Options) (c : Cursor) (k : Kind) : Recorded Cursor := do
  record .visitCode c
  match c.clause with
  | some base =>
    record .visitInline c
    c.visitInline base k
  | none =>
    let c ← c.recordStartLine o k
    record .enter c
    let (c, effect) ← c.enter o k
    let c ← c.indentLine o effect.dedent
    let c := if effect.opensClause then { c with clause := some c.stack.length } else c
    match effect.opens with
    | some b => return c.openBlock b
    | none => return c

/-- The token at the index. -/
def recordVisit (o : Options) (c : Cursor) : Recorded Cursor := do
  let t ← c.tokens.read c.index
  if t.isNewline then c.recordNewline else if t.isCode then c.recordCode o t.kind else return c

/-- The walk from the index to the end, with the calls so far and those to come. -/
def recordFrom (o : Options) (c : Cursor) (calls : List Call) : Checked (Sequence × List Call) := do
  let (c, calls) ← loop (fun (c, _) => return c.index < c.tokens.length)
    (fun (c, calls) => do
      let (c, calls) ← (c.recordVisit o).run calls
      return (c.next, calls))
    (c, calls)
  return (c.tokens, calls)

end Cursor

/-! ## The record changes nothing -/

theorem run_record (callee : Callee) (c : Cursor) (calls : List Call) :
    (record callee c).run calls = pure ((), calls ++ [⟨callee, c⟩]) := rfl

/-- An edit with a record does what the edit without does. -/
def Erases {α : Type} (x : Recorded α) (y : Checked α) : Prop := ∀ calls, Prod.fst <$> x.run calls = y

namespace Erases

variable {α β : Type}

theorem pure (a : α) : Erases (Pure.pure a) (Pure.pure a) := by
  intro calls
  simp

theorem lift (y : Checked α) : Erases (liftM y) y := by
  intro calls
  simp

theorem bind {x : Recorded α} {y : Checked α} {f : α → Recorded β} {g : α → Checked β} (hx : Erases x y)
    (hf : ∀ a, Erases (f a) (g a)) : Erases (x >>= f) (y >>= g) := by
  intro calls
  have hcont : (fun p : α × List Call => Prod.fst <$> (f p.1).run p.2) = fun p => g p.1 := by
    funext p
    exact hf p.1 p.2
  rw [StateT.run_bind, map_bind, hcont, ← hx calls, bind_map_left]

theorem record_bind (callee : Callee) (c : Cursor) {f : Recorded β} {y : Checked β} (hf : Erases f y) :
    Erases (record callee c >>= fun _ => f) y := by
  intro calls
  rw [StateT.run_bind, run_record, pure_bind]
  exact hf _

end Erases

namespace Cursor

variable {o : Options}

theorem erases_recordEndOfLine (c : Cursor) : Erases c.recordEndOfLine c.endOfLine :=
  .record_bind _ _ (.lift _)

theorem erases_recordNewline (c : Cursor) : Erases c.recordNewline c.visitNewline := by
  refine .record_bind _ _ ?_
  rw [visitNewline]
  cases c.clause with
  | none => exact c.erases_recordEndOfLine
  | some base => exact .bind (.lift _) fun c => .bind (.lift _) fun tokens => .pure _

theorem erases_recordBreak (c : Cursor) : Erases (c.recordBreak o) (c.breakLine o) :=
  .record_bind _ _ (.bind (.lift _) fun _ => .bind (erases_recordEndOfLine _) fun _ => .pure _)

theorem erases_recordStartLine (c : Cursor) (k : Kind) : Erases (c.recordStartLine o k) (c.startLine o k) := by
  refine .bind (.lift _) fun isFirst => ?_
  split
  · exact .pure c
  · refine .bind (.lift _) fun breaks => ?_
    split
    · exact c.erases_recordBreak
    · exact .pure c

theorem erases_recordCode (c : Cursor) (k : Kind) : Erases (c.recordCode o k) (c.visitCode o k) := by
  refine .record_bind _ _ ?_
  rw [visitCode]
  cases c.clause with
  | some base => exact .record_bind _ _ (.lift _)
  | none =>
    refine .bind (c.erases_recordStartLine k) fun c => .record_bind _ _ ?_
    refine .bind (.lift _) ?_
    rintro ⟨c, effect⟩
    refine .bind (.lift _) fun c => ?_
    cases effect.opens <;> exact .pure _

/-- **A visit with a record** is the visit of the loop. -/
theorem erases_recordVisit (c : Cursor) : Erases (c.recordVisit o) (c.visit o) := by
  refine .bind (.lift _) fun t => ?_
  split
  · exact c.erases_recordNewline
  split
  · exact c.erases_recordCode t.kind
  · exact .pure c

end Cursor

/-! ## One turn -/

/-- **What a turn can do** when the walk has come to `w` and `t` and `rest` are ahead: the calls that it makes, and what
has been written before and after it, blanks aside. -/
inductive Turn (o : Options) (w : Walk) (t : Token) (rest : List Token) : Before → List Call → Prop
  | endOfLine (ht : t.isNewline = true) :
    Turn o w t rest (t :: w.out) [⟨.visitNewline, .of w (t :: rest)⟩, ⟨.endOfLine, .of w (t :: rest)⟩]
  | joined {out : Before} (ht : t.isNewline = true) (hout : out.trimmed = w.out.trimmed) :
    Turn o w t rest out [⟨.visitNewline, .of w (t :: rest)⟩]
  | inline (ht : t.isCode = true) :
    Turn o w t rest (t :: w.out) [⟨.visitCode, .of w (t :: rest)⟩, ⟨.visitInline, .of w (t :: rest)⟩]
  | code {out : Before} (ht : t.isCode = true) (hout : out.trimmed = w.out.trimmed) :
    Turn o w t rest (t :: out) [⟨.visitCode, .of w (t :: rest)⟩, ⟨.enter, .of w (t :: rest)⟩]
  | broken {out : Before} (ht : t.isCode = true) (hout : out.trimmed = o.newlineToken :: w.out) :
    Turn o w t rest (t :: out) [⟨.visitCode, .of w (t :: rest)⟩, ⟨.breakLine, .of w (t :: rest)⟩,
      ⟨.endOfLine, .of w (o.newlineToken :: t :: rest)⟩,
      ⟨.enter, .of (w.endLine.write o.newlineToken) (t :: rest)⟩]
  | trivia {out : Before} (hnewline : t.isNewline = false) (hcode : t.isCode = false)
    (hout : out = w.out ∨ out = t :: w.out) : Turn o w t rest out []

theorem run_lift {α : Type} {x : Checked α} {a : α} (h : x = pure a) (calls : List Call) :
    StateT.run (liftM x : Recorded α) calls = pure (a, calls) := by
  rw [h]
  simp

namespace Cursor

variable {w : Walk} {t : Token} {rest : List Token}

theorem recordEndOfLine_of (w : Walk) (rest : List Token) (calls : List Call) :
    (of w rest).recordEndOfLine.run calls = pure (of w.endLine rest, calls ++ [⟨.endOfLine, of w rest⟩]) := by
  rw [recordEndOfLine, StateT.run_bind, run_record, pure_bind]
  exact run_lift (endOfLine_of w rest) _

theorem recordBreak_of (o : Options) (w : Walk) (rest : List Token) (calls : List Call) :
    ((of w rest).recordBreak o).run calls = pure (of (w.endLine.write o.newlineToken) rest,
      calls ++ [⟨.breakLine, of w rest⟩, ⟨.endOfLine, of w (o.newlineToken :: rest)⟩]) := by
  have hinsert : (of w rest).tokens.insertAt (of w rest).index o.newlineToken =
      pure (of w (o.newlineToken :: rest)).tokens := by
    simp [of, cons_followedBy]
  have hbroken : { of w rest with tokens := (of w (o.newlineToken :: rest)).tokens } =
    of w (o.newlineToken :: rest) := rfl
  rw [recordBreak, StateT.run_bind, run_record, pure_bind, StateT.run_bind, run_lift hinsert, pure_bind, hbroken,
    StateT.run_bind, recordEndOfLine_of, pure_bind, StateT.run_pure, next_of]
  simp

/-- The calls that put a line break before a code token, if they are made. -/
def breakCalls (o : Options) (w : Walk) (k : Kind) (rest : List Token) : List Call :=
  if !w.out.isLineStart && w.breaksBefore k then
    [⟨.breakLine, of w rest⟩, ⟨.endOfLine, of w (o.newlineToken :: rest)⟩]
  else []

theorem recordStartLine_of (o : Options) (w : Walk) (k : Kind) (rest : List Token) (calls : List Call) :
    ((of w rest).recordStartLine o k).run calls =
      pure (of (w.breakLine o k) rest, calls ++ breakCalls o w k rest) := by
  rw [recordStartLine, StateT.run_bind, run_lift (isFirstOnLine_of w rest), pure_bind, Walk.breakLine, breakCalls]
  cases hstart : w.out.isLineStart with
  | true => simp
  | false =>
    simp only [Bool.false_eq_true, if_false, Bool.not_false, Bool.true_and]
    rw [StateT.run_bind, run_lift (breaksBefore_of w k rest), pure_bind]
    cases hbreaks : w.breaksBefore k with
    | true => simp [recordBreak_of]
    | false => simp

theorem trimmed_indent (o : Options) (w : Walk) (dedent : Nat) : (w.indent o dedent).out.trimmed = w.out.trimmed := by
  have htrim : w.out.trimmed.trimmed = w.out.trimmed := (trimmed_trimmed w.out).1
  rw [Walk.indent]
  split
  · exact htrim
  · exact htrim

/-- What stands before a code token is what stood before it with the line break in front of it, blanks aside. -/
theorem trimmed_ahead (o : Options) (w : Walk) (k : Kind) : (w.ahead o k).trimmed = (w.breakLine o k).out.trimmed := by
  have hentered : (w.entered o k).1.out = (w.breakLine o k).out := (Walk.enter_frame k).1
  rw [Walk.ahead]
  split
  · rw [trimmed_indent, hentered]
  · rw [hentered]

/-- The calls of a code token outside of address clauses. -/
def codeCalls (o : Options) (w : Walk) (t : Token) (rest : List Token) : List Call :=
  ⟨.visitCode, of w (t :: rest)⟩ ::
    (breakCalls o w t.kind (t :: rest) ++ [⟨.enter, of (w.breakLine o t.kind) (t :: rest)⟩])

theorem turn_code (ht : t.isCode = true) (rest : List Token) :
    Turn o w t rest (w.code o t).out (codeCalls o w t rest) := by
  have htrim := trimmed_ahead o w t.kind
  rw [(Walk.code_frame o w t).1, codeCalls, breakCalls]
  by_cases hbreaks : (!w.out.isLineStart && w.breaksBefore t.kind) = true
  · have hbroken : w.breakLine o t.kind = w.endLine.write o.newlineToken := by rw [Walk.breakLine, if_pos hbreaks]
    have hout : (w.endLine.write o.newlineToken).out = o.newlineToken :: w.out :=
      congrArg (o.newlineToken :: ·) (Walk.endLine_frame w).1
    rw [hbroken, hout] at htrim
    rw [if_pos hbreaks, hbroken]
    exact .broken ht htrim
  · have hsame : w.breakLine o t.kind = w := by rw [Walk.breakLine, if_neg hbreaks]
    rw [hsame] at htrim
    rw [if_neg hbreaks, hsame]
    exact .code ht htrim

theorem recordCode_of (h : w.Placed) (hc : w.clause = none) (t : Token) (rest : List Token) : ∃ v,
    (∀ calls, ((of w (t :: rest)).recordCode o t.kind).run calls =
      pure (of v (t :: rest), calls ++ codeCalls o w t rest)) ∧ w.code o t = v.write t := by
  have hclause : (of w (t :: rest)).clause = none := hc
  have hplaced : (w.entered o t.kind).1.Placed := h.keeps (w.keeps_entered o t.kind) (w.entered_field o t.kind)
  have hcalls : ∀ calls, calls ++ [⟨.visitCode, of w (t :: rest)⟩] ++ breakCalls o w t.kind (t :: rest) ++
      [⟨.enter, of (w.breakLine o t.kind) (t :: rest)⟩] = calls ++ codeCalls o w t rest := by simp [codeCalls]
  simp only [recordCode, hclause, StateT.run_bind, run_record, pure_bind, recordStartLine_of,
    run_lift (enter_of o (w.breakLine o t.kind) t.kind (t :: rest)), hcalls, Walk.code]
  rw [Walk.entered] at hplaced
  generalize (w.breakLine o t.kind).enter o t.kind = entered at hplaced
  obtain ⟨v, dedent, opens, opensClause⟩ := entered
  simp only [run_lift (indentLine_of hplaced _ _), pure_bind]
  generalize (if v.out.isLineStart then v.indent o dedent else v) = v
  cases opens <;> cases opensClause <;> exact ⟨_, fun calls => rfl, rfl⟩

theorem recordNewline_clause {base : Nat} (hc : w.clause = some base) (t : Token) (rest : List Token)
    (calls : List Call) : (of w (t :: rest)).recordNewline.run calls =
      pure (of { w with out := w.out.trimmed } (.space :: rest.dropWhile (·.isWhitespace)),
        calls ++ [⟨.visitNewline, of w (t :: rest)⟩]) := by
  have hclause : (of w (t :: rest)).clause = some base := hc
  have hdrop : (of { w with out := w.out.trimmed } (t :: rest)).tokens.dropBehind (·.isWhitespace)
      (of { w with out := w.out.trimmed } (t :: rest)).index =
    pure (Before.followedBy w.out.trimmed (t :: rest.dropWhile (·.isWhitespace))) := dropBehind_here _ _ t rest
  simp only [recordNewline, StateT.run_bind, run_record, pure_bind, hclause, run_lift (trim_of w (t :: rest)),
    run_lift hdrop]
  simp [of]

/-- **One turn of the loop** makes the calls that a turn can make. -/
theorem recordVisit_of (h : w.Placed) (ht : ¬(w.joined && t.isWhitespace) = true) (rest : List Token) : ∃ c made,
    (∀ calls, ((of w (t :: rest)).recordVisit o).run calls = pure (c, calls ++ made)) ∧
    c.next = of (w.step o t) (ahead (w.step o t) rest) ∧ Turn o w t rest (w.step o t).out made := by
  have hread : (of w (t :: rest)).tokens.read (of w (t :: rest)).index = pure t := read_here
  have hwritten : ∀ v : Walk, w.step o t = v.write t →
      (of v (t :: rest)).next = of (w.step o t) (ahead (w.step o t) rest) := by
    intro v hv
    rw [hv, next_of]
    rfl
  simp only [recordVisit, StateT.run_bind, run_lift hread, pure_bind]
  by_cases hn : t.isNewline = true
  · simp only [hn, if_true]
    -- outside of address clauses the line ends here, inside the break becomes a blank
    cases hc : w.clause with
    | none =>
      have hclause : (of w (t :: rest)).clause = none := hc
      have hstep : w.step o t = w.endLine.write t := by simp [Walk.step, Walk.newline, hn, hc]
      have hout : (w.step o t).out = t :: w.out := by
        rw [hstep]
        exact congrArg (t :: ·) (Walk.endLine_frame w).1
      rw [hout]
      refine ⟨_, _, fun calls => ?_, hwritten w.endLine hstep, .endOfLine hn⟩
      simp [recordNewline, run_record, hclause, recordEndOfLine_of]
    | some base =>
      have hstep : w.step o t = { w with out := .space :: w.out.trimmed, joined := true } := by
        simp [Walk.step, Walk.newline, hn, hc]
      have hout : (w.step o t).out.trimmed = w.out.trimmed := by
        rw [hstep]
        exact (trimmed_trimmed w.out).1
      refine ⟨_, _, recordNewline_clause hc t rest, ?_, .joined hn hout⟩
      rw [next_of, hstep]
      rfl
  simp only [hn, Bool.false_eq_true, if_false]
  by_cases hcode : t.isCode = true
  · simp only [hcode, if_true]
    cases hc : w.clause with
    | none =>
      obtain ⟨v, hvisit, hv⟩ := recordCode_of (o := o) h hc t rest
      have hstep : w.step o t = w.code o t := by simp [Walk.step, hn, hcode, hc]
      exact ⟨_, _, hvisit, hwritten v (hstep.trans hv), hstep ▸ turn_code hcode rest⟩
    | some base =>
      obtain ⟨v, hvisit, hv⟩ := visitInline_of w base t rest
      have hclause : (of w (t :: rest)).clause = some base := hc
      have hstep : w.step o t = w.inlineCode base t := by simp [Walk.step, hn, hcode, hc]
      rw [Walk.step_inline_out hc hcode]
      refine ⟨_, _, fun calls => ?_, hwritten v (hstep.trans hv), .inline hcode⟩
      simp [recordCode, run_record, hclause, run_lift hvisit]
  · simp only [hcode, Bool.false_eq_true, if_false]
    have hstep : w.step o t = w.write t := by
      rw [Walk.step, if_neg hn, if_neg hcode, Walk.trivia, if_neg ht]
    have hout : (w.step o t).out = t :: w.out := by rw [hstep]; rfl
    exact ⟨_, [], fun calls => by simp, hwritten w hstep,
      .trivia (Bool.eq_false_iff.2 hn) (Bool.eq_false_iff.2 hcode) (.inr hout)⟩

end Cursor

/-! ## All turns -/

/-- The calls of the turns from `w` on, when `rest` is ahead. -/
inductive Turns (o : Options) : Walk → List Token → List Call → Prop
  | nil (w : Walk) : Turns o w [] []
  | cons {w : Walk} {t : Token} {rest : List Token} {made later : List Call}
    (turn : Turn o w t rest (w.step o t).out made) (more : Turns o (w.step o t) rest later) :
    Turns o w (t :: rest) (made ++ later)

theorem Cursor.recordFrom_of {o : Options} {w : Walk} (h : w.Placed) (rest : List Token) : ∃ made, Turns o w rest made ∧
    ∀ calls, (of w (ahead w rest)).recordFrom o calls =
      pure ((rest.foldl (Walk.step o) w).tokens, calls ++ made) := by
  induction rest generalizing w with
  | nil =>
    have hahead : ahead w [] = [] := by simp [ahead]
    refine ⟨[], .nil w, fun calls => ?_⟩
    rw [hahead, recordFrom, loop_done (by simp [of]), pure_bind, List.append_nil]
    exact congrArg (fun ts => pure (ts, calls)) (followedBy_nil w.out)
  | cons t rest ih =>
    by_cases ht : (w.joined && t.isWhitespace) = true
    · obtain ⟨hj, hw⟩ := Bool.and_eq_true_iff.1 ht
      have hahead : ahead w (t :: rest) = ahead w rest := by simp [ahead, hj, hw]
      obtain ⟨made, hturns, hrun⟩ := ih h
      have hstep : w.step o t = w := step_joined hj hw
      refine ⟨[] ++ made, .cons ?_ (by rwa [hstep]), fun calls => ?_⟩
      · exact .trivia (isNewline_of_isWhitespace hw) (isCode_of_isWhitespace hw) (.inl (by rw [hstep]))
      · rw [hahead, List.foldl_cons, hstep, hrun, List.nil_append]
    · have hahead : ahead w (t :: rest) = t :: rest := by
        rw [Bool.and_eq_true_iff, not_and] at ht
        unfold ahead
        split
        · next hj => rw [List.dropWhile_cons_of_neg (ht hj)]
        · rfl
      obtain ⟨c, made, hvisit, hnext, hturn⟩ := recordVisit_of (o := o) h ht rest
      obtain ⟨later, hturns, hrun⟩ := ih (h.step t)
      refine ⟨made ++ later, .cons hturn hturns, fun calls => ?_⟩
      rw [hahead, recordFrom, loop_turn (c.next, calls ++ made) (by simp [of]) (by simp [hvisit]), hnext,
        List.foldl_cons, ← List.append_assoc]
      exact hrun (calls ++ made)

/-! ## Every token once -/

/-- The ends of a list that start with a token for which `p` holds, one for each such token. -/
def startsAt (p : Token → Bool) (ts : List Token) : List (List Token) := ts.tails.filter (·.head?.any p)

/-- The beginnings of a list that end with a line break, one for each line break. -/
def lineEnds (ts : List Token) : List (List Token) := ts.inits.filter (·.getLast?.any (·.isNewline))

namespace Call

variable {callee : Callee} {w : Walk} {rest : List Token}

@[simp] theorem before_of : (Call.mk callee (.of w rest)).before = w.out.reverse := by
  simp [before, Cursor.of, Before.followedBy]

@[simp] theorem ahead_of : (Call.mk callee (.of w rest)).ahead = rest := by
  simp [ahead, Cursor.of, Before.followedBy]

@[simp] theorem through_of {t : Token} : (Call.mk callee (.of w (t :: rest))).through = w.out.reverse ++ [t] := by
  have hlength : w.out.length + 1 = (t :: w.out).reverse.length := by simp
  rw [through, Cursor.of, ← cons_followedBy, hlength, Before.followedBy, List.take_left, List.reverse_cons]

end Call

variable {o : Options} {w : Walk} {t : Token} {rest : List Token} {out : Before} {calls made : List Call}

theorem startsAt_cons (p : Token → Bool) (t : Token) (rest : List Token) :
    startsAt p (t :: rest) = (if p t then [t :: rest] else []) ++ startsAt p rest := by
  cases hp : p t <;> simp [startsAt, hp]

/-- What every turn does for its token, the loop does for all tokens. -/
theorem Turns.startsAt {p : Call → Bool} {q : Token → Bool}
    (hturn : ∀ {w : Walk} {t : Token} {rest : List Token} {out : Before} {made : List Call}, Turn o w t rest out made →
      (made.filter p).map Call.ahead = if q t then [t :: rest] else [])
    (h : Turns o w rest calls) : (calls.filter p).map Call.ahead = startsAt q rest := by
  induction h with
  | nil w => rfl
  | cons turn more ih => rw [startsAt_cons, List.filter_append, List.map_append, hturn turn, ih]

theorem Turn.visitCode (h : Turn o w t rest out made) :
    (made.filter (·.callee = .visitCode)).map Call.ahead = if t.isCode then [t :: rest] else [] := by
  cases h with
  | endOfLine ht | joined ht => simp [isCode_of_isSpace (isSpace_of_isNewline ht)]
  | inline ht | code ht | broken ht => simp [ht]
  | trivia _ hcode => simp [hcode]

theorem Turn.visitNewline (h : Turn o w t rest out made) :
    (made.filter (·.callee = .visitNewline)).map Call.ahead = if t.isNewline then [t :: rest] else [] := by
  cases h with
  | endOfLine ht | joined ht => simp [ht]
  | inline ht | code ht | broken ht => simp [isNewline_of_isCode ht]
  | trivia hnewline _ => simp [hnewline]

theorem Turn.enters (h : Turn o w t rest out made) :
    (made.filter Call.enters).map Call.ahead = if t.isCode then [t :: rest] else [] := by
  cases h with
  | endOfLine ht | joined ht => simp [isCode_of_isSpace (isSpace_of_isNewline ht), Call.enters]
  | inline ht | code ht | broken ht => simp [ht, Call.enters]
  | trivia _ hcode => simp [hcode]

/-! ## The end of every line once -/

theorem lineEnds_concat (ts : List Token) (t : Token) :
    lineEnds (ts ++ [t]) = lineEnds ts ++ if t.isNewline then [ts ++ [t]] else [] := by
  simp only [lineEnds, List.inits_append, List.filter_append]
  cases ht : t.isNewline <;> simp [ht]

/-- Blanks end no line. -/
theorem lineEnds_trimmed (out : Before) : lineEnds out.trimmed.reverse = lineEnds out.reverse := by
  induction out with
  | nil => rfl
  | cons t out ih =>
    cases ht : t.isWhitespace with
    | true =>
      have htrim : Before.trimmed (t :: out) = Before.trimmed out := List.dropWhile_cons_of_pos ht
      simp [htrim, ih, lineEnds_concat, isNewline_of_isWhitespace ht]
    | false =>
      have htrim : Before.trimmed (t :: out) = t :: out := List.dropWhile_cons_of_neg (by simp [ht])
      rw [htrim]

theorem lineEnds_congr {out out' : Before} (h : out.trimmed = out'.trimmed) :
    lineEnds out.reverse = lineEnds out'.reverse := by
  rw [← lineEnds_trimmed out, h, lineEnds_trimmed]

theorem Turn.lineEnds (h : Turn o w t rest out made) : lineEnds out.reverse =
    lineEnds w.out.reverse ++ (made.filter (·.callee = .endOfLine)).map Call.through := by
  cases h with
  | endOfLine ht => simp [lineEnds_concat, ht]
  | joined ht hout => simp [lineEnds_congr hout]
  | inline ht => simp [lineEnds_concat, isNewline_of_isCode ht]
  | code ht hout => simp [lineEnds_concat, isNewline_of_isCode ht, lineEnds_congr hout]
  | @broken above ht hout =>
    have hnewline : o.newlineToken.isNewline = true := rfl
    have habove : Editing.lineEnds above.reverse = Editing.lineEnds (o.newlineToken :: w.out).reverse := by
      rw [← lineEnds_trimmed, hout]
    simp [lineEnds_concat, isNewline_of_isCode ht, habove, hnewline]
  | trivia hnewline hcode hout =>
    rcases hout with rfl | rfl
    · simp
    · simp [lineEnds_concat, hnewline]

theorem Turns.lineEnds (h : Turns o w rest calls) : lineEnds (rest.foldl (Walk.step o) w).tokens =
    lineEnds w.tokens ++ (calls.filter (·.callee = .endOfLine)).map Call.through := by
  induction h with
  | nil w => simp
  | cons turn more ih =>
    rw [List.foldl_cons, ih, List.filter_append, List.map_append, ← List.append_assoc]
    exact congrArg (· ++ _) turn.lineEnds

/-! ## The order of the calls -/

/-- The code tokens of a list. -/
def codeOf (ts : List Token) : List Token := ts.filter (·.isCode)

/-- The code tokens that the calls enter. -/
def entered (calls : List Call) : List Token := (calls.filter Call.enters).filterMap (·.ahead.head?)

@[simp] theorem codeOf_append (ts ts' : List Token) : codeOf (ts ++ ts') = codeOf ts ++ codeOf ts' :=
  List.filter_append _ _

@[simp] theorem entered_append (calls calls' : List Call) :
    entered (calls ++ calls') = entered calls ++ entered calls' := by
  simp [entered]

@[simp] theorem codeOf_singleton (t : Token) : codeOf [t] = if t.isCode then [t] else [] := List.filter_cons

/-- Blanks are no code. -/
theorem codeOf_trimmed (out : Before) : codeOf out.trimmed.reverse = codeOf out.reverse := by
  have hblank : codeOf (out.takeWhile (·.isWhitespace)).reverse = [] := by
    refine List.filter_eq_nil_iff.2 fun t ht => ?_
    simp [isCode_of_isWhitespace (List.mem_takeWhile_imp (List.mem_reverse.1 ht))]
  conv_rhs => rw [← List.takeWhile_append_dropWhile (p := fun t : Token => t.isWhitespace) (l := out)]
  rw [List.reverse_append, codeOf_append, hblank, List.append_nil, Before.trimmed]

theorem codeOf_congr {out out' : Before} (h : out.trimmed = out'.trimmed) :
    codeOf out.reverse = codeOf out'.reverse := by
  rw [← codeOf_trimmed out, h, codeOf_trimmed]

/-- A turn enters the code that it writes. -/
theorem Turn.codeOf (h : Turn o w t rest out made) : codeOf out.reverse = codeOf w.out.reverse ++ entered made := by
  cases h with
  | endOfLine ht => simp [isCode_of_isSpace (isSpace_of_isNewline ht), entered, Call.enters]
  | joined ht hout => simp [codeOf_congr hout, entered, Call.enters]
  | inline ht => simp [ht, entered, Call.enters]
  | code ht hout => simp [ht, codeOf_congr hout, entered, Call.enters]
  | @broken above ht hout =>
    have hnewline : o.newlineToken.isCode = false := rfl
    have habove : Editing.codeOf above.reverse = Editing.codeOf (o.newlineToken :: w.out).reverse := by
      rw [← codeOf_trimmed, hout]
    simp [ht, habove, hnewline, entered, Call.enters]
  | trivia hnewline hcode hout =>
    rcases hout with rfl | rfl
    · simp [entered]
    · simp [hcode, entered]

theorem Turns.codeOf (h : Turns o w rest calls) :
    codeOf (rest.foldl (Walk.step o) w).tokens = codeOf w.tokens ++ entered calls := by
  induction h with
  | nil w => simp [entered]
  | cons turn more ih =>
    rw [List.foldl_cons, ih, entered_append, ← List.append_assoc]
    exact congrArg (· ++ _) turn.codeOf

/-- In a turn the visit of the token comes first, and its entering last. -/
theorem Turn.pairwise (h : Turn o w t rest out made) :
    made.Pairwise fun c d => d.callee ≠ .visitNewline ∧ (c.enters = true → d.callee ≠ .endOfLine) := by
  cases h <;> simp [Call.enters]

/-- The end of a line is run where the turn finds the walk, at a line break. -/
theorem Turn.endOfLine_before (h : Turn o w t rest out made) : ∀ c ∈ made, c.callee = .endOfLine →
    c.before = w.out.reverse ∧ ∃ n, n.isNewline = true ∧ c.through = c.before ++ [n] := by
  cases h with
  | endOfLine ht => simp [ht]
  | joined | inline | code | trivia => simp
  | broken =>
    have hnewline : o.newlineToken.isNewline = true := rfl
    simp [hnewline]

/-- Nothing has been entered in a turn when it runs the end of a line. -/
theorem Turn.entered_eq_nil {earlier later : List Call} {c : Call} (h : Turn o w t rest out (earlier ++ c :: later))
    (hc : c.callee = .endOfLine) : entered earlier = [] := by
  have hnone : ∀ d ∈ earlier, d.enters = false := by
    intro d hd
    have hpair := (List.pairwise_append.1 h.pairwise).2.2 d hd c List.mem_cons_self
    exact Bool.eq_false_iff.2 fun hd => hpair.2 hd hc
  have hfilter : earlier.filter Call.enters = [] := by simpa using hnone
  rw [entered, hfilter, List.filterMap_nil]

/-- **At the end of a line** the code before it has been entered and no other. -/
theorem Turns.entered_before (h : Turns o w rest calls) {earlier later : List Call} {c : Call}
    (hcalls : calls = earlier ++ c :: later) (hc : c.callee = .endOfLine) :
    Editing.codeOf c.before = Editing.codeOf w.tokens ++ entered earlier := by
  induction h generalizing earlier with
  | nil w => simp at hcalls
  | @cons w t rest made more turn turns ih =>
    have hstep : Editing.codeOf (w.step o t).tokens = Editing.codeOf w.tokens ++ entered made := turn.codeOf
    rcases List.append_eq_append_iff.1 hcalls with ⟨between, rfl, hmore⟩ | ⟨here, rfl, hhere⟩
    · rw [ih hmore, hstep, entered_append, List.append_assoc]
    -- the call is the first of the later turns, or one of this turn
    cases here with
    | nil =>
      have hmore : more = [] ++ c :: later := hhere.symm
      rw [ih hmore, hstep]
      simp [entered]
    | cons d here =>
      obtain ⟨rfl, rfl⟩ := List.cons.inj hhere
      rw [turn.entered_eq_nil hc, List.append_nil, (turn.endOfLine_before c (by simp) hc).1]
      rfl

/-! ## Line breaks that are put in -/

theorem suffix_trimmed {u : Token} {below out : Before} (hu : u.isWhitespace = false) :
    u :: below <:+ out.trimmed ↔ u :: below <:+ out := by
  refine ⟨fun h => h.trans (List.dropWhile_suffix _), fun h => ?_⟩
  induction out with
  | nil => exact h
  | cons t out ih =>
    rw [Before.trimmed, List.dropWhile_cons]
    split
    · next ht =>
      rcases List.suffix_cons_iff.1 h with heq | h
      · obtain ⟨rfl, -⟩ := List.cons.inj heq
        rw [hu] at ht
        cases ht
      · exact ih h
    · exact h

/-- What has been written up to a token that is no blank stays. -/
theorem Turn.keeps {u : Token} {below : Before} (hu : u.isWhitespace = false) (h : Turn o w t rest out made)
    (hw : u :: below <:+ w.out) : u :: below <:+ out := by
  have hcongr : ∀ {above : Before}, above.trimmed = w.out.trimmed → u :: below <:+ above := by
    intro above habove
    rwa [← suffix_trimmed hu, habove, suffix_trimmed hu]
  cases h with
  | endOfLine | inline => exact hw.trans (List.suffix_cons _ _)
  | joined _ hout => exact hcongr hout
  | code _ hout => exact (hcongr hout).trans (List.suffix_cons _ _)
  | broken _ hout =>
    -- the line break is no blank either, so it stays with all that is below it
    refine List.IsSuffix.trans ?_ (List.suffix_cons _ _)
    rw [← suffix_trimmed hu, hout]
    exact hw.trans (List.suffix_cons _ _)
  | trivia _ _ hout =>
    rcases hout with rfl | rfl
    · exact hw
    · exact hw.trans (List.suffix_cons _ _)

/-- The calls of a turn are about what comes behind all that has been written. -/
theorem Turn.isPrefix_before (h : Turn o w t rest out made) : ∀ d ∈ made, w.out.reverse <+: d.before := by
  cases h with
  | broken => simp [(Walk.endLine_frame w).1, Walk.write]
  | endOfLine | joined | inline | code | trivia => simp

theorem Turns.isPrefix_before {u : Token} {below : Before} (hu : u.isWhitespace = false) (h : Turns o w rest calls)
    (hw : u :: below <:+ w.out) : ∀ d ∈ calls, (u :: below).reverse <+: d.before := by
  induction h with
  | nil w => simp
  | cons turn more ih =>
    intro d hd
    rcases List.mem_append.1 hd with hd | hd
    · exact (List.reverse_prefix.2 hw).trans (turn.isPrefix_before d hd)
    · exact ih (turn.keeps hu hw) d hd

/-- The line break that a turn puts in stands behind what had been written. -/
theorem Turn.breakLine (h : Turn o w t rest out made) : ∀ b ∈ made, b.callee = .breakLine →
    o.newlineToken :: b.before.reverse <:+ out := by
  cases h with
  | endOfLine | joined | inline | code | trivia => simp
  | @broken above ht hout =>
    have habove : o.newlineToken :: w.out <:+ above := by
      have hnewline : o.newlineToken.isWhitespace = false := rfl
      rw [← suffix_trimmed hnewline, hout]
    simpa using habove.trans (List.suffix_cons t above)

/-- **A line break that is put in** is left behind by all visits of line breaks. -/
theorem Turns.inserted (h : Turns o w rest calls) : calls.Pairwise fun b v =>
    b.callee = .breakLine → v.callee = .visitNewline → b.before ++ [o.newlineToken] <+: v.before := by
  induction h with
  | nil w => exact .nil
  | cons turn more ih =>
    refine List.pairwise_append.2 ⟨turn.pairwise.imp fun hpair _ hv => absurd hv hpair.1, ih, ?_⟩
    intro b hb v hv hbreak _
    simpa using more.isPrefix_before rfl (turn.breakLine b hb hbreak) v hv

/-! ## The whole walk -/

/-- **The calls of an orderly walk** over `ts` that leaves `result`. -/
structure Orderly (o : Options) (ts result : List Token) (calls : List Call) : Prop where
  /-- Every code token is visited once, in order. -/
  code : (calls.filter (·.callee = .visitCode)).map Call.ahead = startsAt (·.isCode) ts
  /-- Every line break is visited once, in order. -/
  newline : (calls.filter (·.callee = .visitNewline)).map Call.ahead = startsAt (·.isNewline) ts
  /-- A line break that is put in stands before everything that is visited as a line break from then on. -/
  inserted : calls.Pairwise fun b v =>
    b.callee = .breakLine → v.callee = .visitNewline → b.before ++ [o.newlineToken] <+: v.before
  /-- Every code token is entered once, in order. -/
  enters : (calls.filter Call.enters).map Call.ahead = startsAt (·.isCode) ts
  /-- The end of every line of the result is run once, in order. -/
  ended : (calls.filter (·.callee = .endOfLine)).map Call.through = lineEnds result
  /-- It is run between the code before it and the code behind it. -/
  between : ∀ earlier c later, calls = earlier ++ c :: later → c.callee = .endOfLine →
    entered earlier = codeOf c.before ∧ entered later = codeOf (result.drop c.through.length)

theorem isPrefix_of_mem_lineEnds {ts us : List Token} (h : us ∈ lineEnds ts) : us <+: ts :=
  (List.mem_inits us ts).1 (List.mem_filter.1 h).1

/-- The end of a line is run at a line break. -/
theorem Turns.endOfLine_through (h : Turns o w rest calls) : ∀ c ∈ calls, c.callee = .endOfLine →
    ∃ n, n.isNewline = true ∧ c.through = c.before ++ [n] := by
  induction h with
  | nil w => simp
  | cons turn more ih =>
    intro c hc hend
    rcases List.mem_append.1 hc with hc | hc
    · exact (turn.endOfLine_before c hc hend).2
    · exact ih c hc hend

theorem Turns.orderly {ts : List Token} (h : Turns o {} ts calls) : Orderly o ts (indentLines o ts) calls := by
  have hended : (calls.filter (·.callee = .endOfLine)).map Call.through = Editing.lineEnds (indentLines o ts) :=
    h.lineEnds.symm
  refine ⟨h.startsAt Turn.visitCode, h.startsAt Turn.visitNewline, h.inserted, h.startsAt Turn.enters, hended, ?_⟩
  intro earlier c later hcalls hc
  have hbefore : Editing.codeOf c.before = entered earlier := h.entered_before hcalls hc
  refine ⟨hbefore.symm, ?_⟩
  -- all code has been entered in the end, so what was not before the line break comes behind it
  have hmem : c ∈ calls := by simp [hcalls]
  have hresult : Editing.codeOf (indentLines o ts) = entered earlier ++ entered later := by
    have hcall : entered [c] = [] := by simp [entered, Call.enters, hc]
    calc Editing.codeOf (indentLines o ts) = entered calls := h.codeOf
      _ = entered (earlier ++ [c] ++ later) := by rw [hcalls, List.append_assoc, List.singleton_append]
      _ = entered earlier ++ entered later := by rw [entered_append, entered_append, hcall, List.append_nil]
  obtain ⟨n, hn, hthrough⟩ := h.endOfLine_through c hmem hc
  have hended : c.through ∈ Editing.lineEnds (indentLines o ts) := by
    rw [← hended]
    exact List.mem_map_of_mem (List.mem_filter.2 ⟨hmem, by simp [hc]⟩)
  obtain ⟨behind, hbehind⟩ := isPrefix_of_mem_lineEnds hended
  have hnewline : Editing.codeOf [n] = [] := by simp [isCode_of_isSpace (isSpace_of_isNewline hn)]
  rw [← hbehind, codeOf_append, hthrough, codeOf_append, hnewline, List.append_nil, hbefore] at hresult
  rw [← hbehind, List.drop_left]
  exact (List.append_cancel_left hresult).symm

end ScillaLayout.Editing

namespace ScillaLayout

open Editing

/-- **The loop skips nothing and visits nothing twice.** With or without a record it gives the walk over the sequence,
and the calls in the record are those of an orderly walk. -/
theorem cursor_visits_once (o : Options) (ts : Sequence) :
    (∀ c : Cursor, Erases (c.recordVisit o) (c.visit o)) ∧ Cursor.run o { tokens := ts } = pure (indentLines o ts) ∧
    ∃ calls, Cursor.recordFrom o { tokens := ts } [] = pure (indentLines o ts, calls) ∧
      Orderly o ts (indentLines o ts) calls := by
  have hplaced : Walk.Placed {} := by
    intro k hk
    cases hk
  obtain ⟨calls, hturns, hrecord⟩ := Cursor.recordFrom_of (o := o) hplaced ts
  exact ⟨fun c => c.erases_recordVisit, indentLines_eq o ts, calls, hrecord [], hturns.orderly⟩

end ScillaLayout
