import ScillaLayout.Proofs.Layout.Laid

/-!
# Address clauses and where the walk forgets

Which address clauses are open can be read off the tokens: `clauseDepth` counts a `with` behind an address type against
the next `end`. The walk is inside of that many clauses (`Walk.Clauses`), so outside of all of them when the count is
zero.

There the keyword of a top-level declaration closes all blocks and starts a line of its own. What stood before it has no
influence on what comes behind (`Walk.scene_visit_topLevel`).
-/

namespace ScillaLayout

/-! ## Counting clauses -/

/-- What the tokens before a place say of address clauses. -/
structure ClauseCount where
  /-- Number of clauses that are open. -/
  depth : Nat := 0
  /-- Whether a `with` opens a clause here. -/
  address : Bool := false
  deriving DecidableEq, Repr

namespace ClauseCount

/-- One more token. An `end` outside of all clauses closes none. -/
def push (n : ClauseCount) (t : Token) : ClauseCount :=
  if t.isSpace then n
  else
    { depth :=
        match t.kind with
        | .kwWith => if n.address then n.depth + 1 else n.depth
        | .kwEnd => n.depth - 1
        | _ => n.depth
      address := t.isAddressType }

theorem push_with {t : Token} (hk : t.kind = .kwWith) (n : ClauseCount) :
    n.push t = ⟨if n.address then n.depth + 1 else n.depth, t.isAddressType⟩ := by
  simp [push, Token.isSpace, hk, Kind.isSpace]

theorem push_end {t : Token} (hk : t.kind = .kwEnd) (n : ClauseCount) : n.push t = ⟨n.depth - 1, t.isAddressType⟩ := by
  simp [push, Token.isSpace, hk, Kind.isSpace]

theorem push_other {t : Token} (hs : t.isSpace = false) (hw : t.kind ≠ .kwWith) (he : t.kind ≠ .kwEnd)
    (n : ClauseCount) : n.push t = ⟨n.depth, t.isAddressType⟩ := by
  rw [push, hs, if_neg (by simp)]
  split
  · next hk => exact absurd hk hw
  · next hk => exact absurd hk he
  · rfl

theorem depth_push_other {t : Token} (hw : t.kind ≠ .kwWith) (he : t.kind ≠ .kwEnd) (n : ClauseCount) :
    (n.push t).depth = n.depth := by
  cases hs : t.isSpace with
  | true => rw [push, if_pos hs]
  | false => rw [push_other hs hw he]

theorem foldl_push_spaces {g : List Token} (hg : ∀ t ∈ g, t.isSpace = true) (n : ClauseCount) : g.foldl push n = n := by
  induction g with
  | nil => rfl
  | cons t g ih =>
    rw [List.foldl_cons, push, if_pos (hg t List.mem_cons_self), ih fun u hu => hg u (List.mem_cons_of_mem _ hu)]

/-- Only the tokens of a document count. -/
theorem foldl_push_flatten {is : List Item} (h : ∀ i ∈ is, (∀ t ∈ i.gap, t.isSpace = true)) (n : ClauseCount) :
    (flatten is).foldl push n = (is.map (·.token)).foldl push n := by
  induction is generalizing n with
  | nil => rfl
  | cons i is ih =>
    rw [flatten_cons, List.foldl_append, foldl_push_spaces (h i List.mem_cons_self), List.foldl_cons, List.map_cons,
      List.foldl_cons, ih fun j hj => h j (List.mem_cons_of_mem _ hj)]

end ClauseCount

/-- Number of address clauses that tokens leave open: a `with` whose nearest token that is no space is an address type
opens one, and an `end` closes the innermost. -/
def clauseDepth (ts : List Token) : Nat := (ts.foldl ClauseCount.push {}).depth

namespace Walk

variable {o : Options} {w w' : Walk} {c c' : Cell}

/-! ## The walk inside of clauses -/

/-- The walk is inside of as many clauses as `n` says, and they are its innermost blocks. -/
structure Clauses (w : Walk) (n : ClauseCount) : Prop where
  address : w.out.sight.address = n.address
  outside : w.clause = none → n.depth = 0
  inside : ∀ base ∈ w.clause, 0 < n.depth ∧ ∃ below, w.stack = List.replicate n.depth .withArms ++ below ∧
    below.length = base

theorem clauses_start : Clauses {} {} := ⟨rfl, fun _ => rfl, by simp⟩

theorem Clauses.clause_eq_none {n : ClauseCount} (h : w.Clauses n) (hn : n.depth = 0) : w.clause = none := by
  cases hc : w.clause with
  | none => rfl
  | some base =>
    obtain ⟨hpos, -⟩ := h.inside base hc
    omega

/-- Only a `with` behind an address type opens a clause. -/
theorem enter_opensClause (k : Kind) :
    (w.enter o k).2.opensClause = (k == .kwWith && w.out.followsAddressType) := by
  cases k with
  | kwLet =>
    by_cases htop : (if w.isFreshLet then w.reset else w).stack.top? = some .letIn <;>
      simp [enter, enterLet, htop, Effect.opening, Effect.dedenting]
  | kwWith =>
    cases ha : w.out.followsAddressType with
    | true => simp [enter, enterWith, ha]
    | false =>
      simp only [enter, enterWith, ha, Bool.false_eq_true, if_false]
      split <;> rfl
  | kwFun | kwTfun | kwIn | rparen | rbrace | rsqb =>
    simp only [enter, enterFunction, enterCloser]
    split <;> rfl
  | _ => rfl

theorem entry_opensClause (g : Gap) (t : Token) :
    (w.entry o g t).2.opensClause = (t.kind == .kwWith && w.out.sight.address) := by
  unfold entry
  split
  · rw [enter_opensClause, (endLine_frame w).1]
    rfl
  · exact enter_opensClause t.kind

/-- What a `with` behind an address type opens is the clause. -/
theorem entry_with {g : Gap} {t : Token} (hk : t.kind = .kwWith) (ha : w.out.sight.address = true) :
    (w.entry o g t).2.opens = some .withArms := by
  have hopens : ∀ v : Walk, v.out = w.out → (v.enter o .kwWith).2.opens = some .withArms := by
    intro v hv
    have hfollows : v.out.followsAddressType = true := hv ▸ ha
    simp [enter, enterWith, hfollows]
  unfold entry
  rw [hk]
  split
  · exact hopens _ (endLine_frame w).1
  · exact hopens w rfl

theorem address_visit (hw : w.Ready) (hf : w.Fits c) : (w.visit o c).out.sight.address = c.token.isAddressType := by
  have htoken := hf.token
  rw [isSpace_eq, Bool.or_eq_false_iff] at htoken
  rw [visit_out hw hf, Before.sight_cons, Sight.push, htoken.1, htoken.2]
  cases c.token.isCode <;> rfl

namespace Clauses

variable {n : ClauseCount}

/-- Behind a code token outside of all clauses, on the blocks `below`. -/
theorem outside_code {t : Token} {below : Stack} (h : w.Clauses n) (hc : w.clause = none) (ht : t.isSpace = false)
    (haddress : w'.out.sight.address = t.isAddressType)
    (hstack : t.kind = .kwWith → n.address = true → w'.stack = .withArms :: below)
    (hclause : w'.clause = if t.kind == .kwWith && n.address then some below.length else none) :
    w'.Clauses (n.push t) := by
  have hzero := h.outside hc
  by_cases hk : t.kind = .kwWith
  · rw [ClauseCount.push_with hk]
    cases ha : n.address with
    | true =>
      simp only [hk, ha, beq_self_eq_true, Bool.and_self, if_true] at hclause
      refine ⟨haddress, by simp [hclause], fun base hbase => ?_⟩
      refine ⟨Nat.succ_pos _, below, ?_, Option.some.inj (hclause.symm.trans hbase)⟩
      rw [hstack hk ha, hzero]
      rfl
    | false =>
      simp only [ha, Bool.and_false, Bool.false_eq_true, if_false] at hclause
      exact ⟨haddress, fun _ => hzero, by simp [hclause]⟩
  · -- nothing is open that could be closed
    have hnone : w'.clause = none := by simpa [hk] using hclause
    have hdepth : (n.push t).depth = 0 ∧ (n.push t).address = t.isAddressType := by
      by_cases hend : t.kind = .kwEnd
      · simp [ClauseCount.push_end hend, hzero]
      · simp [ClauseCount.push_other ht hk hend, hzero]
    exact ⟨haddress.trans hdepth.2.symm, fun _ => hdepth.1, by simp [hnone]⟩

/-- Behind a token inside of a clause. -/
theorem inside_code {t : Token} {base : Nat} (h : w.Clauses n) (hc : w.clause = some base) (ht : t.isSpace = false)
    (haddress : w'.out.sight.address = t.isAddressType) (hstack : w'.stack = w.inlineStack t.kind)
    (hclause : w'.clause = w.inlineClause base t.kind) : w'.Clauses (n.push t) := by
  obtain ⟨hpos, below, harms, hlen⟩ := h.inside base hc
  by_cases hk : t.kind = .kwWith
  · simp only [inlineStack, inlineClause, hk, h.address] at hstack hclause
    rw [ClauseCount.push_with hk]
    refine ⟨haddress, by simp [hclause], fun base' hbase => ?_⟩
    rw [hstack, harms]
    have hbelow := hlen.trans (Option.some.inj (hclause.symm.trans hbase))
    cases n.address with
    | true => exact ⟨Nat.succ_pos _, below, rfl, hbelow⟩
    | false => exact ⟨hpos, below, rfl, hbelow⟩
  · by_cases hend : t.kind = .kwEnd
    · -- the innermost block is the innermost clause
      have hclose : w.stack.closeBlock = List.replicate (n.depth - 1) .withArms ++ below := by
        rw [harms, ← Nat.sub_add_cancel hpos]
        rfl
      simp only [inlineStack, inlineClause, hend, hclose, List.length_append, List.length_replicate] at hstack hclause
      rw [ClauseCount.push_end hend]
      refine ⟨haddress, fun hnone => ?_, fun base' hbase => ?_⟩
      · rw [hclause] at hnone
        split at hnone
        · show n.depth - 1 = 0
          omega
        · cases hnone
      · rw [hclause] at hbase
        split at hbase
        · cases hbase
        · obtain rfl := Option.some.inj hbase
          refine ⟨?_, below, hstack, hlen⟩
          show 0 < n.depth - 1
          omega
    · have hstack' : w'.stack = w.stack := hstack.trans (inlineStack_other hk hend)
      have hclause' : w'.clause = some base := hclause.trans (inlineClause_other hend)
      rw [ClauseCount.push_other ht hk hend]
      refine ⟨haddress, by simp [hclause'], fun base' hbase => ⟨hpos, below, hstack'.trans harms, ?_⟩⟩
      exact hlen.trans (Option.some.inj (hclause'.symm.trans hbase))

/-- A code token outside of all clauses. -/
theorem visit_code (h : w.Clauses n) (hw : w.Ready) (hf : w.Fits c) (hc : w.clause = none)
    (ht : c.token.isCode = true) : (w.visit o c).Clauses (n.push c.token) := by
  obtain ⟨-, hstack, hclause, -⟩ := Walk.visit_code (o := o) hf.gap hw hc hf.fresh ht
  rw [entry_opensClause, h.address] at hclause
  refine h.outside_code hc hf.token (address_visit hw hf) (fun hk ha => ?_) hclause
  rw [entry_with hk (h.address.trans ha)] at hstack
  exact hstack

/-- A code token inside of a clause. -/
theorem visit_inline (h : w.Clauses n) (hw : w.Ready) (hf : w.Fits c) {base : Nat} (hc : w.clause = some base)
    (ht : c.token.isCode = true) : (w.visit o c).Clauses (n.push c.token) := by
  obtain ⟨-, hstack, hclause, -⟩ := Walk.visit_inline (o := o) hf.gap hw hc ht
  exact h.inside_code hc hf.token (address_visit hw hf) hstack hclause

/-- A comment. -/
theorem visit_trivia (h : w.Clauses n) (hw : w.Ready) (hf : w.Fits c) (ht : c.token.isCode = false) :
    (w.visit o c).Clauses (n.push c.token) := by
  obtain ⟨-, hstack, hclause, -⟩ := Walk.visit_trivia (o := o) hf.gap hw ht hf.token
  have hkind : c.token.kind ≠ .kwWith ∧ c.token.kind ≠ .kwEnd := by
    constructor <;> intro hk <;> simp [Token.isCode, hk, Kind.isCode] at ht
  rw [ClauseCount.push_other hf.token hkind.1 hkind.2]
  refine ⟨address_visit hw hf, fun hnone => h.outside (hclause ▸ hnone), fun base hbase => ?_⟩
  have hbase' : w.clause = some base := hclause ▸ hbase
  have hline : w.breaksAt c.gap c.token = false := by simp [breaksAt, hbase']
  rw [hstack, hline]
  exact h.inside base hbase'

/-- **One more cell** opens and closes the clauses that its token says. -/
theorem visit (h : w.Clauses n) (hw : w.Ready) (hf : w.Fits c) : (w.visit o c).Clauses (n.push c.token) := by
  by_cases ht : c.token.isCode = true
  · cases hc : w.clause with
    | none => exact h.visit_code hw hf hc ht
    | some base => exact h.visit_inline hw hf hc ht
  · exact h.visit_trivia hw hf (by simpa using ht)

/-- **All cells** open and close the clauses that their tokens say. -/
theorem foldl_visit {cs : List Cell} (h : w.Clauses n) (hm : w.Meets cs) :
    (cs.foldl (Walk.visit o) w).Clauses ((cs.map (·.token)).foldl ClauseCount.push n) := by
  induction cs generalizing w n with
  | nil => exact h
  | cons c cs ih => exact ih (h.visit hm.ready hm.fits) hm.visit

end Clauses

/-! ## Top-level declarations -/

theorem isCode_of_isTopLevel {t : Token} (hk : t.kind.isTopLevel = true) : t.isCode = true := by
  rw [Token.isCode]
  cases h : t.kind with
  | kwImport | kwLibrary | kwScillaVersion | kwContract | kwTransition | kwProcedure | kwType | kwField => rfl
  | _ => simp [h, Kind.isTopLevel] at hk

/-- A declaration closes all blocks, whatever is open. -/
theorem enter_topLevel {k : Kind} (hk : k.isTopLevel = true) (w w' : Walk) :
    (w.enter o k).1.stack = [] ∧ (w.enter o k).2 = (w'.enter o k).2 ∧ (w.enter o k).2.opensClause = false := by
  cases k with
  | kwImport | kwLibrary | kwScillaVersion | kwContract | kwTransition | kwProcedure | kwType | kwField =>
    exact ⟨rfl, rfl, rfl⟩
  | _ => cases hk

theorem entry_topLevel (w w' : Walk) (g g' : Gap) {t t' : Token} (hk : t.kind.isTopLevel = true)
    (heq : t.kind = t'.kind) :
    (w.entry o g t).1.stack = [] ∧ (w.entry o g t).2 = (w'.entry o g' t').2 ∧
      (w.entry o g t).2.opensClause = false := by
  unfold entry
  rw [← heq]
  exact enter_topLevel hk _ _

/-- Behind the keyword of a declaration the field that is being declared is known from the keyword. -/
theorem mark_topLevel (hw : w.Ready) (hf : w.Fits c) (hc : w.clause = none) (hk : c.token.kind.isTopLevel = true) :
    (w.visit o c).mark =
      if c.token.kind = .kwField then .seeking (Text.Measure.width c.token.text) else .none := by
  have hcode := isCode_of_isTopLevel hk
  have hclears : w.entryClears c.gap c.token = true := by simp [entryClears, clears, hk]
  rw [mark_visit hw hf, markAfter, hc, hcode, hclears]
  simp

/-- Behind a code token nothing else is seen. -/
theorem sight_visit_code (hw : w.Ready) (hf : w.Fits c) (ht : c.token.isCode = true) : (w.visit o c).out.sight =
    ⟨c.token.isAddressType, some c.token.kind, some c.token.kind, some c.token.kind⟩ := by
  rw [visit_out hw hf, Before.sight_cons, Sight.push_code ht]

/-- **A declaration makes a new start.** Behind its keyword two walks outside of all clauses have the same scene,
whatever they have gone over before. -/
theorem scene_visit_topLevel (hw : w.Ready) (hw' : w'.Ready) (hf : w.Fits c) (hf' : w'.Fits c') (hc : w.clause = none)
    (hc' : w'.clause = none) (hk : c.token.kind.isTopLevel = true) (hkey : c.token.key = c'.token.key) :
    (w.visit o c).scene = (w'.visit o c').scene := by
  have hkind : c.token.kind = c'.token.kind := congrArg Prod.fst hkey
  have htext : c.token.text = c'.token.text := congrArg Prod.snd hkey
  have hk' : c'.token.kind.isTopLevel = true := hkind ▸ hk
  have hcode := isCode_of_isTopLevel hk
  have hcode' := isCode_of_isTopLevel hk'
  obtain ⟨hnil, heffect, hopens⟩ := entry_topLevel (o := o) w w' c.gap c'.gap hk hkind
  obtain ⟨hnil', -⟩ := entry_topLevel (o := o) w' w c'.gap c.gap hk' hkind.symm
  obtain ⟨-, hstack, hclause, -⟩ := Walk.visit_code (o := o) hf.gap hw hc hf.fresh hcode
  obtain ⟨-, hstack', hclause', -⟩ := Walk.visit_code (o := o) hf'.gap hw' hc' hf'.fresh hcode'
  refine scene_eq_iff.2 ⟨?_, ?_, ?_, ?_⟩
  · rw [hstack, hstack', hnil, hnil', heffect]
  · rw [hclause, hclause', hopens, ← heffect, hopens]
    rfl
  · rw [mark_topLevel hw hf hc hk, mark_topLevel hw' hf' hc' hk', hkind, htext]
  · rw [sight_visit_code hw hf hcode, sight_visit_code hw' hf' hcode', hkind]
    simp only [Token.isAddressType, hkind, htext]

end Walk

end ScillaLayout
