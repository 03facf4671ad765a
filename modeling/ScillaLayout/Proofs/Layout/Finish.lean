import ScillaLayout.Proofs.Layout.Sight

/-!
# The rules behind the walk

Operators, punctuation, the ends of lines and the spelling of line breaks: each of these rules rewrites the gaps of a
document one by one and looks only at the kinds of the tokens on both sides. `mapGaps` is such a rewriting, and every
rule is one (`Spacing.spaceOperators_cells`, `Spacing.tighten_cells`, `Lines.stripTrailing_cells`,
`Lines.normalize_cells`); together they give `Gap.finished`.
-/

namespace ScillaLayout

theorem kind_ne_of_not_isSpace {t : Token} (h : t.isSpace = false) : t.kind ≠ .whitespace ∧ t.kind ≠ .newline :=
  ⟨fun hk => by simp [Token.isSpace, hk, Kind.isSpace] at h, fun hk => by simp [Token.isSpace, hk, Kind.isSpace] at h⟩

/-! ## Rewriting gap by gap -/

/-- Rewrites the gaps of a document. `f` sees the kinds of the tokens on both sides; `prev` is the kind of the token
before the first gap. -/
def mapGaps (f : Option Kind → Gap → Kind → Gap) (prev : Option Kind) : List Cell → List Cell
  | [] => []
  | c :: cs => ⟨f prev c.gap c.token.kind, c.token⟩ :: mapGaps f (some c.token.kind) cs

@[simp] theorem mapGaps_eq_nil {f : Option Kind → Gap → Kind → Gap} {prev : Option Kind} {cs : List Cell} :
    mapGaps f prev cs = [] ↔ cs = [] := by
  cases cs <;> simp [mapGaps]

theorem mapGaps_mapGaps (f g : Option Kind → Gap → Kind → Gap) (prev : Option Kind) (cs : List Cell) :
    mapGaps f prev (mapGaps g prev cs) = mapGaps (fun p x k => f p (g p x k) k) prev cs := by
  induction cs generalizing prev with
  | nil => rfl
  | cons c cs ih => simp only [mapGaps, ih]

theorem mapGaps_concat (f : Option Kind → Gap → Kind → Gap) (prev : Option Kind) (cs : List Cell) (c : Cell) :
    ∃ p, mapGaps f prev (cs ++ [c]) = mapGaps f prev cs ++ [⟨f p c.gap c.token.kind, c.token⟩] := by
  induction cs generalizing prev with
  | nil => exact ⟨prev, rfl⟩
  | cons d cs ih =>
    obtain ⟨p, hp⟩ := ih (some d.token.kind)
    exact ⟨p, by simp only [List.cons_append, mapGaps, hp]⟩

/-- The kind of the nearest token. -/
def Before.lastKind (out : Before) : Option Kind := out.head?.map (·.kind)

/-- What has been written ends with a token that is no space. -/
def Before.Settled (out : Before) : Prop := ∀ t ∈ out.head?, t.isSpace = false

/-- Cells that go on where `out` is written: nothing stands before the first token of a document. -/
structure Continues (out : Before) (cs : List Cell) : Prop where
  settled : out.Settled
  cells : Cells cs
  fresh : out = [] → ∀ c ∈ cs.head?, c.gap = .empty

theorem Continues.tail {out : Before} {c : Cell} {cs : List Cell} (h : Continues out (c :: cs)) (ts : Before) :
    Continues (c.token :: ts) cs := by
  refine ⟨?_, fun d hd => h.cells d (List.mem_cons_of_mem _ hd), fun hnil => by cases hnil⟩
  simpa [Before.Settled] using (h.cells c List.mem_cons_self).2

/-- A rewriting that keeps gaps tidy and starts no document with a gap. -/
structure Rewrites (f : Option Kind → Gap → Kind → Gap) : Prop where
  proper : ∀ {g : Gap}, g.Proper → ∀ prev next, (f prev g next).Proper
  empty : ∀ next, f none .empty next = .empty

theorem Rewrites.continues {f : Option Kind → Gap → Kind → Gap} (hf : Rewrites f) {out : Before} {cs : List Cell}
    (h : Continues out cs) : Continues out (mapGaps f out.lastKind cs) := by
  refine ⟨h.settled, ?_, ?_⟩
  · have hcells := h.cells
    generalize out.lastKind = prev
    clear h
    induction cs generalizing prev with
    | nil => intro c hc; cases hc
    | cons d cs ih =>
      intro c hc
      rcases List.mem_cons.1 hc with rfl | hc
      · exact ⟨hf.proper (hcells d List.mem_cons_self).1 _ _, (hcells d List.mem_cons_self).2⟩
      · exact ih (fun e he => hcells e (List.mem_cons_of_mem _ he)) _ c hc
  · rintro rfl c hc
    cases cs with
    | nil => cases hc
    | cons d cs =>
      obtain rfl := Option.some.inj hc
      have hd : d.gap = .empty := h.fresh rfl d rfl
      show f none d.gap d.token.kind = .empty
      rw [hd, hf.empty]

/-- A rule that is a fold rewrites gap by gap if it does so for one cell. -/
theorem foldl_cells {step : Before → Token → Before} {f : Option Kind → Gap → Kind → Gap}
    (hstep : ∀ {out : Before} {c : Cell}, Continues out [c] →
      (c.gap.tokens ++ [c.token]).foldl step out =
        c.token :: ((f out.lastKind c.gap c.token.kind).tokens.reverse ++ out))
    {out : Before} {cs : List Cell} (h : Continues out cs) :
    (cellTokens cs).foldl step out = (cellTokens (mapGaps f out.lastKind cs)).reverse ++ out := by
  induction cs generalizing out with
  | nil => rfl
  | cons c cs ih =>
    have hone : Continues out [c] :=
      ⟨h.settled, by simpa [Cells] using h.cells c List.mem_cons_self, fun hnil => by simpa using h.fresh hnil c rfl⟩
    rw [cellTokens_cons, ← List.singleton_append, ← List.append_assoc, List.foldl_append, hstep hone, ih (h.tail _)]
    simp [mapGaps, Before.lastKind]

/-! ## Operators -/

namespace Gap

theorem Proper.withTrail {g : Gap} (hg : g.Proper) {b : Option Token} (hb : ∀ x ∈ b, x.kind = .whitespace) :
    Gap.Proper { g with trail := b } :=
  ⟨hb, hg.breaks, hg.lead, hg.few, hg.inline⟩

/-- The blank of a gap when operators have a space on both sides. A space is put in only within a line, and not before
the end mark. -/
def spacedTrail (prev : Option Kind) (g : Gap) (next : Kind) : Option Token :=
  if g.breaks = [] ∧ (prev.any Spacing.isOperator ∧ next ≠ .eof ∨ prev.isSome ∧ Spacing.isOperator next) then
    some ((g.trail.getD .space).withText " ")
  else if prev.any Spacing.isOperator then g.trail.map (·.withText " ")
  else g.trail

/-- One space before and behind operators. -/
def spaced (prev : Option Kind) (g : Gap) (next : Kind) : Gap := { g with trail := g.spacedTrail prev next }

theorem spaced_rewrites : Rewrites fun prev g next => g.spaced prev next := by
  refine ⟨fun {g} hg prev next => hg.withTrail fun b hb => ?_, fun next => by simp [spaced, spacedTrail, empty]⟩
  unfold spacedTrail at hb
  split at hb
  · obtain rfl := Option.some.inj hb
    cases htrail : g.trail with
    | none => rfl
    | some b => exact hg.trail b htrail
  · split at hb
    · obtain ⟨b', hb', rfl⟩ := Option.map_eq_some_iff.1 hb
      exact hg.trail b' hb'
    · exact hg.trail b hb

end Gap

namespace Spacing

/-- The rules on operators and punctuation never apply to a space. -/
theorem inert_of_isSpace {k : Kind} (h : k.isSpace = true) :
    isOperator k = false ∧ hugsPrevious k = false ∧ hugsNext k = false := by
  cases k <;> first | exact ⟨rfl, rfl, rfl⟩ | cases h

theorem operatorStep_blank {b : Token} (hb : b.kind = .whitespace) (a : Token) (out : Before) :
    operatorStep (a :: out) b = (if isOperator a.kind then b.withText " " else b) :: a :: out := by
  have hop : isOperator .whitespace = false := rfl
  by_cases ha : isOperator a.kind = true <;> simp [operatorStep, afterOperator, hop, hb, ha]

theorem operatorStep_newline {n : Token} (hn : n.isNewline = true) (out : Before) :
    operatorStep out n = n :: out := by
  have hk : n.kind = .newline := isNewline_iff.1 hn
  cases out <;> simp [operatorStep, afterOperator, hk, isOperator]

theorem foldl_operatorStep_breaks {ns : List Token} (hns : ∀ n ∈ ns, n.isNewline = true) (out : Before) :
    ns.foldl operatorStep out = ns.reverse ++ out := by
  induction ns generalizing out with
  | nil => rfl
  | cons n ns ih =>
    rw [List.foldl_cons, operatorStep_newline (hns n List.mem_cons_self),
      ih fun m hm => hns m (List.mem_cons_of_mem _ hm)]
    simp

/-- A token at the start of a line gets no space, and neither does the blank before it. -/
theorem operatorStep_lineStart {out : Before} (hstart : out.isLineStart = true)
    (hlast : ∀ a ∈ out.head?, isOperator a.kind = false) (t : Token) : operatorStep out t = t :: out := by
  have hafter : afterOperator out t = out := by
    cases out with
    | nil => rfl
    | cons a out => simp [afterOperator, hlast a rfl]
  have hany : out.head?.any (isOperator ·.kind) = false := by
    cases out with
    | nil => rfl
    | cons a out => simp [hlast a rfl]
  simp [operatorStep, hafter, beforeOperator, hstart, hany]

/-- Behind a gap that breaks the line nothing is put in. -/
theorem operatorStep_broken {g : Gap} (hg : g.Proper) (hb : g.breaks ≠ []) (out : Before) (t : Token) :
    operatorStep (g.tokens.reverse ++ out) t = t :: (g.tokens.reverse ++ out) := by
  have hstart : Before.isLineStart (g.tokens.reverse ++ out) = true := by
    rw [Before.isLineStart_eq, hg.sight, if_neg hb]
    rfl
  refine operatorStep_lineStart hstart (fun a ha => ?_) t
  have hne : g.tokens.reverse ≠ [] := by simp [Gap.tokens, hb]
  obtain ⟨b, bs, hr⟩ := List.exists_cons_of_ne_nil hne
  rw [hr] at ha
  obtain rfl := Option.some.inj ha
  have hmem : b ∈ g.tokens := by
    rw [← List.mem_reverse, hr]
    exact List.mem_cons_self
  exact (inert_of_isSpace (hg.isSpace b hmem)).1

/-- A token behind a blank within a line. -/
theorem operatorStep_inner {b : Token} (hb : b.kind = .whitespace) {out : Before}
    (hstart : Before.isLineStart (b :: out) = false) (t : Token) :
    operatorStep (b :: out) t = t :: (if isOperator t.kind then b.withText " " else b) :: out := by
  have hop : isOperator .whitespace = false := rfl
  by_cases htop : isOperator t.kind = true <;>
    simp [operatorStep, afterOperator, beforeOperator, hop, hstart, htop, hb]

/-- A token directly behind another. -/
theorem operatorStep_adjacent {a t : Token} (ha : a.isSpace = false) (ht : t.isSpace = false) (out : Before) :
    operatorStep (a :: out) t =
      if isOperator a.kind ∧ t.kind ≠ .eof ∨ isOperator t.kind then t :: .space :: a :: out else t :: a :: out := by
  obtain ⟨htw, htn⟩ := kind_ne_of_not_isSpace ht
  have hstart : Before.isLineStart (a :: out) = false := Before.isLineStart_cons ha out
  have hstart' : Before.isLineStart (.space :: a :: out) = false := hstart
  have hafter : afterOperator (a :: out) t =
      if isOperator a.kind ∧ t.kind ≠ .eof then .space :: a :: out else a :: out := by
    simp [afterOperator, htw, htn]
  have hbefore : beforeOperator (a :: out) = .space :: a :: out := by
    simp [beforeOperator, hstart, (kind_ne_of_not_isSpace ha).1]
  have hbefore' : beforeOperator (.space :: a :: out) = .space :: a :: out := by
    simp only [beforeOperator, hstart', Bool.false_eq_true, if_false]
    rfl
  unfold operatorStep
  rw [hafter]
  by_cases haop : isOperator a.kind ∧ t.kind ≠ .eof
  · by_cases htop : isOperator t.kind = true <;> simp [haop, htop, htw, hbefore']
  · by_cases htop : isOperator t.kind = true <;> simp [haop, htop, htw, hbefore]

/-- Operators get their spaces in a gap within a line. -/
theorem foldl_operatorStep_inline {g : Gap} (hg : g.Proper) (hb : g.breaks = []) {a t : Token}
    (ha : a.isSpace = false) (ht : t.isSpace = false) (out : Before) :
    operatorStep (g.tokens.foldl operatorStep (a :: out)) t =
      t :: ((g.spaced (some a.kind) t.kind).tokens.reverse ++ a :: out) := by
  cases htrail : g.trail with
  | none =>
    have htokens : g.tokens = [] := by simp [Gap.tokens, hb, htrail, hg.inline hb]
    rw [htokens, List.foldl_nil, operatorStep_adjacent ha ht]
    by_cases hop : isOperator a.kind ∧ t.kind ≠ .eof ∨ isOperator t.kind
    · simp [hop, Gap.spaced, Gap.spacedTrail, hb, htrail, Gap.tokens, hg.inline hb, Token.withText, Token.space,
        Token.synthetic]
    · simp [hop, Gap.spaced, Gap.spacedTrail, hb, htrail, Gap.tokens, hg.inline hb]
  | some b =>
    have hbk : b.kind = .whitespace := hg.trail b htrail
    have htokens : g.tokens = [b] := by simp [Gap.tokens, hb, htrail, hg.inline hb]
    have hblank : (if isOperator a.kind then b.withText " " else b).kind = .whitespace := by split <;> exact hbk
    rw [htokens, List.foldl_cons, List.foldl_nil, operatorStep_blank hbk,
      operatorStep_inner hblank (Before.isLineStart_blank ha hblank out)]
    by_cases haop : isOperator a.kind = true <;> by_cases htop : isOperator t.kind = true <;>
      simp [haop, htop, Gap.spaced, Gap.spacedTrail, hb, htrail, Gap.tokens, hg.inline hb, Token.withText]

/-- Of a gap that breaks the line only the blank behind an operator changes. -/
theorem foldl_operatorStep_broken {g : Gap} (hg : g.Proper) (hb : g.breaks ≠ []) (a t : Token) (out : Before) :
    operatorStep (g.tokens.foldl operatorStep (a :: out)) t =
      t :: ((g.spaced (some a.kind) t.kind).tokens.reverse ++ a :: out) := by
  have hspaced : g.spaced (some a.kind) t.kind =
      { g with trail := if isOperator a.kind then g.trail.map (·.withText " ") else g.trail } := by
    simp [Gap.spaced, Gap.spacedTrail, hb]
  have hproper := Gap.spaced_rewrites.proper hg (some a.kind) t.kind
  have htrail : g.trail.toList.foldl operatorStep (a :: out) =
      (if isOperator a.kind then g.trail.map (·.withText " ") else g.trail).toList ++ a :: out := by
    cases hopt : g.trail with
    | none => simp
    | some b =>
      have hstep := operatorStep_blank (hg.trail b hopt) a out
      by_cases hop : isOperator a.kind = true <;> simpa [hop] using hstep
  have hlead : ∀ b : Token, operatorStep
      (({ g.spaced (some a.kind) t.kind with lead := none } : Gap).tokens.reverse ++ a :: out) b =
      b :: (({ g.spaced (some a.kind) t.kind with lead := none } : Gap).tokens.reverse ++ a :: out) :=
    fun b => operatorStep_broken hproper.unindented (by simpa [hspaced] using hb) _ b
  have hfold : g.tokens.foldl operatorStep (a :: out) =
      (g.spaced (some a.kind) t.kind).tokens.reverse ++ a :: out := by
    rw [Gap.tokens, List.foldl_append, List.foldl_append, htrail, foldl_operatorStep_breaks hg.breaks]
    rw [hspaced] at hlead ⊢
    simp only [Gap.tokens_reverse, Option.toList_none, List.nil_append] at hlead ⊢
    cases g.lead with
    | none => simp
    | some b => simpa using hlead b
  rw [hfold, operatorStep_broken hproper (by simpa [hspaced] using hb)]

/-- Operators get their spaces in every gap. -/
theorem foldl_operatorStep_cell {out : Before} {c : Cell} (h : Continues out [c]) :
    (c.gap.tokens ++ [c.token]).foldl operatorStep out =
      c.token :: ((c.gap.spaced out.lastKind c.token.kind).tokens.reverse ++ out) := by
  obtain ⟨hg, ht⟩ := h.cells c (by simp)
  rw [List.foldl_append, List.foldl_cons, List.foldl_nil]
  cases out with
  | nil =>
    have hgap : c.gap = .empty := h.fresh rfl c rfl
    have hfirst : operatorStep [] c.token = [c.token] := operatorStep_lineStart rfl (by simp) c.token
    rw [hgap]
    simpa [Gap.spaced, Gap.spacedTrail, Gap.empty, Gap.tokens, Before.lastKind] using hfirst
  | cons a out =>
    by_cases hb : c.gap.breaks = []
    · exact foldl_operatorStep_inline hg hb (h.settled a rfl) ht out
    · exact foldl_operatorStep_broken hg hb a c.token out

theorem spaceOperators_cells {cs : List Cell} (h : Continues [] cs) :
    spaceOperators (cellTokens cs) = cellTokens (mapGaps (fun prev g next => g.spaced prev next) none cs) := by
  rw [spaceOperators, foldl_cells (f := fun prev g next => g.spaced prev next) foldl_operatorStep_cell h]
  simp [Before.lastKind]

end Spacing

/-! ## Punctuation -/

namespace Gap

/-- A gap without its blank if the token before it allows none. -/
def tightenedAfter (prev : Option Kind) (g : Gap) : Gap :=
  { g with trail := if prev.any Spacing.hugsNext then none else g.trail }

/-- A gap without its blank if the token behind it allows none. At the end of a line nothing goes. -/
def tightenedBefore (g : Gap) (next : Kind) : Gap :=
  { g with trail := if g.breaks = [] ∧ Spacing.hugsPrevious next then none else g.trail }

/-- Punctuation keeps to its neighbours. -/
def tightened (prev : Option Kind) (g : Gap) (next : Kind) : Gap := (g.tightenedAfter prev).tightenedBefore next

theorem Proper.tightenedAfter {g : Gap} (hg : g.Proper) (prev : Option Kind) : (g.tightenedAfter prev).Proper := by
  refine hg.withTrail fun b hb => ?_
  split at hb
  · cases hb
  · exact hg.trail b hb

theorem Proper.tightenedBefore {g : Gap} (hg : g.Proper) (next : Kind) : (g.tightenedBefore next).Proper := by
  refine hg.withTrail fun b hb => ?_
  split at hb
  · cases hb
  · exact hg.trail b hb

theorem tightened_rewrites : Rewrites fun prev g next => g.tightened prev next :=
  ⟨fun hg prev next => (hg.tightenedAfter prev).tightenedBefore next,
    fun next => by simp [tightened, tightenedAfter, tightenedBefore, empty]⟩

end Gap

namespace Spacing

/-- What stands before a token once a blank before punctuation is gone. -/
def hugged (out : Before) (k : Kind) : Before := if hugsPrevious k then beforeHugging out else out

theorem tightenFrom_spaces {bs : List Token} (hbs : ∀ b ∈ bs, b.isSpace = true) (out : Before) (t : Token)
    (ts : List Token) : tightenFrom out (bs ++ t :: ts) = tightenFrom (bs.reverse ++ out) (t :: ts) := by
  induction bs generalizing out with
  | nil => rfl
  | cons b bs ih =>
    have hkind : hugsPrevious b.kind = false ∧ hugsNext b.kind = false :=
      (inert_of_isSpace (hbs b List.mem_cons_self)).2
    have hstep : ∀ (next : Token) (us : List Token), tightenFrom out (b :: next :: us) =
        tightenFrom (b :: out) (next :: us) := fun next us => by simp [tightenFrom, hkind]
    have hrest := ih (fun c hc => hbs c (List.mem_cons_of_mem _ hc)) (b :: out)
    cases bs with
    | nil => exact hstep t ts
    | cons c cs =>
      rw [List.cons_append, List.cons_append, hstep, ← List.cons_append, hrest]
      simp

/-- A token takes the blank behind it along when it allows none. -/
theorem tightenFrom_token {g : Gap} (hg : g.Proper) {t u : Token} (hu : u.isSpace = false) (out : Before)
    (ts : List Token) : tightenFrom out (t :: (g.tokens ++ u :: ts)) =
      tightenFrom ((g.tightenedAfter (some t.kind)).tokens.reverse ++ t :: hugged out t.kind) (u :: ts) := by
  have hspaces := (hg.tightenedAfter (some t.kind)).isSpace
  rw [← tightenFrom_spaces hspaces]
  cases htrail : g.trail with
  | some b =>
    have hb := hg.trail b htrail
    by_cases hnext : hugsNext t.kind = true <;>
      simp [Gap.tightenedAfter, Gap.tokens, htrail, tightenFrom, hugged, hb, hnext]
  | none =>
    have hsame : g.tightenedAfter (some t.kind) = g := by simp [Gap.tightenedAfter, ← htrail]
    have hstep : ∀ (next : Token) (us : List Token), next.kind ≠ .whitespace →
        tightenFrom out (t :: next :: us) = tightenFrom (t :: hugged out t.kind) (next :: us) := fun next us hk => by
      simp [tightenFrom, hugged, hk]
    rw [hsame]
    cases hbreaks : g.breaks with
    | nil =>
      have htokens : g.tokens = [] := by simp [Gap.tokens, htrail, hbreaks, hg.inline hbreaks]
      rw [htokens]
      exact hstep u ts (kind_ne_of_not_isSpace hu).1
    | cons n ns =>
      have hn : n.kind = .newline := isNewline_iff.1 (hg.breaks n (by rw [hbreaks]; exact List.mem_cons_self))
      have htokens : g.tokens = n :: (ns ++ g.lead.toList) := by simp [Gap.tokens, htrail, hbreaks]
      rw [htokens]
      exact hstep n _ (by rw [hn]; simp)

theorem beforeHugging_lineStart {out : Before} (h : out.isLineStart = true) : beforeHugging out = out := by
  cases out with
  | nil => rfl
  | cons a out => simp [beforeHugging, h]

/-- Punctuation drops the blank before it within a line. -/
theorem hugged_gap {g : Gap} (hg : g.Proper) {out : Before} (hout : out.Settled) (hfresh : out = [] → g = .empty)
    (k : Kind) : hugged (g.tokens.reverse ++ out) k = (g.tightenedBefore k).tokens.reverse ++ out := by
  unfold hugged
  by_cases hk : hugsPrevious k = true
  · rw [if_pos hk]
    by_cases hb : g.breaks = []
    · cases htrail : g.trail with
      | none =>
        have htokens : g.tokens = [] := by simp [Gap.tokens, htrail, hb, hg.inline hb]
        have hsame : g.tightenedBefore k = g := by simp [Gap.tightenedBefore, ← htrail]
        rw [hsame, htokens]
        cases out with
        | nil => rfl
        | cons a out => simp [beforeHugging, (kind_ne_of_not_isSpace (hout a rfl)).1]
      | some b =>
        have hbk := hg.trail b htrail
        cases out with
        | nil =>
          rw [hfresh rfl] at htrail
          cases htrail
        | cons a out =>
          have hstart : Before.isLineStart (b :: a :: out) = false := Before.isLineStart_blank (hout a rfl) hbk out
          simp [Gap.tightenedBefore, Gap.tokens, htrail, hb, hk, hg.inline hb, beforeHugging, hbk, hstart]
    · have hstart : Before.isLineStart (g.tokens.reverse ++ out) = true := by
        rw [Before.isLineStart_eq, hg.sight, if_neg hb]
        rfl
      have hsame : g.tightenedBefore k = g := by simp [Gap.tightenedBefore, hb]
      rw [hsame, beforeHugging_lineStart hstart]
  · have hsame : g.tightenedBefore k = g := by simp [Gap.tightenedBefore, hk]
    rw [if_neg hk, hsame]

/-- Punctuation is tightened in every gap; the first one has already met the token before it. -/
theorem tightenFrom_cells {out : Before} {c : Cell} {cs : List Cell} (h : Continues out (c :: cs)) :
    tightenFrom (c.gap.tokens.reverse ++ out) (c.token :: cellTokens cs) =
      (cellTokens (⟨c.gap.tightenedBefore c.token.kind, c.token⟩ ::
        mapGaps (fun prev g next => g.tightened prev next) (some c.token.kind) cs)).reverse ++ out := by
  have hc := h.cells c List.mem_cons_self
  have hhug := hugged_gap hc.1 h.settled (fun hnil => h.fresh hnil c rfl) c.token.kind
  induction cs generalizing out c with
  | nil =>
    rw [hugged] at hhug
    simp [tightenFrom, mapGaps, hhug]
  | cons d cs ih =>
    have htail := h.tail ((c.gap.tightenedBefore c.token.kind).tokens.reverse ++ out)
    have hd := htail.cells d List.mem_cons_self
    have hnext : Continues (c.token :: ((c.gap.tightenedBefore c.token.kind).tokens.reverse ++ out))
        (⟨d.gap.tightenedAfter (some c.token.kind), d.token⟩ :: cs) := by
      refine ⟨htail.settled, fun e he => ?_, fun hnil => by cases hnil⟩
      rcases List.mem_cons.1 he with rfl | he
      · exact ⟨hd.1.tightenedAfter _, hd.2⟩
      · exact htail.cells e (List.mem_cons_of_mem _ he)
    rw [cellTokens_cons, tightenFrom_token hd.1 hd.2, hhug]
    refine (ih hnext ⟨hd.1.tightenedAfter _, hd.2⟩
      (hugged_gap (hd.1.tightenedAfter _) hnext.settled (by simp) _)).trans ?_
    simp [mapGaps, Gap.tightened]

theorem tighten_cells {cs : List Cell} (h : Continues [] cs) :
    tighten (cellTokens cs) = cellTokens (mapGaps (fun prev g next => g.tightened prev next) none cs) := by
  cases cs with
  | nil => rfl
  | cons c cs =>
    have hgap : c.gap = .empty := h.fresh rfl c rfl
    have hcells := tightenFrom_cells h
    rw [tighten, cellTokens_cons]
    rw [hgap] at hcells ⊢
    simp only [Gap.tokens_empty, List.reverse_nil, List.nil_append, List.append_nil] at hcells ⊢
    rw [hcells, List.reverse_reverse]
    simp [mapGaps, hgap, Gap.tightened, Gap.tightenedAfter]

end Spacing

/-! ## The ends of lines and of the document -/

namespace Gap

/-- A gap without the blank at the end of a line. -/
def stripped (g : Gap) : Gap := if g.breaks = [] then g else { g with trail := none }

theorem stripped_rewrites : Rewrites fun _ g _ => g.stripped := by
  refine ⟨fun {g} hg _ _ => ?_, fun _ => rfl⟩
  simp only [stripped]
  split
  · exact hg
  · exact hg.withTrail (by simp)

/-- A gap with its line breaks as the options want them. -/
def normalized (o : Options) (g : Gap) : Gap := { g with breaks := g.breaks.map (·.withText o.newline) }

end Gap

namespace Lines

theorem stripStep_other {t : Token} (ht : t.isNewline = false) (out : Before) : stripStep out t = t :: out := by
  simp [stripStep, ht]

theorem foldl_stripStep_breaks {ns : List Token} (hns : ∀ n ∈ ns, n.isNewline = true) (out : Before) :
    ns.foldl stripStep out = ns.reverse ++ if ns = [] then out else out.trimmed := by
  induction ns generalizing out with
  | nil => rfl
  | cons n ns ih =>
    have hn := hns n List.mem_cons_self
    have hstep : stripStep out n = n :: out.trimmed := by simp [stripStep, hn]
    have htrim : Before.trimmed (n :: out.trimmed) = n :: out.trimmed := by
      simp [Before.trimmed, isWhitespace_of_isNewline hn]
    rw [List.foldl_cons, hstep, ih (fun m hm => hns m (List.mem_cons_of_mem _ hm)), htrim]
    simp

theorem foldl_stripStep_blank {b : Option Token} (hb : ∀ x ∈ b, x.isWhitespace = true) (out : Before) :
    b.toList.foldl stripStep out = b.toList ++ out := by
  cases b with
  | none => rfl
  | some b => exact stripStep_other (isNewline_of_isWhitespace (hb b rfl)) out

/-- Blanks at the ends of lines go in every gap. -/
theorem foldl_stripStep_cell {out : Before} {c : Cell} (h : Continues out [c]) :
    (c.gap.tokens ++ [c.token]).foldl stripStep out = c.token :: (c.gap.stripped.tokens.reverse ++ out) := by
  obtain ⟨hg, ht⟩ := h.cells c (by simp)
  have htrail : ∀ b ∈ c.gap.trail, b.isWhitespace = true := fun b hb => isWhitespace_of_kind (hg.trail b hb)
  have htrim : Before.trimmed (c.gap.trail.toList ++ out) = out := Before.trimmed_blank h.settled htrail
  rw [isSpace_eq, Bool.or_eq_false_iff] at ht
  rw [List.foldl_append, List.foldl_cons, List.foldl_nil, stripStep_other ht.2, Gap.tokens, List.foldl_append,
    List.foldl_append, foldl_stripStep_blank htrail, foldl_stripStep_breaks hg.breaks, foldl_stripStep_blank hg.lead,
    htrim]
  by_cases hb : c.gap.breaks = [] <;> simp [Gap.stripped, Gap.tokens_reverse, hb]

theorem stripTrailing_cells {cs : List Cell} (h : Continues [] cs) :
    stripTrailing (cellTokens cs) = cellTokens (mapGaps (fun _ g _ => g.stripped) none cs) := by
  rw [stripTrailing, foldl_cells (f := fun _ g _ => g.stripped) foldl_stripStep_cell h]
  simp [Before.lastKind]

theorem normalize_cells (o : Options) {cs : List Cell} (h : Cells cs) (prev : Option Kind) :
    normalize o (cellTokens cs) = cellTokens (mapGaps (fun _ g _ => g.normalized o) prev cs) := by
  induction cs generalizing prev with
  | nil => rfl
  | cons c cs ih =>
    obtain ⟨hg, ht⟩ := h c List.mem_cons_self
    have hcells := ih (fun d hd => h d (List.mem_cons_of_mem _ hd)) (some c.token.kind)
    have hblank : ∀ {b : Option Token}, (∀ x ∈ b, x.isWhitespace = true) →
        b.toList.map (fun t => if t.isNewline then t.withText o.newline else t) = b.toList := by
      intro b hb
      cases b with
      | none => rfl
      | some b => simp [isNewline_of_isWhitespace (hb b rfl)]
    have hbreaks : c.gap.breaks.map (fun t => if t.isNewline then t.withText o.newline else t) =
        c.gap.breaks.map (·.withText o.newline) := List.map_congr_left fun n hn => by simp [hg.breaks n hn]
    rw [isSpace_eq, Bool.or_eq_false_iff] at ht
    simp only [normalize, mapGaps, cellTokens_cons, Gap.tokens, Gap.normalized, List.map_append,
      List.map_cons] at hcells ⊢
    rw [hblank fun b hb => isWhitespace_of_kind (hg.trail b hb), hblank hg.lead, hbreaks, hcells]
    simp [ht.2]

/-- The spaces before the end mark give way to one line break, or to nothing. -/
theorem trimEnd_cells (o : Options) {cs : List Cell} (h : Cells cs) {g : List Token}
    (hg : ∀ t ∈ g, t.isSpace = true) {e : Token} (he : e.kind = .eof) :
    trimEnd o (cellTokens cs ++ (g ++ [e])) =
      cellTokens cs ++ ((if cs ≠ [] ∧ o.endWithNewline then [o.newlineToken] else []) ++ [e]) := by
  have hlast : (cellTokens cs ++ (g ++ [e])).getLast? = some e := by simp
  have hbody : (cellTokens cs ++ (g ++ [e])).dropLast = cellTokens cs ++ g := by
    rw [← List.append_assoc, List.dropLast_concat]
  have hdrop : (cellTokens cs ++ g).reverse.dropWhile (·.isSpace) =
      (cellTokens cs).reverse.dropWhile (·.isSpace) := by
    rw [List.reverse_append, List.dropWhile_append_of_pos (by simpa using hg)]
  rw [trimEnd, hlast]
  simp only [he, beq_self_eq_true, if_true, hbody, trimBody, hdrop]
  rcases List.eq_nil_or_concat cs with rfl | ⟨ds, d, rfl⟩
  · simp
  · have hd : d.token.isSpace = false := (h d (by simp)).2
    have htokens : (cellTokens (ds ++ [d])).reverse = d.token :: (d.gap.tokens.reverse ++ (cellTokens ds).reverse) := by
      simp [cellTokens]
    rw [List.concat_eq_append, htokens, List.dropWhile_cons_of_neg (by simp [hd])]
    simp only [← htokens, List.reverse_reverse]
    simp

end Lines

end ScillaLayout
