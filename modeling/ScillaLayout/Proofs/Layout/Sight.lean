import ScillaLayout.Layout.Indentation
import ScillaLayout.Proofs.Layout.Gap

/-!
# What the walk sees

The walk looks back at what it has written, but only at a few things. A `Sight` holds what it sees of the tokens before
a place, and a `Mark` where the lines of a field declaration are aligned. Both can be kept up to date token by token
(`Before.sight_append`, `Walk.markAt_append`), and everything the walk decides depends on them and on the open blocks.
-/

namespace ScillaLayout

/-! ## Looking back -/

/-- What the walk sees of the tokens before a place. -/
structure Sight where
  /-- Whether the nearest token that is no space is an address type. -/
  address : Bool := false
  /-- The kind of the nearest code token. -/
  code : Option Kind := none
  /-- The kind of the nearest code token of the line. -/
  lineCode : Option Kind := none
  /-- The kind of the nearest token of the line that is no blank. -/
  lineLast : Option Kind := none
  deriving DecidableEq, Repr

/-- The address type whose clauses are written on one line. -/
def Token.isAddressType (t : Token) : Bool := t.kind == .bystrType && t.text == "ByStr20"

namespace Sight

/-- A new line starts. -/
def newline (s : Sight) : Sight := { s with lineCode := none, lineLast := none }

/-- What is seen behind one more token. -/
def push (s : Sight) (t : Token) : Sight :=
  if t.isWhitespace then s
  else if t.isNewline then s.newline
  else if t.isCode then ⟨t.isAddressType, some t.kind, some t.kind, some t.kind⟩
  else { s with address := t.isAddressType, lineLast := some t.kind }

@[simp] theorem push_blank {t : Token} (ht : t.isWhitespace = true) (s : Sight) : s.push t = s := if_pos ht

@[simp] theorem push_newline {t : Token} (ht : t.isNewline = true) (s : Sight) : s.push t = s.newline := by
  rw [push, isWhitespace_of_isNewline ht, if_neg (by simp), if_pos ht]

theorem foldl_push_breaks {ns : List Token} (hns : ∀ n ∈ ns, n.isNewline = true) (s : Sight) :
    ns.foldl push s = if ns = [] then s else s.newline := by
  induction ns generalizing s with
  | nil => rfl
  | cons n ns ih =>
    -- a second line break hides no more than the first
    have htwice : s.newline.newline = s.newline := rfl
    rw [List.foldl_cons, push_newline (hns n List.mem_cons_self), ih fun m hm => hns m (List.mem_cons_of_mem _ hm)]
    simp [htwice]

theorem foldl_push_blank {b : Option Token} (hb : ∀ x ∈ b, x.isWhitespace = true) (s : Sight) :
    b.toList.foldl push s = s := by
  cases b with
  | none => rfl
  | some b => exact push_blank (hb b rfl) s

/-- Spaces hide neither an address type nor the nearest code token. -/
theorem foldl_push_spaces {ts : List Token} (hts : ∀ t ∈ ts, t.isSpace = true) (s : Sight) :
    (ts.foldl push s).address = s.address ∧ (ts.foldl push s).code = s.code := by
  induction ts generalizing s with
  | nil => exact ⟨rfl, rfl⟩
  | cons t ts ih =>
    obtain ⟨haddr, hcode⟩ := ih (fun u hu => hts u (List.mem_cons_of_mem _ hu)) (s.push t)
    have ht := hts t List.mem_cons_self
    rw [isSpace_eq, Bool.or_eq_true] at ht
    rw [List.foldl_cons, haddr, hcode]
    rcases ht with ht | ht
    · rw [push_blank ht]; exact ⟨rfl, rfl⟩
    · rw [push_newline ht]; exact ⟨rfl, rfl⟩

/-- A line break hides the code of the line. -/
theorem lineCode_foldl_spaces {g : List Token} (hg : ∀ t ∈ g, t.isSpace = true) (s : Sight) :
    (g.foldl push s).lineCode = if g.countP (·.isNewline) = 0 then s.lineCode else none := by
  induction g generalizing s with
  | nil => rfl
  | cons t g ih =>
    have ht := hg t List.mem_cons_self
    rw [List.foldl_cons, ih fun u hu => hg u (List.mem_cons_of_mem _ hu), List.countP_cons]
    rw [isSpace_eq, Bool.or_eq_true] at ht
    rcases ht with ht | ht
    · simp [push_blank ht, isNewline_of_isWhitespace ht]
    · simp [newline, ht]

theorem push_code {t : Token} (ht : t.isCode = true) (s : Sight) :
    s.push t = ⟨t.isAddressType, some t.kind, some t.kind, some t.kind⟩ := by
  have hspace : t.isSpace = false := Kind.isSpace_eq_false_of_isCode ht
  rw [isSpace_eq, Bool.or_eq_false_iff] at hspace
  rw [push, hspace.1, hspace.2, ht]
  rfl

theorem lineCode_push_comment {t : Token} (hs : t.isSpace = false) (ht : t.isCode = false) (s : Sight) :
    (s.push t).lineCode = s.lineCode := by
  rw [isSpace_eq, Bool.or_eq_false_iff] at hs
  rw [push, hs.1, hs.2, ht]
  rfl

end Sight

namespace Before

/-- What is seen of the tokens before a place. -/
def sight (b : Before) : Sight where
  address := b.followsAddressType
  code := b.code.head?.map (·.kind)
  lineCode := b.codeOnLine.head?.map (·.kind)
  lineLast := b.onLine.head?.map (·.kind)

@[simp] theorem sight_nil : sight [] = {} := rfl

/-- One more token is seen through `Sight.push`. -/
theorem sight_cons (t : Token) (b : Before) : sight (t :: b) = b.sight.push t := by
  obtain ⟨k, x, s⟩ := t
  cases k <;> rfl

theorem sight_append (ts : List Token) (b : Before) : sight (ts.reverse ++ b) = ts.foldl Sight.push b.sight := by
  induction ts generalizing b with
  | nil => rfl
  | cons t ts ih => simpa [sight_cons] using ih (t :: b)

theorem isLineStart_eq (b : Before) : b.isLineStart = b.sight.lineLast.isNone := by
  unfold isLineStart sight
  cases b.onLine <;> rfl

theorem isLineStart_cons {t : Token} (h : t.isSpace = false) (b : Before) : isLineStart (t :: b) = false := by
  rw [isSpace_eq, Bool.or_eq_false_iff] at h
  simp [isLineStart, onLine, seek, h]

theorem isLineStart_blank {t u : Token} (ht : t.isSpace = false) (hu : u.kind = .whitespace) (b : Before) :
    isLineStart (u :: t :: b) = false := by
  rw [isLineStart_eq, sight_cons, Sight.push_blank (isWhitespace_of_kind hu), ← isLineStart_eq, isLineStart_cons ht]

/-- Trimming takes one blank and stops at a token that is no space. -/
theorem trimmed_blank {b : Before} (hb : ∀ t ∈ b.head?, t.isSpace = false) {u : Option Token}
    (hu : ∀ x ∈ u, x.isWhitespace = true) : trimmed (u.toList ++ b) = b := by
  have hself : trimmed b = b := by
    cases b with
    | nil => rfl
    | cons t b =>
      have ht := hb t rfl
      rw [isSpace_eq, Bool.or_eq_false_iff] at ht
      simp [trimmed, ht.1]
  cases u with
  | none => exact hself
  | some u => simpa [trimmed, hu u rfl] using hself

theorem followsIn_eq (b : Before) : b.followsIn = b.sight.lineCode.any (· == .kwIn) := by
  simp [followsIn, sight, Option.any_map]

end Before

namespace Gap

/-- Behind a gap the same is seen as before it, or the start of a line. -/
theorem Proper.sight {g : Gap} (hg : g.Proper) (out : Before) :
    Before.sight (g.tokens.reverse ++ out) = if g.breaks = [] then out.sight else out.sight.newline := by
  rw [Before.sight_append, Gap.tokens, List.foldl_append, List.foldl_append,
    Sight.foldl_push_blank fun b hb => isWhitespace_of_kind (hg.trail b hb), Sight.foldl_push_breaks hg.breaks,
    Sight.foldl_push_blank hg.lead]

/-- A gap with at least one line break. -/
def broken (o : Options) (g : Gap) : Gap :=
  if g.breaks = [] then { g with breaks := [o.newlineToken] } else g

theorem Proper.broken {o : Options} {g : Gap} (hg : g.Proper) : (g.broken o).Proper := by
  unfold Gap.broken
  split
  · next hb =>
    have hlead := hg.inline hb
    have hbreak : ∀ n ∈ [o.newlineToken], n.isNewline = true := by
      simp [Options.newlineToken, Token.isNewline, Token.synthetic]
    exact ⟨hg.trail, hbreak, by simp [hlead], by simp, by simp⟩
  · exact hg

theorem broken_breaks {o : Options} (g : Gap) : (g.broken o).breaks ≠ [] := by
  unfold Gap.broken
  split
  · simp
  · assumption

end Gap

/-! ## The mark of a field -/

/-- Where the lines of a field declaration are aligned. -/
inductive Mark where
  /-- There is no declaration. -/
  | none
  /-- The name has not been seen; so much of the line is written. -/
  | seeking (width : Nat)
  /-- Lines are moved so far. -/
  | fixed (width : Nat)
  deriving DecidableEq, Repr

namespace Mark

/-- How far a line is moved. -/
def width : Mark → Nat
  | .fixed n => n
  | _ => 0

variable [Text.Measure]

/-- The mark behind one more token: a name fixes it, and so does a line break or any other code token before a name. -/
def push (m : Mark) (t : Token) : Mark :=
  match m with
  | .seeking n =>
    if t.isNewline then .fixed 0
    else if t.isCode then .fixed (if t.kind.namesField then n else 0)
    else .seeking (n + Text.Measure.width t.text)
  | m => m

@[simp] theorem push_none (t : Token) : Mark.none.push t = .none := rfl

@[simp] theorem push_fixed (n : Nat) (t : Token) : (Mark.fixed n).push t = .fixed n := rfl

@[simp] theorem foldl_none (ts : List Token) : ts.foldl push .none = .none := by
  induction ts with
  | nil => rfl
  | cons t ts ih => exact ih

@[simp] theorem foldl_fixed (ts : List Token) (n : Nat) : ts.foldl push (.fixed n) = .fixed n := by
  induction ts with
  | nil => rfl
  | cons t ts ih => exact ih

/-- Spaces and comments do not change the width. -/
theorem width_foldl {ts : List Token} (h : ∀ t ∈ ts, t.isCode = false) (m : Mark) :
    (ts.foldl push m).width = m.width := by
  induction ts generalizing m with
  | nil => rfl
  | cons t ts ih =>
    rw [List.foldl_cons, ih fun u hu => h u (List.mem_cons_of_mem _ hu)]
    cases m with
    | seeking n =>
      simp only [push, h t List.mem_cons_self, Bool.false_eq_true, if_false]
      split <;> rfl
    | _ => rfl

end Mark

namespace Walk

variable [Text.Measure]

/-- The mark when `out` is written and a keyword stands at index `keyword`. -/
def markAt (out : Before) (keyword : Nat) : Mark :=
  (out.take (out.length - (keyword + 1))).reverse.foldl Mark.push
    (.seeking (Before.lineWidth (out.drop (out.length - (keyword + 1)))))

/-- The mark of the field that is being declared. -/
def mark (w : Walk) : Mark := (w.field.map (markAt w.out)).getD .none

/-- Tokens behind the keyword are seen through `Mark.push`. -/
theorem markAt_append (ts : List Token) {out : Before} {keyword : Nat} (h : keyword < out.length) :
    markAt (ts.reverse ++ out) keyword = ts.foldl Mark.push (markAt out keyword) := by
  have hlen : (ts.reverse ++ out).length - (keyword + 1) = ts.reverse.length + (out.length - (keyword + 1)) := by
    rw [List.length_append]; omega
  rw [markAt, hlen, List.take_length_add_append, List.drop_length_add_append, List.reverse_append,
    List.reverse_reverse, List.foldl_append]
  rfl

/-- The mark of a keyword that has just been written. -/
theorem markAt_keyword (t : Token) (out : Before) :
    markAt (t :: out) out.length = .seeking (Before.lineWidth (t :: out)) := by
  simp [markAt]

theorem lineWidth_append {ts : List Token} (h : ∀ t ∈ ts, t.isNewline = false) (out : Before) :
    Before.lineWidth (ts ++ out) = ts.foldr (Text.Measure.width ·.text + ·) (Before.lineWidth out) := by
  rw [Before.lineWidth, Before.line, List.takeWhile_append_of_pos (by simpa using h), List.foldr_append]
  rfl

/-- What is seen of the tokens behind a keyword, and what `fieldPadding` reads off them. -/
theorem width_foldl_seeking (ts : List Token) (n : Nat) :
    (ts.foldl Mark.push (.seeking n)).width =
      match ts.dropWhile (!·.isCode) with
      | name :: _ =>
        if name.kind.namesField && (ts.takeWhile (!·.isCode)).all (!·.isNewline) then
          (ts.takeWhile (!·.isCode)).foldl (fun n t => Text.Measure.width t.text + n) n
        else 0
      | [] => 0 := by
  induction ts generalizing n with
  | nil => rfl
  | cons t ts ih =>
    by_cases hn : t.isNewline = true
    · have hc : t.isCode = false := by simp [Token.isCode, isNewline_iff.1 hn, Kind.isCode]
      simp only [List.foldl_cons, Mark.push, hn, hc, if_true, Mark.foldl_fixed, Mark.width, List.dropWhile_cons,
        List.takeWhile_cons, Bool.not_false, Bool.not_true, List.all_cons, Bool.false_and, Bool.and_false]
      split <;> rfl
    · by_cases hc : t.isCode = true
      · simp [Mark.push, hn, hc, Mark.width]
      · have hstep : Mark.push (.seeking n) t = .seeking (n + Text.Measure.width t.text) := by simp [Mark.push, hn, hc]
        rw [List.foldl_cons, hstep, ih]
        simp [hn, hc, Nat.add_comm n]

/-- The padding of a field is the width of its mark. -/
theorem fieldPadding_eq (out : Before) (keyword : Nat) : fieldPadding out keyword = (markAt out keyword).width := by
  rw [markAt, width_foldl_seeking, fieldPadding]
  generalize (out.take (out.length - (keyword + 1))).reverse = behind
  cases behind.dropWhile (!·.isCode) with
  | nil => rfl
  | cons name rest =>
    simp only
    split
    · next h =>
      simp only [Bool.and_eq_true, List.all_eq_true, Bool.not_eq_true'] at h
      rw [lineWidth_append (by simpa using h.2), List.foldr_reverse]
    · rfl

theorem padding_eq (w : Walk) : w.padding = if Block.field ∈ w.stack then w.mark.width else 0 := by
  unfold padding mark
  cases w.field with
  | none => rfl
  | some k => simp [fieldPadding_eq]

end Walk

end ScillaLayout
