import ScillaLayout.Layout.Rule
import ScillaLayout.Proofs.Editing.Lines
import ScillaLayout.Proofs.Editing.Spacing
import ScillaLayout.Proofs.Editing.Walker

/-!
# The rules never fail

Every rule can be carried out by index, on any list of tokens and under any options (`rules_never_fail`). The loops come
to an end; no token is read, put in or taken out where there is none, no index falls below zero and no block is closed
where none is open. What they leave is what the rules say.
-/

namespace ScillaLayout

namespace Rule

/-- Carries out a rule by index. -/
def edit (o : Options) : Rule → Sequence → Checked Sequence
  | .removeLeadingBlankLines, ts => Editing.removeLeading ts
  | .collapseBlankLines, ts => Editing.collapseBlank ts
  | .clearBlankLines, ts => Editing.clearBlank ts
  | .collapseBlanks, ts => Editing.collapse ts
  | .indentation, ts => Editing.Cursor.run o { tokens := ts }
  | .spaceAroundOperators, ts => Editing.spaceOperators ts
  | .tightenPunctuation, ts => Editing.tighten ts
  | .stripTrailingBlanks, ts => Editing.stripTrailing ts
  | .trimDocumentEnd, ts => Editing.trimEnd o ts
  | .normalizeNewlines, ts => Editing.normalize o ts

/-- Carries out rules one after the other. -/
def editAll (o : Options) (rules : List Rule) (ts : Sequence) : Checked Sequence :=
  rules.foldlM (fun ts r => r.edit o ts) ts

theorem edit_eq (o : Options) (r : Rule) (ts : Sequence) : r.edit o ts = pure (r.apply o ts) := by
  cases r with
  | removeLeadingBlankLines => exact Editing.removeLeading_eq ts
  | collapseBlankLines => exact Editing.collapseBlank_eq ts
  | clearBlankLines => exact Editing.clearBlank_eq ts
  | collapseBlanks => exact Editing.collapse_eq ts
  | indentation => exact Editing.indentLines_eq o ts
  | spaceAroundOperators => exact Editing.spaceOperators_eq ts
  | tightenPunctuation => exact Editing.tighten_eq ts
  | stripTrailingBlanks => exact Editing.stripTrailing_eq ts
  | trimDocumentEnd => exact Editing.trimEnd_eq o ts
  | normalizeNewlines => exact Editing.normalize_eq o ts

theorem editAll_eq (o : Options) (rules : List Rule) (ts : Sequence) :
    editAll o rules ts = pure (applyAll o rules ts) := by
  induction rules generalizing ts with
  | nil => rfl
  | cons r rules ih =>
    rw [editAll, List.foldlM_cons, edit_eq, pure_bind]
    exact ih (r.apply o ts)

end Rule

/-- **No rule can fail.** Carried out by index, each rule ends without a fault on every list of tokens and leaves what
the rule says. So do rules one after the other, whichever they are, and with them the layout of a document. -/
theorem rules_never_fail (o : Options) (ts : Sequence) :
    (∀ r : Rule, (r.edit o ts).run = Part.some (.ok (r.apply o ts))) ∧
    (∀ rules : List Rule, (Rule.editAll o rules ts).run = Part.some (.ok (Rule.applyAll o rules ts))) ∧
    (Rule.editAll o Rule.standard ts).run = Part.some (.ok (layout o ts)) := by
  refine ⟨fun r => ?_, fun rules => ?_, ?_⟩
  · rw [Rule.edit_eq]
    rfl
  · rw [Rule.editAll_eq]
    rfl
  · rw [Rule.editAll_eq, layout]
    rfl

end ScillaLayout
