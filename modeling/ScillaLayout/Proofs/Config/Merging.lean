import Mathlib.Data.List.Induction
import ScillaLayout.Proofs.Command.Precedence

/-!
# Merging sections into options

A section is merged by setting one field after the other in the options themselves, with a check on the way
(`Section.merge`). Nothing undoes what has been set when the check fails, so that a refused section changes nothing has
to be proved: `Section.merge_eq` says that a merge gives the options of `applyTo`, or a refusal and the options as they
were. After any sections one after the other, a field has the value that the last section which was not refused and
which sets it gives it (`last_section_wins`).
-/

namespace ScillaLayout

/-! ## Setting fields in place -/

/-- Options that are changed in place. What has been set before a failure stays set. -/
abbrev Merge := ExceptT ConfigError (StateM Options)

/-- How a merge into the options `o` ends, and the options then. -/
def Merge.into (m : Merge Unit) (o : Options) : Except ConfigError Unit × Options := StateT.run m.run o

/-- Sets a field if a value is given for it. -/
def setIfGiven {α : Type} (given : Option α) (write : α → Options → Options) : Merge Unit := do
  if let some value := given then modify (write value)

/-- Sets what the section names, field by field. The unit is checked before it is set. -/
def FormatterSection.merge (s : FormatterSection) : Merge Unit := do
  if let some unit := s.indentUnit then
    checkIndentUnit unit
    modify fun o => { o with indentUnit := unit }
  setIfGiven s.indentAlternatives fun value o => { o with indentAlternatives := value }
  setIfGiven s.maxLineLength fun value o => { o with maxLineLength := value }
  setIfGiven s.newline fun value o => { o with newline := value.text }
  setIfGiven s.endWithNewline fun value o => { o with endWithNewline := value }

/-- Sets what the section names, switch by switch. -/
def TraceSection.merge (s : TraceSection) : Merge Unit := do
  setIfGiven s.lexerPositions fun value o => { o with trace.lexerPositions := value }
  setIfGiven s.lexerTokens fun value o => { o with trace.lexerTokens := value }
  setIfGiven s.rules fun value o => { o with trace.rules := value }

namespace Section

/-- Sets what the section names, field by field. -/
def merge : Section → Merge Unit
  | .formatter s => s.merge
  | .trace s => s.merge

/-- Merges sections one after the other, whether they are refused or not. -/
def mergeAll (o : Options) (ss : List Section) : Options := ss.foldl (fun o s => (s.merge.into o).2) o

end Section

variable {o : Options} {s : Section} {e : ConfigError}

/-! ## Sections that are refused -/

namespace Section

/-- The section sets an indentation unit that cannot be used, and `e` says what is wrong with it. -/
def Refused (s : Section) (e : ConfigError) : Prop :=
  ∃ settings unit, s = .formatter settings ∧ settings.indentUnit = some unit ∧ BadUnit unit e

/-- How a merge ends, from what `applyTo` gives: with these options, or with a failure and the options as they were. -/
def ending (o : Options) : Except ConfigError Options → Except ConfigError Unit × Options
  | .ok o' => (.ok (), o')
  | .error e => (.error e, o)

theorem Refused.applyTo (h : s.Refused e) (o : Options) : s.applyTo o = .error e := by
  obtain ⟨settings, unit, rfl, hunit, hbad⟩ := h
  exact FormatterSection.applyTo_bad hunit hbad o

/-- A section that is not refused sets only units that can be used. -/
theorem usable_of_not_refused {settings : FormatterSection} (h : ∀ e, ¬(formatter settings).Refused e) :
    ∀ unit, settings.indentUnit = some unit → UsableUnit unit := by
  intro unit hunit
  rcases usable_or_bad unit with husable | ⟨e, hbad⟩
  · exact husable
  · exact absurd ⟨settings, unit, rfl, hunit, hbad⟩ (h e)

end Section

/-- A unit that is bad stops the merge before anything is set. -/
theorem FormatterSection.merge_bad {s : FormatterSection} {unit : String} (hunit : s.indentUnit = some unit)
    (h : BadUnit unit e) (o : Options) : s.merge.into o = (.error e, o) := by
  unfold merge
  rw [hunit]
  simp only [h.check]
  rfl

/-- The fields behind the unit can be set whatever they are. -/
theorem FormatterSection.merge_usable {s : FormatterSection}
    (h : ∀ unit, s.indentUnit = some unit → UsableUnit unit) (o : Options) :
    s.merge.into o = Section.ending o (s.applyTo o) := by
  rw [applyTo_usable h]
  obtain ⟨unit, alternatives, length, newline, final⟩ := s
  cases unit with
  | none => cases alternatives <;> cases length <;> cases newline <;> cases final <;> rfl
  | some unit =>
    unfold merge
    simp only [(h unit rfl).check]
    cases alternatives <;> cases length <;> cases newline <;> cases final <;> rfl

theorem TraceSection.merge_into (s : TraceSection) (o : Options) :
    s.merge.into o = (.ok (), { o with trace := s.applyTo o.trace }) := by
  obtain ⟨positions, tokens, rules⟩ := s
  cases positions <;> cases tokens <;> cases rules <;> rfl

namespace Section

/-- **A merge in place** gives what `applyTo` gives; if that is a failure, the options are as they were. -/
theorem merge_eq (s : Section) (o : Options) : s.merge.into o = ending o (s.applyTo o) := by
  cases s with
  | trace s => exact s.merge_into o
  | formatter settings =>
    by_cases h : ∃ e, (formatter settings).Refused e
    · obtain ⟨e, href⟩ := h
      have happly := href.applyTo o
      obtain ⟨_, unit, heq, hunit, hbad⟩ := href
      cases heq
      rw [happly]
      exact FormatterSection.merge_bad hunit hbad o
    · exact FormatterSection.merge_usable (usable_of_not_refused (not_exists.1 h)) o

/-- A layout section leaves the tracing switches alone. -/
theorem merge_trace (settings : FormatterSection) (o : Options) : (settings.merge.into o).2.trace = o.trace := by
  have hmerge : settings.merge.into o = ending o (settings.applyTo o) := merge_eq (formatter settings) o
  rw [hmerge]
  by_cases h : ∃ e, (formatter settings).Refused e
  · obtain ⟨e, he⟩ := h
    have hfail : settings.applyTo o = .error e := he.applyTo o
    rw [hfail]
    rfl
  · rw [FormatterSection.applyTo_usable (usable_of_not_refused (not_exists.1 h))]
    rfl

theorem mergeAll_eq (o : Options) (ss : List Section) : mergeAll o ss = applyAll o ss := by
  have hstep : ∀ (o : Options) (s : Section), (s.merge.into o).2 = (s.applyTo o).toOption.getD o := by
    intro o s
    rw [merge_eq]
    cases s.applyTo o <;> rfl
  simp only [mergeAll, applyAll, hstep]

end Section

/-! ## Options field by field -/

namespace Options

/-- The fields of options, tracing switches included. -/
inductive Field where
  | indentUnit | indentAlternatives | maxLineLength | newline | endWithNewline
  | lexerPositions | lexerTokens | rules
  deriving DecidableEq, Repr

/-- What a field holds. -/
abbrev Field.Value : Field → Type
  | .indentUnit | .newline => String
  | .maxLineLength => Nat
  | .indentAlternatives | .endWithNewline | .lexerPositions | .lexerTokens | .rules => Bool

/-- The value of a field. -/
def get (o : Options) : (f : Field) → f.Value
  | .indentUnit => o.indentUnit
  | .indentAlternatives => o.indentAlternatives
  | .maxLineLength => o.maxLineLength
  | .newline => o.newline
  | .endWithNewline => o.endWithNewline
  | .lexerPositions => o.trace.lexerPositions
  | .lexerTokens => o.trace.lexerTokens
  | .rules => o.trace.rules

/-- No field is left out. -/
theorem eq_of_get {o o' : Options} (h : ∀ f, o.get f = o'.get f) : o = o' := by
  obtain ⟨unit, alternatives, length, newline, final, ⟨positions, tokens, rules⟩⟩ := o
  obtain rfl : unit = _ := h .indentUnit
  obtain rfl : alternatives = _ := h .indentAlternatives
  obtain rfl : length = _ := h .maxLineLength
  obtain rfl : newline = _ := h .newline
  obtain rfl : final = _ := h .endWithNewline
  obtain rfl : positions = _ := h .lexerPositions
  obtain rfl : tokens = _ := h .lexerTokens
  obtain rfl : rules = _ := h .rules
  rfl

end Options

open Options (Field)

namespace Section

/-- The value that a section gives a field, if it does. -/
def given? : Section → (f : Field) → Option f.Value
  | .formatter s, .indentUnit => s.indentUnit
  | .formatter s, .indentAlternatives => s.indentAlternatives
  | .formatter s, .maxLineLength => s.maxLineLength
  | .formatter s, .newline => s.newline.map (·.text)
  | .formatter s, .endWithNewline => s.endWithNewline
  | .trace s, .lexerPositions => s.lexerPositions
  | .trace s, .lexerTokens => s.lexerTokens
  | .trace s, .rules => s.rules
  | _, _ => none

/-- A section that is not refused sets the fields that it gives values for, and no others. -/
theorem exists_applyTo (h : ∀ e, ¬s.Refused e) (o : Options) :
    ∃ o', s.applyTo o = .ok o' ∧ ∀ f, o'.get f = (s.given? f).getD (o.get f) := by
  cases s with
  | formatter settings =>
    refine ⟨_, FormatterSection.applyTo_usable (usable_of_not_refused h) o, fun f => ?_⟩
    cases f <;> rfl
  | trace s =>
    refine ⟨_, rfl, fun f => ?_⟩
    cases f <;> rfl

theorem merge_eq_error_iff : (s.merge.into o).1 = .error e ↔ s.Refused e := by
  rw [merge_eq]
  constructor
  · intro hfail
    by_cases h : ∃ e, s.Refused e
    · obtain ⟨e', he'⟩ := h
      rw [he'.applyTo] at hfail
      exact Except.error.inj hfail ▸ he'
    · obtain ⟨o', happly, -⟩ := exists_applyTo (not_exists.1 h) o
      rw [happly] at hfail
      cases hfail
  · intro he
    rw [he.applyTo]
    rfl

theorem merge_get_given {f : Field} {v : f.Value} (h : ∀ e, ¬s.Refused e) (hgiven : s.given? f = some v) :
    (s.merge.into o).2.get f = v := by
  obtain ⟨o', happly, hget⟩ := exists_applyTo h o
  rw [merge_eq, happly]
  exact (hget f).trans (by rw [hgiven, Option.getD_some])

theorem merge_get_pass {f : Field} (h : (∃ e, s.Refused e) ∨ s.given? f = none) :
    (s.merge.into o).2.get f = o.get f := by
  rw [merge_eq]
  by_cases href : ∃ e, s.Refused e
  · obtain ⟨e, he⟩ := href
    rw [he.applyTo]
    rfl
  · obtain ⟨o', happly, hget⟩ := exists_applyTo (not_exists.1 href) o
    rw [happly]
    exact (hget f).trans (by rw [h.resolve_left href, Option.getD_none])

/-! ## Sections one after the other -/

/-- Where a field has got the value `v`: from the last of the sections that gives it one and is not refused. Where there
is none, it still has the value `start`. -/
inductive LastGiven (f : Field) (start : f.Value) (ss : List Section) : f.Value → Prop
  | never (h : ∀ s ∈ ss, (∃ e, s.Refused e) ∨ s.given? f = none) : LastGiven f start ss start
  | last (before after : List Section) {s : Section} {v : f.Value} (hss : ss = before ++ s :: after)
    (husable : ∀ e, ¬s.Refused e) (hgiven : s.given? f = some v)
    (hafter : ∀ s ∈ after, (∃ e, s.Refused e) ∨ s.given? f = none) : LastGiven f start ss v

variable {f : Field} {start v : f.Value} {ss : List Section}

/-- One more section that does not set the field leaves it as it is. -/
theorem LastGiven.pass (h : LastGiven f start ss v) (hs : (∃ e, s.Refused e) ∨ s.given? f = none) :
    LastGiven f start (ss ++ [s]) v := by
  cases h with
  | never h =>
    refine .never fun s' hs' => ?_
    rcases List.mem_append.1 hs' with hmem | hmem
    · exact h s' hmem
    · rwa [List.mem_singleton.1 hmem]
  | last before after hss husable hgiven hafter =>
    refine .last before (after ++ [s]) (by simp [hss]) husable hgiven fun s' hs' => ?_
    rcases List.mem_append.1 hs' with hmem | hmem
    · exact hafter s' hmem
    · rwa [List.mem_singleton.1 hmem]

/-- **One more section.** -/
theorem LastGiven.concat (h : LastGiven f start ss (o.get f)) (s : Section) :
    LastGiven f start (ss ++ [s]) ((s.merge.into o).2.get f) := by
  by_cases hpass : (∃ e, s.Refused e) ∨ s.given? f = none
  · rw [merge_get_pass hpass]
    exact h.pass hpass
  · obtain ⟨husable, hgiven⟩ := not_or.1 hpass
    obtain ⟨v, hv⟩ := Option.ne_none_iff_exists'.1 hgiven
    rw [merge_get_given (not_exists.1 husable) hv]
    exact .last ss [] rfl (not_exists.1 husable) hv (by simp)

theorem lastGiven_mergeAll (o : Options) (ss : List Section) (f : Field) :
    LastGiven f (o.get f) ss ((mergeAll o ss).get f) := by
  induction ss using List.reverseRecOn with
  | nil => exact .never (by simp)
  | append_singleton ss s ih =>
    rw [mergeAll, List.foldl_append]
    exact ih.concat s

/-- Sections that do not set a field leave it as it is. -/
theorem mergeAll_get_pass (h : ∀ s ∈ ss, (∃ e, s.Refused e) ∨ s.given? f = none) (o : Options) :
    (mergeAll o ss).get f = o.get f := by
  induction ss generalizing o with
  | nil => rfl
  | cons s ss ih =>
    obtain ⟨hs, hss⟩ := List.forall_mem_cons.1 h
    exact (ih hss _).trans (merge_get_pass hs)

theorem LastGiven.get_mergeAll (h : LastGiven f (o.get f) ss v) : (mergeAll o ss).get f = v := by
  cases h with
  | never h => exact mergeAll_get_pass h o
  | last before after hss husable hgiven hafter =>
    rw [hss, mergeAll, List.foldl_append, List.foldl_cons]
    exact (mergeAll_get_pass hafter _).trans (merge_get_given husable hgiven)

end Section

/-- **The last section wins, and a refused one does nothing.** Sections are merged into options in place, field by
field. A merge fails for a bad indentation unit and for nothing else, and then no field has changed. After sections one
after the other every field has the value that the last section which gives it one and is not refused gives it, or the
one from the start, and only these options are so. Layout sections leave the tracing switches alone, tracing sections
all the rest. This is also what applying the sections does. -/
theorem last_section_wins (o : Options) (ss : List Section) :
    (∀ (p : Options) (s : Section) (e : ConfigError), (s.merge.into p).1 = .error e ↔ s.Refused e) ∧
    (∀ (p : Options) (s : Section) (e : ConfigError), (s.merge.into p).1 = .error e → (s.merge.into p).2 = p) ∧
    (∀ f, Section.LastGiven f (o.get f) ss ((Section.mergeAll o ss).get f)) ∧
    (∀ p : Options, (∀ f, Section.LastGiven f (o.get f) ss (p.get f)) → p = Section.mergeAll o ss) ∧
    (∀ (p : Options) (settings : FormatterSection), (settings.merge.into p).2.trace = p.trace) ∧
    (∀ (p : Options) (switches : TraceSection),
      (switches.merge.into p).2 = { p with trace := (switches.merge.into p).2.trace }) ∧
    Section.mergeAll o ss = Section.applyAll o ss := by
  refine ⟨fun _ _ _ => Section.merge_eq_error_iff, fun p s e h => ?_, Section.lastGiven_mergeAll o ss, fun p h => ?_,
    fun p settings => ?_, fun p switches => ?_, Section.mergeAll_eq o ss⟩
  · rw [Section.merge_eq, (Section.merge_eq_error_iff.1 h).applyTo]
    rfl
  · exact Options.eq_of_get fun f => ((h f).get_mergeAll).symm
  · exact Section.merge_trace settings p
  · rw [switches.merge_into]

/-- A section with a bad unit gives the line break another value too. It comes to nothing, and the line break stays what
the section before it has set. -/
theorem last_section_wins_refused :
    ((Section.formatter { indentUnit := some "-", newline := some .lf }).merge.into { newline := "\r\n" }).1 =
      .error (.indentUnitNotBlank "-") ∧
    ((Section.formatter { indentUnit := some "-", newline := some .lf }).merge.into { newline := "\r\n" }).2 =
      { newline := "\r\n" } ∧
    Section.LastGiven .newline "\n" [.formatter { newline := some .crlf },
      .formatter { indentUnit := some "-", newline := some .lf }, .trace { rules := some true }] "\r\n" := by
  obtain ⟨-, hsame, hlast, -⟩ := last_section_wins {} [.formatter { newline := some .crlf },
    .formatter { indentUnit := some "-", newline := some .lf }, .trace { rules := some true }]
  have hfail : ((Section.formatter { indentUnit := some "-", newline := some .lf }).merge.into
      { newline := "\r\n" }).1 = .error (.indentUnitNotBlank "-") := by rfl
  exact ⟨hfail, hsame _ _ _ hfail, hlast .newline⟩

end ScillaLayout
