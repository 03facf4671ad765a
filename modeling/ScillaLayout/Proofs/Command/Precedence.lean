import ScillaLayout.Proofs.Command.InPlace
import ScillaLayout.Proofs.Command.Paths

/-!
# Options in effect

Which configuration counts, and which of the values that are given for an option. The configuration is the file that is
asked for, or else the one in the nearest directory that has one (`Arguments.Chosen`). Its values come over the standard
ones, and those of the command line over these (`Arguments.inEffect`). The options are refused for the reasons that
`Arguments.Refused` lists, and for no other; options that are not refused can be used (`options_in_effect`).
-/

namespace ScillaLayout

namespace Tree

variable {t : Tree} {p q : Place} {path : String}

/-! ## The configuration file -/

/-- The configuration file for a directory `p` stands under `name` in `dir`: this is the nearest directory, going up
from `p`, in which there is a file under one of the names, and the first name there with a file under it. -/
structure Nearest (t : Tree) (p : Place) (name : String) (dir : Place) : Prop where
  above : dir <:+ p
  file : t.isFile (name :: dir) = true
  first : ∃ earlier later, Config.fileNames = earlier ++ name :: later ∧ ∀ n ∈ earlier, t.isFile (n :: dir) = false
  nearer : ∀ d, d <:+ p → dir <:+ d → d ≠ dir → ∀ n ∈ Config.fileNames, t.isFile (n :: d) = false

theorem configIn?_eq_none : t.configIn? p = none ↔ ∀ n ∈ Config.fileNames, t.isFile (n :: p) = false := by
  simp [configIn?]

theorem configIn?_eq_some : t.configIn? p = some q ↔ ∃ name, q = name :: p ∧ t.Nearest p name p := by
  have hself : ∀ d, d <:+ p → p <:+ d → d = p := fun d hd hp =>
    hd.eq_of_length (Nat.le_antisymm hd.length_le hp.length_le)
  rw [configIn?, List.find?_map, Option.map_eq_some_iff]
  constructor
  · rintro ⟨name, hfind, rfl⟩
    obtain ⟨hfile, earlier, later, hnames, hnot⟩ := List.find?_eq_some_iff_append.1 hfind
    exact ⟨name, rfl, List.suffix_rfl, hfile, ⟨earlier, later, hnames, by simpa using hnot⟩,
      fun d hd hp hne => absurd (hself d hd hp) hne⟩
  · rintro ⟨name, rfl, hnear⟩
    obtain ⟨earlier, later, hnames, hnot⟩ := hnear.first
    exact ⟨name, List.find?_eq_some_iff_append.2 ⟨hnear.file, earlier, later, hnames, by simpa using hnot⟩, rfl⟩

/-- A directory above counts where there is no configuration file in the nearer one. -/
theorem nearest_cons {d name : String} {dir : Place} (h : dir <:+ p) :
    t.Nearest (d :: p) name dir ↔ t.configIn? (d :: p) = none ∧ t.Nearest p name dir := by
  rw [configIn?_eq_none]
  constructor
  · intro hnear
    have hne : d :: p ≠ dir := by
      rintro rfl
      exact absurd h.length_le (by simp)
    exact ⟨hnear.nearer _ List.suffix_rfl (h.trans (List.suffix_cons ..)) hne, h, hnear.file, hnear.first,
      fun e he => hnear.nearer e (he.trans (List.suffix_cons ..))⟩
  · rintro ⟨hnone, hnear⟩
    refine ⟨h.trans (List.suffix_cons ..), hnear.file, hnear.first, fun e he => ?_⟩
    rcases List.suffix_cons_iff.1 he with rfl | he
    · exact fun _ _ => hnone
    · exact hnear.nearer e he

/-- **The search finds the nearest file**, the first in its directory. -/
theorem nearestConfig?_eq_some : t.nearestConfig? p = some q ↔ ∃ name dir, q = name :: dir ∧ t.Nearest p name dir := by
  induction p with
  | nil =>
    rw [nearestConfig?, configIn?_eq_some]
    constructor
    · rintro ⟨name, rfl, hnear⟩
      exact ⟨name, [], rfl, hnear⟩
    · rintro ⟨name, dir, rfl, hnear⟩
      obtain rfl := List.suffix_nil.1 hnear.above
      exact ⟨name, rfl, hnear⟩
  | cons d p ih =>
    rw [nearestConfig?]
    constructor
    · intro h
      cases hin : t.configIn? (d :: p) with
      | some c =>
        rw [hin] at h
        obtain rfl : c = q := Option.some.inj h
        obtain ⟨name, rfl, hnear⟩ := configIn?_eq_some.1 hin
        exact ⟨name, _, rfl, hnear⟩
      | none =>
        rw [hin] at h
        obtain ⟨name, dir, rfl, hnear⟩ := ih.1 h
        exact ⟨name, dir, rfl, (nearest_cons hnear.above).2 ⟨hin, hnear⟩⟩
    · rintro ⟨name, dir, rfl, hnear⟩
      rcases List.suffix_cons_iff.1 hnear.above with rfl | habove
      · rw [configIn?_eq_some.2 ⟨name, rfl, hnear⟩]
        rfl
      · obtain ⟨hin, hnear⟩ := (nearest_cons habove).1 hnear
        rw [hin, ih.2 ⟨name, dir, rfl, hnear⟩]
        rfl

/-- The search finds nothing where no directory has a file under one of the names. -/
theorem nearestConfig?_eq_none : t.nearestConfig? p = none ↔
    ∀ dir, dir <:+ p → ∀ n ∈ Config.fileNames, t.isFile (n :: dir) = false := by
  induction p with
  | nil => simp [nearestConfig?, configIn?_eq_none]
  | cons d p ih =>
    rw [nearestConfig?]
    simp only [List.suffix_cons_iff, forall_eq_or_imp, ← configIn?_eq_none] at ih ⊢
    rw [← ih]
    cases t.configIn? (d :: p) <;> simp

/-! ## Loading it -/

variable [Config.Reader]

/-- The file at a place holds a configuration. -/
def Holds (t : Tree) (p : Place) (c : Config) : Prop :=
  ∃ bytes text format, t.read p = .ok bytes ∧ String.fromUTF8? bytes = some text ∧
    (p.head?.bind nameExtension?).bind ConfigFormat.ofExtension? = some format ∧
    Config.Reader.read? format text = some c

/-- Why a file, called by a path in messages, gives no configuration. -/
inductive Unusable (t : Tree) (path : String) (p : Place) : Failure → Prop
  | unreadable {e : SystemError} (hread : t.read p = .error e) : Unusable t path p (.io path e)
  | notText {bytes : ByteArray} (hread : t.read p = .ok bytes) (htext : String.fromUTF8? bytes = none) :
    Unusable t path p (.io path .notText)
  | unsupported {bytes : ByteArray} {text : String} (hread : t.read p = .ok bytes)
    (htext : String.fromUTF8? bytes = some text)
    (hformat : (p.head?.bind nameExtension?).bind ConfigFormat.ofExtension? = none) :
    Unusable t path p (.config (.formatUnknown path))
  | unparsable {bytes : ByteArray} {text : String} {format : ConfigFormat} (hread : t.read p = .ok bytes)
    (htext : String.fromUTF8? bytes = some text)
    (hformat : (p.head?.bind nameExtension?).bind ConfigFormat.ofExtension? = some format)
    (hparse : Config.Reader.read? format text = none) : Unusable t path p (.config (.malformed path))

theorem loadFile_eq_ok {c : Config} : t.loadFile path p = .ok c ↔ t.Holds p c := by
  unfold loadFile Holds
  cases hread : t.read p with
  | error e => simp
  | ok bytes =>
    cases htext : String.fromUTF8? bytes with
    | none => simp [htext]
    | some text =>
      cases hformat : (p.head?.bind nameExtension?).bind ConfigFormat.ofExtension? with
      | none => simp [htext]
      | some format => cases hparse : Config.Reader.read? format text <;> simp [htext, hparse]

theorem loadFile_eq_error {f : Failure} : t.loadFile path p = .error f ↔ t.Unusable path p f := by
  constructor
  · intro h
    unfold loadFile at h
    split at h
    · next hread => exact Except.error.inj h ▸ .unreadable hread
    · next hread =>
      split at h
      · next htext => exact Except.error.inj h ▸ .notText hread htext
      · next htext =>
        split at h
        · next hformat => exact Except.error.inj h ▸ .unsupported hread htext hformat
        · next hformat =>
          split at h
          · next hparse => exact Except.error.inj h ▸ .unparsable hread htext hformat hparse
          · cases h
  · intro h
    cases h with
    | unreadable hread => simp [loadFile, hread]
    | notText hread htext => simp [loadFile, hread, htext]
    | unsupported hread htext hformat => simp [loadFile, hread, htext, hformat]
    | unparsable hread htext hformat hparse => simp [loadFile, hread, htext, hformat, hparse]

end Tree

/-! ## Settings -/

/-- An indentation unit of blanks. -/
def UsableUnit (unit : String) : Prop := unit ≠ "" ∧ ∀ c ∈ unit.toList, c = ' ' ∨ c = '\t'

/-- What is wrong with an indentation unit. -/
inductive BadUnit (unit : String) : ConfigError → Prop
  | empty (h : unit = "") : BadUnit unit .indentUnitEmpty
  | notBlank (hne : unit ≠ "") {c : Char} (hc : c ∈ unit.toList) (hblank : c ≠ ' ' ∧ c ≠ '\t') :
    BadUnit unit (.indentUnitNotBlank unit)

/-- The default unit can be used. -/
theorem usableUnit_default : UsableUnit "  " := by
  refine ⟨by simp, fun c hc => .inl ?_⟩
  simpa using hc

theorem usable_or_bad (unit : String) : UsableUnit unit ∨ ∃ e, BadUnit unit e := by
  by_cases hempty : unit = ""
  · exact .inr ⟨_, .empty hempty⟩
  · cases hblank : unit.toList.all fun c => c = ' ' || c = '\t' with
    | true => exact .inl ⟨hempty, by simpa using hblank⟩
    | false =>
      obtain ⟨c, hc, hne⟩ := List.all_eq_false.1 hblank
      exact .inr ⟨_, .notBlank hempty hc (by simpa using hne)⟩

theorem UsableUnit.check {unit : String} (h : UsableUnit unit) : checkIndentUnit unit = .ok () := by
  have hall : (unit.toList.all fun c => c = ' ' || c = '\t') = true := by simpa using h.2
  rw [checkIndentUnit, if_neg (by simpa using h.1), if_pos hall]

theorem BadUnit.check {unit : String} {e : ConfigError} (h : BadUnit unit e) : checkIndentUnit unit = .error e := by
  cases h with
  | empty h =>
    subst h
    rfl
  | notBlank hne hc hblank =>
    have hall : (unit.toList.all fun c => c = ' ' || c = '\t') = false :=
      List.all_eq_false.2 ⟨_, hc, by simpa using hblank⟩
    rw [checkIndentUnit, if_neg (by simpa using hne), if_neg (by simp [hall])]

theorem FormatterSection.applyTo_usable {s : FormatterSection} (h : ∀ unit, s.indentUnit = some unit → UsableUnit unit)
    (o : Options) : s.applyTo o = .ok { o with
      indentUnit := s.indentUnit.getD o.indentUnit
      indentAlternatives := s.indentAlternatives.getD o.indentAlternatives
      maxLineLength := s.maxLineLength.getD o.maxLineLength
      newline := (s.newline.map (·.text)).getD o.newline
      endWithNewline := s.endWithNewline.getD o.endWithNewline } := by
  unfold applyTo
  cases hunit : s.indentUnit with
  | none => rfl
  | some unit =>
    simp only [(h unit hunit).check]
    rfl

theorem FormatterSection.applyTo_bad {s : FormatterSection} {unit : String} {e : ConfigError}
    (hunit : s.indentUnit = some unit) (h : BadUnit unit e) (o : Options) : s.applyTo o = .error e := by
  unfold applyTo
  simp only [hunit, h.check]
  rfl

namespace Arguments

variable {a : Arguments} {t : Tree} {i : Input} {c : Option Config} {f : Failure} {e : OptionsError} {o : Options}

/-! ## The configuration that counts -/

/-- The configuration file that counts, with what messages call it, if there is one: the file that is asked for, or else
the nearest one from the directory of the input. -/
inductive Chosen (a : Arguments) (t : Tree) (i : Input) : Option (String × Place) → Prop
  | asked {path : String} {p : Place} (hask : a.config = some path) (hpath : t.resolve path = .ok p) :
    Chosen a t i (some (path, p))
  | found {p dir : Place} {name : String} (hask : a.config = none)
    (hstart : t.resolve (i.directory?.getD ".") = .ok p) (hnear : t.Nearest p name dir) :
    Chosen a t i (some (t.display (name :: dir), name :: dir))
  | nothing {p : Place} (hask : a.config = none) (hstart : t.resolve (i.directory?.getD ".") = .ok p)
    (hnone : ∀ dir, dir <:+ p → ∀ n ∈ Config.fileNames, t.isFile (n :: dir) = false) : Chosen a t i none

/-- The configuration that counts, if there is one. -/
inductive Configured [Config.Reader] (a : Arguments) (t : Tree) (i : Input) : Option Config → Prop
  | file {path : String} {p : Place} {c : Config} (hfile : a.Chosen t i (some (path, p))) (hc : t.Holds p c) :
    Configured a t i (some c)
  | nothing (hnone : a.Chosen t i none) : Configured a t i none

/-- Why it is not known which configuration counts. -/
inductive Unconfigured [Config.Reader] (a : Arguments) (t : Tree) (i : Input) : Failure → Prop
  | startMissing {e : SystemError} (hask : a.config = none) (hstart : t.resolve (i.directory?.getD ".") = .error e) :
    Unconfigured a t i (.config (.startMissing e))
  | fileMissing {path : String} {e : SystemError} (hask : a.config = some path) (hpath : t.resolve path = .error e) :
    Unconfigured a t i (.config (.fileMissing path))
  | unusable {path : String} {p : Place} {f : Failure} (hfile : a.Chosen t i (some (path, p)))
    (hbad : t.Unusable path p f) : Unconfigured a t i f

theorem Chosen.loadConfig [Config.Reader] {path : String} {p : Place} (h : a.Chosen t i (some (path, p))) :
    t.loadConfig a.config i.directory? = t.loadFile path p := by
  cases h with
  | asked hask hpath => simp [Tree.loadConfig, hask, hpath]
  | found hask hstart hnear =>
    have hfound := Tree.nearestConfig?_eq_some.2 ⟨_, _, rfl, hnear⟩
    simp only [Tree.loadConfig, Tree.discover, hask, hstart, hfound]
    rfl

theorem Configured.loadConfig [Config.Reader] (h : a.Configured t i c) :
    t.loadConfig a.config i.directory? = .ok (c.getD .standard) := by
  cases h with
  | file hfile hc => rw [hfile.loadConfig, Tree.loadFile_eq_ok.2 hc, Option.getD_some]
  | nothing hnone =>
    cases hnone with
    | nothing hask hstart hnone =>
      simp only [Tree.loadConfig, Tree.discover, hask, hstart, Tree.nearestConfig?_eq_none.2 hnone]
      rfl

theorem Unconfigured.loadConfig [Config.Reader] (h : a.Unconfigured t i f) :
    t.loadConfig a.config i.directory? = .error f := by
  cases h with
  | startMissing hask hstart =>
    simp only [Tree.loadConfig, Tree.discover, hask, hstart]
    rfl
  | fileMissing hask hpath => simp [Tree.loadConfig, hask, hpath]
  | unusable hfile hbad => rw [hfile.loadConfig, Tree.loadFile_eq_error.2 hbad]

theorem Chosen.configured_or_unconfigured [Config.Reader] {path : String} {p : Place}
    (h : a.Chosen t i (some (path, p))) :
    (∃ c, a.Configured t i c) ∨ ∃ f, a.Unconfigured t i f := by
  cases hload : t.loadFile path p with
  | ok c => exact .inl ⟨some c, .file h (Tree.loadFile_eq_ok.1 hload)⟩
  | error f => exact .inr ⟨f, .unusable h (Tree.loadFile_eq_error.1 hload)⟩

theorem configured_or_unconfigured [Config.Reader] (a : Arguments) (t : Tree) (i : Input) :
    (∃ c, a.Configured t i c) ∨ ∃ f, a.Unconfigured t i f := by
  cases hask : a.config with
  | some path =>
    cases hpath : t.resolve path with
    | error e => exact .inr ⟨_, .fileMissing hask hpath⟩
    | ok p => exact (Chosen.asked hask hpath).configured_or_unconfigured
  | none =>
    cases hstart : t.resolve (i.directory?.getD ".") with
    | error e => exact .inr ⟨_, .startMissing hask hstart⟩
    | ok p =>
      cases hfound : t.nearestConfig? p with
      | none => exact .inl ⟨none, .nothing (.nothing hask hstart (Tree.nearestConfig?_eq_none.1 hfound))⟩
      | some q =>
        obtain ⟨name, dir, rfl, hnear⟩ := Tree.nearestConfig?_eq_some.1 hfound
        exact (Chosen.found hask hstart hnear).configured_or_unconfigured

/-! ## The values that count -/

/-- What a configuration sets a layout setting to, if it does. -/
def configured? {α : Type} (c : Option Config) (setting : FormatterSection → Option α) : Option α :=
  (c.bind (·.formatter)).bind setting

/-- What a configuration sets a tracing switch to, if it does. -/
def configuredTrace? (c : Option Config) (switch : TraceSection → Option Bool) : Option Bool :=
  (c.bind (·.trace)).bind switch

/-- The options in effect: what the command line says, or else what the configuration says, or else the standard. -/
def inEffect (a : Arguments) (c : Option Config) : Options where
  indentUnit := (a.indentUnit.or (configured? c (·.indentUnit))).getD "  "
  indentAlternatives := if a.indentAlternatives then true else (configured? c (·.indentAlternatives)).getD false
  maxLineLength := (configured? c (·.maxLineLength)).getD 120
  newline := ((configured? c (·.newline)).map (·.text)).getD "\n"
  endWithNewline := if a.noFinalNewline then false else (configured? c (·.endWithNewline)).getD true
  trace := {
    lexerPositions := if a.trace.lexerPositions then true else (configuredTrace? c (·.lexerPositions)).getD false
    lexerTokens := if a.trace.lexerTokens then true else (configuredTrace? c (·.lexerTokens)).getD false
    rules := if a.trace.rules then true else (configuredTrace? c (·.rules)).getD false }

/-- Why the options are refused. -/
inductive Refused [Config.Reader] (a : Arguments) (t : Tree) (i : Input) : OptionsError → Prop
  | unconfigured {f : Failure} (h : a.Unconfigured t i f) : Refused a t i (.configuration f)
  | configuredUnit {c : Option Config} {unit : String} {e : ConfigError} (hc : a.Configured t i c)
    (hunit : configured? c (·.indentUnit) = some unit) (hbad : BadUnit unit e) :
    Refused a t i (.configuration (.config e))
  | givenUnit {c : Option Config} {unit : String} {e : ConfigError} (hc : a.Configured t i c)
    (husable : ∀ u, configured? c (·.indentUnit) = some u → UsableUnit u) (hunit : a.indentUnit = some unit)
    (hbad : BadUnit unit e) : Refused a t i (.commandLine e)

/-- What a configuration makes of the standard options. -/
theorem options_usable {c : Config} (husable : ∀ u, configured? (some c) (·.indentUnit) = some u → UsableUnit u) :
    c.options = .ok (inEffect {} (some c)) := by
  obtain ⟨note, formatter, trace⟩ := c
  cases formatter with
  | none => cases trace <;> rfl
  | some s =>
    have happly := FormatterSection.applyTo_usable (s := s) (fun u hu => husable u hu) {}
    cases trace with
    | none =>
      show (s.applyTo {} >>= fun o => pure o) = _
      rw [happly]
      obtain ⟨unit, alternatives, length, newline, final⟩ := s
      rfl
    | some tr =>
      show (s.applyTo {} >>= fun o => pure { o with trace := tr.applyTo o.trace }) = _
      rw [happly]
      rfl

theorem options_standard : Config.standard.options = .ok (inEffect {} none) :=
  options_usable (c := .standard) fun u hu => by
    obtain rfl : "  " = u := Option.some.inj hu
    exact usableUnit_default

theorem options_configured (husable : ∀ u, configured? c (·.indentUnit) = some u → UsableUnit u) :
    (c.getD .standard).options = .ok (inEffect {} c) := by
  cases c with
  | none => exact options_standard
  | some c => exact options_usable husable

theorem options_bad {unit : String} {e : ConfigError} (hunit : configured? c (·.indentUnit) = some unit)
    (hbad : BadUnit unit e) : (c.getD .standard).options = .error e := by
  obtain ⟨c, rfl⟩ : ∃ d, c = some d := by
    cases c with
    | none => cases hunit
    | some d => exact ⟨d, rfl⟩
  obtain ⟨note, formatter, trace⟩ := c
  cases formatter with
  | none => cases hunit
  | some s =>
    have hs := FormatterSection.applyTo_bad (s := s) hunit hbad {}
    show (s.applyTo {} >>= _) = _
    rw [hs]
    rfl

/-- Once the configuration is known, its values and those of the command line are taken over. -/
theorem Configured.options_eq [Config.Reader] (h : a.Configured t i c) : a.options t i = (do
    let o ← (c.getD .standard).options.mapError (.configuration <| .config ·)
    let o ← (a.formatterSection.applyTo o).mapError .commandLine
    return { o with trace := a.traceSection.applyTo o.trace }) := by
  rw [Arguments.options, h.loadConfig]
  rfl

theorem Refused.options [Config.Reader] (h : a.Refused t i e) : a.options t i = .error e := by
  cases h with
  | unconfigured h =>
    rw [Arguments.options, h.loadConfig]
    rfl
  | configuredUnit hc hunit hbad =>
    rw [hc.options_eq, options_bad hunit hbad]
    rfl
  | givenUnit hc husable hunit hbad =>
    rw [hc.options_eq, options_configured husable]
    show ((a.formatterSection.applyTo _).mapError OptionsError.commandLine >>= _) = _
    rw [FormatterSection.applyTo_bad hunit hbad]
    rfl

/-- A flag that is given counts. -/
theorem getD_flag {α : Type} (given : Bool) (x y : α) :
    (if given then some x else none).getD y = if given then x else y := by
  cases given <;> rfl

theorem Configured.options [Config.Reader] (h : a.Configured t i c)
    (husable : ∀ u, configured? c (·.indentUnit) = some u → UsableUnit u)
    (hgiven : ∀ u, a.indentUnit = some u → UsableUnit u) : a.options t i = .ok (a.inEffect c) := by
  have hunit : a.indentUnit.getD ((configured? c (·.indentUnit)).getD "  ") =
      (a.indentUnit.or (configured? c (·.indentUnit))).getD "  " := by
    cases a.indentUnit <;> rfl
  rw [h.options_eq, options_configured husable]
  show ((a.formatterSection.applyTo _).mapError OptionsError.commandLine >>= _) = _
  rw [FormatterSection.applyTo_usable hgiven]
  refine congrArg Except.ok ?_
  simp only [inEffect, formatterSection, traceSection, TraceSection.applyTo, getD_flag, Option.none_or, hunit,
    Option.getD_none, Option.map_none, Bool.false_eq_true, if_false]

theorem refused_or_options [Config.Reader] (a : Arguments) (t : Tree) (i : Input) : (∃ e, a.Refused t i e) ∨
    ∃ c, a.Configured t i c ∧ (∀ u, configured? c (·.indentUnit) = some u → UsableUnit u) ∧
      ∀ u, a.indentUnit = some u → UsableUnit u := by
  -- a unit that is not given is usable
  have hunit : ∀ given : Option String, (∀ u, given = some u → UsableUnit u) ∨ ∃ u e, given = some u ∧ BadUnit u e := by
    intro given
    cases given with
    | none => exact .inl fun u hu => by cases hu
    | some u =>
      rcases usable_or_bad u with husable | ⟨e, hbad⟩
      · exact .inl fun u' hu' => Option.some.inj hu' ▸ husable
      · exact .inr ⟨u, e, rfl, hbad⟩
  rcases configured_or_unconfigured a t i with ⟨c, hc⟩ | ⟨f, hf⟩
  · rcases hunit (configured? c (·.indentUnit)) with husable | ⟨u, e, hu, hbad⟩
    · rcases hunit a.indentUnit with hgiven | ⟨u, e, hu, hbad⟩
      · exact .inr ⟨c, hc, husable, hgiven⟩
      · exact .inl ⟨_, .givenUnit hc husable hu hbad⟩
    · exact .inl ⟨_, .configuredUnit hc hu hbad⟩
  · exact .inl ⟨_, .unconfigured hf⟩

theorem usable_inEffect (husable : ∀ u, configured? c (·.indentUnit) = some u → UsableUnit u)
    (hgiven : ∀ u, a.indentUnit = some u → UsableUnit u) : UsableUnit (a.inEffect c).indentUnit := by
  cases hunit : a.indentUnit with
  | some u => simpa [inEffect, hunit] using hgiven u hunit
  | none =>
    cases hconfigured : configured? c (·.indentUnit) with
    | some u => simpa [inEffect, hunit, hconfigured] using husable u hconfigured
    | none =>
      have hstandard : (a.inEffect c).indentUnit = "  " := by simp [inEffect, hunit, hconfigured]
      rw [hstandard]
      exact usableUnit_default

theorem newline_inEffect (a : Arguments) (c : Option Config) : (a.inEffect c).newline ∈ ["\n", "\r\n", "\r"] := by
  unfold inEffect
  cases configured? c (·.newline) with
  | none => exact List.mem_cons_self
  | some style => exact style.text_mem

end Arguments

theorem ok_of_toOption {ε α : Type} {x : Except ε α} {y : α} (h : x.toOption = some y) : x = .ok y := by
  cases x with
  | error e => cases h
  | ok z => rw [Option.some.inj h]

/-- **The options in effect.** They are refused for the reasons listed, and for no other. Else each of them is what the
command line says, or what the configuration says, or the standard, and the unit and the line break can be written. The
search for a configuration starts in the directory that the input is in, and at home for what comes from no file or from
a file that is only named. All this holds however configurations are read. -/
theorem options_in_effect [Config.Reader] (a : Arguments) (t : Tree) (i : Input) :
    (∀ e, a.options t i = .error e ↔ a.Refused t i e) ∧
    (∀ o, a.options t i = .ok o → ∃ c, a.Configured t i c ∧ o = a.inEffect c ∧ o.indentUnit ≠ "" ∧
      (∀ ch ∈ o.indentUnit.toList, ch = ' ' ∨ ch = '\t') ∧ o.newline ∈ ["\n", "\r\n", "\r"]) ∧
    (∀ path p, i = .file path → t.resolve path = .ok p →
      (∀ name ∈ (pathNames path).getLast?, name ∉ ["", ".", ".."]) →
      t.resolve (i.directory?.getD ".") = .ok p.tail) ∧
    ((i = .stdin ∨ ∃ name, i = .file name ∧ '/' ∉ name.toList) → t.get? t.home = some .directory →
      t.resolve (i.directory?.getD ".") = .ok t.home) := by
  refine ⟨fun e => ⟨fun h => ?_, Arguments.Refused.options⟩, fun o h => ?_, ?_, ?_⟩
  · rcases a.refused_or_options t i with ⟨e', he'⟩ | ⟨c, hc, husable, hgiven⟩
    · rw [he'.options] at h
      exact Except.error.inj h ▸ he'
    · rw [hc.options husable hgiven] at h
      cases h
  · rcases a.refused_or_options t i with ⟨e', he'⟩ | ⟨c, hc, husable, hgiven⟩
    · rw [he'.options] at h
      cases h
    · rw [hc.options husable hgiven] at h
      obtain rfl := Except.ok.inj h
      obtain ⟨hne, hblank⟩ := Arguments.usable_inEffect (a := a) husable hgiven
      exact ⟨c, hc, rfl, hne, hblank, a.newline_inEffect c⟩
  · rintro path p rfl hp hlast
    exact Tree.resolve_pathDirectory hp hlast
  · rintro (rfl | ⟨name, rfl, hname⟩) hhome
    · exact Tree.resolve_home hhome
    · rw [Input.directory?, pathDirectory?_eq_none hname]
      exact Tree.resolve_home hhome

/-- A file in a directory, and a configuration above the directory. In the directory itself another directory has the
name of a configuration. -/
def belowConfig : Tree where
  entries := [(["a.scilla", "src"], .file .empty), ([".scillafmt.toml", "src"], .directory),
    ([".scillafmt.toml"], .file "[formatter]\nindentUnit = \"\t\"\nnewline = \"crlf\"\n".toUTF8)]

/-- The line break of the configuration counts. Its indentation unit does not, since the command line gives another
one. -/
theorem options_in_effect_above :
    Arguments.options { indentUnit := some "    " } belowConfig (.file "src/a.scilla") =
      .ok { indentUnit := "    ", newline := "\r\n" } ∧
    ∃ c, Arguments.Configured { indentUnit := some "    " } belowConfig (.file "src/a.scilla") c ∧
      ({ indentUnit := "    ", newline := "\r\n" } : Options) = Arguments.inEffect { indentUnit := some "    " } c := by
  obtain ⟨-, hok, -, -⟩ := options_in_effect { indentUnit := some "    " } belowConfig (.file "src/a.scilla")
  have hoptions : Arguments.options { indentUnit := some "    " } belowConfig (.file "src/a.scilla") =
      .ok { indentUnit := "    ", newline := "\r\n" } := ok_of_toOption (by decide +kernel)
  obtain ⟨c, hc, hvalues, -⟩ := hok _ hoptions
  exact ⟨hoptions, c, hc, hvalues⟩

end ScillaLayout
