import ScillaLayout.Proofs.Command.Modes
import ScillaLayout.Proofs.Formatting.Idempotence

/-!
# Formatting in place

Whatever a configuration and a command line set, the options that come of it put only white space between tokens
(`Arguments.plain_options`). So what writing leaves in a file is formatted to itself, with the options that are in
effect then: a file that has been written passes the check, and writing it again changes nothing (`write_settles`).
-/

namespace ScillaLayout

/-! ## Options in effect -/

theorem blank_of_checkIndentUnit {unit : String} {u : Unit} (h : checkIndentUnit unit = .ok u) :
    ∀ c ∈ unit.toList, c = ' ' ∨ c = '\t' := by
  rw [checkIndentUnit] at h
  split at h
  · cases h
  · split at h
    · next hall => simpa using hall
    · cases h

theorem NewlineStyle.text_mem (n : NewlineStyle) : n.text ∈ ["\n", "\r\n", "\r"] := by
  cases n <;> decide

theorem FormatterSection.plain_applyTo {s : FormatterSection} {o o' : Options} (ho : o.Plain)
    (h : s.applyTo o = .ok o') : o'.Plain := by
  have hnewline : (s.newline.map (·.text)).getD o.newline ∈ ["\n", "\r\n", "\r"] := by
    cases s.newline with
    | none => exact ho.newline
    | some n => exact n.text_mem
  rw [applyTo] at h
  cases hs : s.indentUnit with
  | none =>
    simp only [hs] at h
    obtain rfl := Except.ok.inj h
    exact ⟨ho.indent, hnewline⟩
  | some unit =>
    simp only [hs] at h
    obtain ⟨u, hunit, hset⟩ := exists_of_bind h
    obtain rfl := Except.ok.inj hset
    exact ⟨blank_of_checkIndentUnit hunit, hnewline⟩

theorem Section.plain_applyTo {s : Section} {o o' : Options} (ho : o.Plain) (h : s.applyTo o = .ok o') : o'.Plain := by
  cases s with
  | formatter s => exact FormatterSection.plain_applyTo ho h
  | trace s =>
    obtain rfl := Except.ok.inj h
    exact ⟨ho.indent, ho.newline⟩

theorem Section.plain_foldlM {ss : List Section} {o o' : Options} (ho : o.Plain)
    (h : ss.foldlM Section.applyTo o = .ok o') : o'.Plain := by
  induction ss generalizing o with
  | nil => exact Except.ok.inj h ▸ ho
  | cons s ss ih =>
    rw [List.foldlM_cons] at h
    obtain ⟨o₁, hs, hss⟩ := exists_of_bind h
    exact ih (Section.plain_applyTo ho hs) hss

theorem Config.plain_options {c : Config} {o : Options} (h : c.options = .ok o) : o.Plain :=
  Section.plain_foldlM ⟨by simp, by decide⟩ h

theorem ok_of_mapError {ε ε' α : Type} {x : Except ε α} {f : ε → ε'} {y : α} (h : x.mapError f = .ok y) :
    x = .ok y := by
  cases x with
  | error e => cases h
  | ok z => rw [Except.ok.inj h]

namespace Arguments

variable [Config.Reader]
variable {a : Arguments} {t : Tree} {stdin : ByteArray} {source formatted path : String} {o : Options} {p : Place}

/-- **Options that are accepted put only white space between tokens.** -/
theorem plain_options {i : Input} (h : a.options t i = .ok o) : o.Plain := by
  obtain ⟨c, -, h⟩ := exists_of_bind h
  obtain ⟨o₁, hconfig, h⟩ := exists_of_bind h
  obtain ⟨o₂, hargs, h⟩ := exists_of_bind h
  obtain rfl := Except.ok.inj h
  have ho₁ := Config.plain_options (ok_of_mapError hconfig)
  have ho₂ := FormatterSection.plain_applyTo ho₁ (ok_of_mapError hargs)
  exact ⟨ho₂.indent, ho₂.newline⟩

theorem options_write {bytes bytes' : ByteArray} {i : Input} (h : t.get? p = some (.file bytes))
    (hp : t.configPlace? a.config i.directory? ≠ some p) : a.options (t.write p bytes') i = a.options t i := by
  rw [options, options, Tree.loadConfig_write h hp]

/-! ## A second time -/

/-- The standard input cannot be written. -/
theorem code_write_stdin (hmode : a.mode = .write) (hfile : Input.ofArgument a.file = .stdin) :
    (a.run t stdin).status.code ≠ 0 := by
  have hrun : a.run t stdin = runInput a t stdin := by rw [Arguments.run, hmode]
  rw [hrun, runInput, hfile]
  cases Input.stdin.read t stdin with
  | error f => simp [Status.code]
  | ok source =>
    cases a.options t .stdin with
    | error e => simp [Status.code]
    | ok o => simp [hmode, runFormat, Status.code]

theorem exists_formats (hmode : a.mode = .write) (hexit : (a.run t stdin).status.code = 0) :
    ∃ path source o formatted, Input.ofArgument a.file = .file path ∧ a.Formats t stdin source o formatted := by
  have hself : { a with mode := .write } = a := by rw [← hmode]
  cases hfile : Input.ofArgument a.file with
  | stdin => exact absurd hexit (code_write_stdin hmode hfile)
  | file path =>
    obtain ⟨s, hstops⟩ | ⟨source, o, formatted, hformats⟩ := a.stops_or_formats t stdin
    · obtain ⟨hstatus, -⟩ := hself ▸ hstops.run (m := .write) (hfile ▸ .write path)
      have hcode := hstops.code
      rw [hstatus] at hexit
      omega
    · exact ⟨path, source, o, formatted, rfl, hformats⟩

/-- After writing, the file holds a text that is formatted to itself. -/
theorem Formats.again (h : a.Formats t stdin source o formatted) (hfile : Input.ofArgument a.file = .file path)
    (hp : t.resolve path = .ok p) (hentry : t.get? p = some (.file source.toUTF8))
    (hconfig : t.configPlace? a.config (Input.ofArgument a.file).directory? ≠ some p) (stdin' : ByteArray) :
    a.Formats (if formatted = source then t else t.write p formatted.toUTF8) stdin' formatted o formatted := by
  have hformat := format_format (plain_options h.options) h.formatted
  split
  · next heq =>
    refine ⟨?_, h.options, hformat⟩
    rw [hfile]
    exact Input.read_file stdin' hp (heq ▸ hentry)
  · refine ⟨?_, (options_write hentry hconfig).trans h.options, hformat⟩
    rw [hfile]
    exact Input.read_file stdin' ((Tree.resolve_write hentry path).trans hp)
      (by rw [Tree.get?_write hentry, if_pos rfl])

end Arguments

/-- **Formatting in place settles**, however configurations are read. -/
theorem write_settles [Config.Reader] {env : Environment} {write check : List String} {a : Arguments}
    (hwrite : Arguments.parse env write = .ok a) (hmode : a.mode = .write)
    (hcheck : Arguments.parse env check = .ok { a with mode := .check }) {t : Tree} {stdin : ByteArray}
    (hexit : (run t stdin env write).status.code = 0)
    (hconfig : ∀ path p, Input.ofArgument a.file = .file path → t.resolve path = .ok p →
      t.configPlace? a.config (Input.ofArgument a.file).directory? ≠ some p) (stdin' : ByteArray) :
    (run (run t stdin env write).tree stdin' env check).status.code = 0 ∧
      (run (run t stdin env write).tree stdin' env write).status.code = 0 ∧
      (run (run t stdin env write).tree stdin' env write).tree = (run t stdin env write).tree := by
  have hself : { a with mode := .write } = a := by rw [← hmode]
  simp only [run_of_parse hwrite, run_of_parse hcheck] at hexit ⊢
  obtain ⟨path, source, o, formatted, hfile, hformats⟩ := Arguments.exists_formats hmode hexit
  obtain ⟨p, hp, hentry, -, htree⟩ := hself ▸ hformats.run_write hfile
  have hagain := hformats.again hfile hp hentry (hconfig path p hfile hp) stdin'
  rw [htree]
  obtain ⟨hchecked, -⟩ := hagain.run_check
  obtain ⟨q, -, -, hstatus, hsame⟩ := hself ▸ hagain.run_write hfile
  refine ⟨?_, ?_, ?_⟩
  · rw [hchecked, if_pos rfl]
    rfl
  · rw [hstatus]
    rfl
  · rw [hsame, if_pos rfl]

/-- A file beside a configuration that asks for other line breaks. -/
def besideConfig (source : String) : Tree where
  entries := [(["a.scilla"], .file source.toUTF8),
    ([".scillafmt.toml"], .file "[formatter]\nnewline = \"crlf\"\n".toUTF8)]

/-- A file that writing changes, in the line breaks of a configuration found beside it. -/
theorem write_settles_crlf :
    (run (besideConfig "let x=1") .empty [] ["-w", "a.scilla"]).tree = besideConfig "let x = 1\r\n" ∧
    (run (besideConfig "let x = 1\r\n") .empty [] ["--check", "a.scilla"]).status.code = 0 ∧
    (run (besideConfig "let x = 1\r\n") .empty [] ["-w", "a.scilla"]).tree = besideConfig "let x = 1\r\n" := by
  have htree : (run (besideConfig "let x=1") .empty [] ["-w", "a.scilla"]).tree = besideConfig "let x = 1\r\n" := by
    decide +kernel
  have hwrite : Arguments.parse [] ["-w", "a.scilla"] = .ok { mode := .write, file := some "a.scilla" } := rfl
  have hcheck : Arguments.parse [] ["--check", "a.scilla"] = .ok { mode := .check, file := some "a.scilla" } := rfl
  have hexit : (run (besideConfig "let x=1") .empty [] ["-w", "a.scilla"]).status.code = 0 := by decide +kernel
  obtain ⟨hchecked, -, hsame⟩ := write_settles hwrite rfl hcheck hexit (fun path p hpath hp => by
    obtain rfl : "a.scilla" = path := Input.file.inj hpath
    obtain rfl : ["a.scilla"] = p := Except.ok.inj hp
    decide) .empty
  rw [htree] at hchecked hsame
  exact ⟨htree, hchecked, hsame⟩

end ScillaLayout
