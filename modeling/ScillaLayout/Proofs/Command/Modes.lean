import ScillaLayout.Command.Run
import ScillaLayout.Proofs.Command.Files
import ScillaLayout.Proofs.Command.Switches
import ScillaLayout.Proofs.Lexing.Lossless
import ScillaLayout.Proofs.Formatting.Text

/-!
# The modes of a command

Whether a command comes to format its source does not depend on the mode: either it stops before, with the same status
in every mode and without a change to any file (`Arguments.Stops.run`), or the source is formatted and the mode says
what becomes of the text (`Arguments.Formats`). So the modes agree, and only writing changes a file (`modes_agree`).
-/

namespace ScillaLayout

theorem toUTF8_of_fromUTF8? {bytes : ByteArray} {s : String} (h : String.fromUTF8? bytes = some s) :
    s.toUTF8 = bytes := by
  unfold String.fromUTF8? at h
  split at h
  · rw [← Option.some.inj h]
    rfl
  · cases h

theorem fromUTF8?_toUTF8 (s : String) : String.fromUTF8? s.toUTF8 = some s := by
  rw [String.fromUTF8?, dif_pos (show s.toUTF8.IsValidUTF8 from s.isValidUTF8)]
  rfl

/-- A text that was read is what the file holds. -/
theorem Input.exists_file {t : Tree} {stdin : ByteArray} {path source : String}
    (h : (Input.file path).read t stdin = .ok source) :
    ∃ p, t.resolve path = .ok p ∧ t.get? p = some (.file source.toUTF8) := by
  simp only [Input.read, bind, Except.bind, pure, Except.pure] at h
  cases hplace : t.resolve path with
  | error e => simp [hplace] at h
  | ok p =>
    simp only [hplace] at h
    cases hread : t.read p with
    | error e => simp [hread] at h
    | ok bytes =>
      simp only [hread] at h
      split at h
      · next text htext =>
        obtain rfl := Except.ok.inj h
        exact ⟨p, rfl, by rw [toUTF8_of_fromUTF8? htext]; exact Tree.get?_of_read hread⟩
      · cases h

theorem Input.read_file {t : Tree} (stdin : ByteArray) {path source : String} {p : Place} (hp : t.resolve path = .ok p)
    (h : t.get? p = some (.file source.toUTF8)) : (Input.file path).read t stdin = .ok source := by
  simp only [Input.read, bind, Except.bind, pure, Except.pure, hp, Tree.read, h, fromUTF8?_toUTF8]

/-- Reading token by token fails where reading at once does. -/
theorem Lexing.collect_error? (s : String) :
    (Lexing.ofSource s).collect.2.error?.isSome = (lex s).fault.isSome := by
  obtain ⟨ts, last, l, hrun⟩ := Lexing.exists_run (l := Lexing.ofSource s) rfl
  rw [hrun.exhausts.collect]
  obtain ⟨hfault, -, -, -, herror, -⟩ | ⟨hfault, -, e, herror, -⟩ := hrun.ending
  · rw [show (lex s).fault = none from hfault, herror]
    rfl
  · rw [herror]
    exact (Option.isSome_iff_ne_none.2 hfault).symm

/-- The modes that work on an input. Only a file can be written. -/
inductive Mode.WorksOn : Mode → Input → Prop
  | print (i : Input) : WorksOn .print i
  | check (i : Input) : WorksOn .check i
  | tokens (i : Input) : WorksOn .tokens i
  | write (path : String) : WorksOn .write (.file path)

theorem Mode.WorksOn.reads {m : Mode} {i : Input} (h : m.WorksOn i) : m ≠ .schema ∧ m ≠ .syntaxTree := by
  cases h <;> simp

namespace Arguments

variable {a : Arguments} {t : Tree} {stdin : ByteArray}

/-! ## Before formatting -/

/-- The command ends with a status before its source is formatted. -/
inductive Stops [Config.Reader] (a : Arguments) (t : Tree) (stdin : ByteArray) : Status → Prop
  | input {f : Failure} : (Input.ofArgument a.file).read t stdin = .error f → Stops a t stdin .inputUnavailable
  | options {source : String} {e : OptionsError} : (Input.ofArgument a.file).read t stdin = .ok source →
      a.options t (Input.ofArgument a.file) = .error e → Stops a t stdin .failure
  | source {source : String} {o : Options} {e : LexError} : (Input.ofArgument a.file).read t stdin = .ok source →
      a.options t (Input.ofArgument a.file) = .ok o → format o source = .error e → Stops a t stdin .failure

/-- The command formats its source. -/
structure Formats [Config.Reader] (a : Arguments) (t : Tree) (stdin : ByteArray) (source : String) (o : Options)
    (formatted : String) : Prop where
  read : (Input.ofArgument a.file).read t stdin = .ok source
  options : a.options t (Input.ofArgument a.file) = .ok o
  formatted : format o source = .ok formatted

theorem stops_or_formats [Config.Reader] (a : Arguments) (t : Tree) (stdin : ByteArray) :
    (∃ s, a.Stops t stdin s) ∨ ∃ source o formatted, a.Formats t stdin source o formatted := by
  cases hread : (Input.ofArgument a.file).read t stdin with
  | error f => exact .inl ⟨_, .input hread⟩
  | ok source =>
    cases hoptions : a.options t (Input.ofArgument a.file) with
    | error e => exact .inl ⟨_, .options hread hoptions⟩
    | ok o =>
      cases hformat : format o source with
      | error e => exact .inl ⟨_, .source hread hoptions hformat⟩
      | ok formatted => exact .inr ⟨source, o, formatted, hread, hoptions, hformat⟩

/-- The mode is looked at only when there are a source and options for it. -/
theorem run_of_worksOn [Config.Reader] {m : Mode} (hm : m.WorksOn (Input.ofArgument a.file)) :
    Arguments.run { a with mode := m } t stdin =
      match (Input.ofArgument a.file).read t stdin with
      | .error f => { status := .inputUnavailable, err := errorLine f.message, tree := t }
      | .ok source =>
        match a.options t (Input.ofArgument a.file) with
        | .error e => { status := .failure, err := errorLine e.message, tree := t }
        | .ok o =>
          if m = .tokens then runTokens { a with mode := m } t (Input.ofArgument a.file) o source
          else runFormat { a with mode := m } t (Input.ofArgument a.file) o source := by
  obtain ⟨hschema, hsyntaxTree⟩ := hm.reads
  cases m with
  | schema => exact absurd rfl hschema
  | syntaxTree => exact absurd rfl hsyntaxTree
  | print | check | tokens | write => rfl

theorem runFormat_of_error {o : Options} {source : String} {e : LexError} (h : format o source = .error e) {m : Mode}
    {i : Input} (hm : m.WorksOn i) (htokens : m ≠ .tokens) :
    (runFormat { a with mode := m } t i o source).status = .failure ∧
      (runFormat { a with mode := m } t i o source).tree = t ∧
      (runFormat { a with mode := m } t i o source).out = "" := by
  cases hm with
  | tokens => exact absurd rfl htokens
  | print | check | write => simp [runFormat, withFormatted, h]

theorem runTokens_status (a : Arguments) (t : Tree) (i : Input) (o : Options) (source : String) :
    (runTokens a t i o source).status = if (lex source).fault.isSome then .failure else .success := by
  rw [← Lexing.collect_error?]
  rfl

/-- A command that stops does so in every mode, with the same status, no output and no change to a file. -/
theorem Stops.run [Config.Reader] {s : Status} (h : a.Stops t stdin s) {m : Mode}
    (hm : m.WorksOn (Input.ofArgument a.file)) :
    (Arguments.run { a with mode := m } t stdin).status = s ∧ (Arguments.run { a with mode := m } t stdin).tree = t ∧
      (m ≠ .tokens → (Arguments.run { a with mode := m } t stdin).out = "") := by
  rw [run_of_worksOn hm]
  cases h with
  | input hread => simp [hread]
  | options hread hoptions => simp [hread, hoptions]
  | source hread hoptions hformat =>
    simp only [hread, hoptions]
    split
    · next htokens =>
      have hfault : (lex _).fault.isSome := isSome_fault_of_format hformat
      exact ⟨by rw [runTokens_status, if_pos hfault], rfl, fun hne => absurd htokens hne⟩
    · next htokens =>
      obtain ⟨hstatus, htree, hout⟩ := runFormat_of_error hformat hm htokens
      exact ⟨hstatus, htree, fun _ => hout⟩

theorem Stops.code [Config.Reader] {s : Status} (h : a.Stops t stdin s) : s.code = 1 ∨ s.code = 4 := by
  cases h with
  | input => exact .inr rfl
  | options | source => exact .inl rfl

/-! ## After formatting -/

namespace Formats

variable [Config.Reader] {source formatted path : String} {o : Options}

theorem run_eq (h : a.Formats t stdin source o formatted) {m : Mode} (hm : m.WorksOn (Input.ofArgument a.file)) :
    Arguments.run { a with mode := m } t stdin =
      if m = .tokens then runTokens { a with mode := m } t (Input.ofArgument a.file) o source
      else runFormat { a with mode := m } t (Input.ofArgument a.file) o source := by
  simp only [run_of_worksOn hm, h.read, h.options]

theorem run_print (h : a.Formats t stdin source o formatted) :
    (Arguments.run { a with mode := .print } t stdin).status = .success ∧
      (Arguments.run { a with mode := .print } t stdin).out = formatted ∧
      (Arguments.run { a with mode := .print } t stdin).tree = t := by
  simp [h.run_eq (.print _), runFormat, withFormatted, h.formatted]

theorem run_check (h : a.Formats t stdin source o formatted) :
    (Arguments.run { a with mode := .check } t stdin).status =
        (if formatted = source then .success else .unformatted) ∧
      (Arguments.run { a with mode := .check } t stdin).tree = t := by
  simp only [h.run_eq (.check _), reduceCtorEq, if_false, runFormat, withFormatted, h.formatted, checkFormatted]
  by_cases heq : formatted = source <;> simp [heq]

theorem run_tokens (h : a.Formats t stdin source o formatted) :
    (Arguments.run { a with mode := .tokens } t stdin).status = .success ∧
      (Arguments.run { a with mode := .tokens } t stdin).tree = t := by
  simp only [h.run_eq (.tokens _), if_true, runTokens_status, fault_of_format h.formatted]
  exact ⟨rfl, rfl⟩

/-- The text goes to the place that the source was read from. -/
theorem run_write (h : a.Formats t stdin source o formatted) (hfile : Input.ofArgument a.file = .file path) :
    ∃ p, t.resolve path = .ok p ∧ t.get? p = some (.file source.toUTF8) ∧
      (Arguments.run { a with mode := .write } t stdin).status = .success ∧
      (Arguments.run { a with mode := .write } t stdin).tree =
        if formatted = source then t else t.write p formatted.toUTF8 := by
  obtain ⟨p, hp, hentry⟩ := Input.exists_file (hfile ▸ h.read)
  have hm : Mode.write.WorksOn (Input.ofArgument a.file) := hfile ▸ .write path
  refine ⟨p, hp, hentry, ?_⟩
  simp only [h.run_eq hm, reduceCtorEq, if_false, hfile, runFormat, withFormatted, h.formatted, writeFormatted, hp]
  by_cases heq : formatted = source <;> simp [heq]

end Formats

end Arguments

/-! ## Agreement -/

/-- What checking and listing tokens have to do with printing the formatted text, for a command with a given source. -/
structure ReadersAgree (t : Tree) (source : Except Failure String) (print check tokens : Outcome) : Prop where
  unchanged : print.tree = t ∧ check.tree = t ∧ tokens.tree = t
  formatted : print.status.code = 0 → tokens.status.code = 0 ∧
    ∃ text, source = .ok text ∧ check.status.code = if print.out = text then 0 else 3
  stopped : print.status.code ≠ 0 → (print.status.code = 1 ∨ print.status.code = 4) ∧ print.out = "" ∧
    check.status.code = print.status.code ∧ tokens.status.code = print.status.code

/-- What writing has to do with printing the formatted text, for a command on a file. -/
structure WriterAgrees (t : Tree) (path : String) (print write : Outcome) : Prop where
  elsewhere : write.tree.home = t.home ∧ ∀ q, t.resolve path ≠ .ok q → write.tree.get? q = t.get? q
  formatted : print.status.code = 0 → write.status.code = 0 ∧
    (write.tree.resolve path >>= write.tree.read) = .ok print.out.toUTF8
  stopped : print.status.code ≠ 0 → write.status.code = print.status.code ∧ write.tree = t

namespace Arguments

variable {a : Arguments} {t : Tree} {stdin : ByteArray}

theorem readersAgree [Config.Reader] (a : Arguments) (t : Tree) (stdin : ByteArray) :
    ReadersAgree t ((Input.ofArgument a.file).read t stdin) (Arguments.run { a with mode := .print } t stdin)
      (Arguments.run { a with mode := .check } t stdin) (Arguments.run { a with mode := .tokens } t stdin) := by
  obtain ⟨s, hstops⟩ | ⟨source, o, formatted, hformats⟩ := a.stops_or_formats t stdin
  · obtain ⟨hprint, hprintTree, hout⟩ := hstops.run (.print _)
    obtain ⟨hcheck, hcheckTree, -⟩ := hstops.run (.check _)
    obtain ⟨htokens, htokensTree, -⟩ := hstops.run (.tokens _)
    refine ⟨⟨hprintTree, hcheckTree, htokensTree⟩, fun hzero => ?_, fun _ => ?_⟩
    · rw [hprint] at hzero
      have hcode := hstops.code
      omega
    · rw [hprint, hcheck, htokens]
      exact ⟨hstops.code, hout (by decide), rfl, rfl⟩
  · obtain ⟨hprint, hout, hprintTree⟩ := hformats.run_print
    obtain ⟨hcheck, hcheckTree⟩ := hformats.run_check
    obtain ⟨htokens, htokensTree⟩ := hformats.run_tokens
    refine ⟨⟨hprintTree, hcheckTree, htokensTree⟩, fun _ => ⟨by rw [htokens]; rfl, source, hformats.read, ?_⟩, ?_⟩
    · rw [hcheck, hout, apply_ite Status.code]
      rfl
    · rw [hprint]
      exact fun hne => absurd rfl hne

theorem writerAgrees [Config.Reader] {path : String} (hfile : Input.ofArgument a.file = .file path) :
    WriterAgrees t path (Arguments.run { a with mode := .print } t stdin)
      (Arguments.run { a with mode := .write } t stdin) := by
  obtain ⟨s, hstops⟩ | ⟨source, o, formatted, hformats⟩ := a.stops_or_formats t stdin
  · obtain ⟨hprint, -, -⟩ := hstops.run (.print _)
    obtain ⟨hwrite, htree, -⟩ := hstops.run (m := .write) (hfile ▸ .write path)
    refine ⟨by simp [htree], fun hzero => ?_, fun _ => ⟨by rw [hwrite, hprint], htree⟩⟩
    rw [hprint] at hzero
    have hcode := hstops.code
    omega
  · obtain ⟨hprint, hout, -⟩ := hformats.run_print
    obtain ⟨p, hp, hentry, hwrite, htree⟩ := hformats.run_write hfile
    refine ⟨?_, fun _ => ⟨by rw [hwrite]; rfl, ?_⟩, fun hne => absurd (by rw [hprint]; rfl) hne⟩
    · rw [htree]
      split
      · exact ⟨rfl, fun q _ => rfl⟩
      · refine ⟨rfl, fun q hq => ?_⟩
        rw [Tree.get?_write hentry, if_neg fun heq : q = p => hq (heq ▸ hp)]
    · rw [hout, htree]
      split
      · next heq => simp only [hp, bind, Except.bind, Tree.read, hentry, heq]
      · simp only [Tree.resolve_write hentry, hp, bind, Except.bind, Tree.read_write_self hentry]

end Arguments

theorem run_of_parse [Config.Reader] {env : Environment} {args : List String} {a : Arguments}
    (h : Arguments.parse env args = .ok a) (t : Tree) (stdin : ByteArray) : run t stdin env args = a.run t stdin := by
  rw [run, h]

/-- **The modes of a command agree**, and only writing changes a file, however configurations are read. A file that has
been read can be written, as trees have no permissions. -/
theorem modes_agree [Config.Reader] {env : Environment} {args check tokens : List String} {a : Arguments}
    (h : Arguments.parse env args = .ok a) (hprint : a.mode = .print) (hcheck : InMode env .check args check)
    (htokens : InMode env .tokens args tokens) (t : Tree) (stdin : ByteArray) :
    ReadersAgree t ((Input.ofArgument a.file).read t stdin) (run t stdin env args) (run t stdin env check)
        (run t stdin env tokens) ∧
      ∀ {write : List String} {path : String}, InMode env .write args write → Input.ofArgument a.file = .file path →
        WriterAgrees t path (run t stdin env args) (run t stdin env write) := by
  have hself : { a with mode := .print } = a := by rw [← hprint]
  rw [run_of_parse h, run_of_parse (hcheck.parse h hprint), run_of_parse (htokens.parse h hprint)]
  refine ⟨hself ▸ a.readersAgree t stdin, fun hwrite hfile => ?_⟩
  rw [run_of_parse (hwrite.parse h hprint)]
  exact hself ▸ Arguments.writerAgrees hfile

/-- One file that is not formatted. -/
def unformattedFile : Tree := { entries := [(["a.scilla"], .file "let x=1".toUTF8)] }

/-- A switch between the other arguments, behind them and before them. -/
theorem modes_agree_no_final_newline :
    Arguments.parse [] ["--no-final-newline", "a.scilla"] = .ok { noFinalNewline := true, file := some "a.scilla" } ∧
      InMode [] .check ["--no-final-newline", "a.scilla"] ["--no-final-newline", "--check", "a.scilla"] ∧
      InMode [] .tokens ["--no-final-newline", "a.scilla"] ["--no-final-newline", "a.scilla", "--tokens"] ∧
      InMode [] .write ["--no-final-newline", "a.scilla"] ["-w", "--no-final-newline", "a.scilla"] ∧
      ReadersAgree unformattedFile (.ok "let x=1") (run unformattedFile .empty [] ["--no-final-newline", "a.scilla"])
        (run unformattedFile .empty [] ["--no-final-newline", "--check", "a.scilla"])
        (run unformattedFile .empty [] ["--no-final-newline", "a.scilla", "--tokens"]) ∧
      WriterAgrees unformattedFile "a.scilla" (run unformattedFile .empty [] ["--no-final-newline", "a.scilla"])
        (run unformattedFile .empty [] ["-w", "--no-final-newline", "a.scilla"]) := by
  have hcheck : InMode [] .check ["--no-final-newline", "a.scilla"] ["--no-final-newline", "--check", "a.scilla"] :=
    ⟨⟨["--no-final-newline"], "--check", ["a.scilla"], by decide, rfl, rfl⟩,
      { mode := .check, noFinalNewline := true, file := some "a.scilla" }, rfl, rfl⟩
  have htokens : InMode [] .tokens ["--no-final-newline", "a.scilla"] ["--no-final-newline", "a.scilla", "--tokens"] :=
    ⟨⟨["--no-final-newline", "a.scilla"], "--tokens", [], by decide, rfl, rfl⟩,
      { mode := .tokens, noFinalNewline := true, file := some "a.scilla" }, rfl, rfl⟩
  have hwrite : InMode [] .write ["--no-final-newline", "a.scilla"] ["-w", "--no-final-newline", "a.scilla"] :=
    ⟨⟨[], "-w", ["--no-final-newline", "a.scilla"], by decide, rfl, rfl⟩,
      { mode := .write, noFinalNewline := true, file := some "a.scilla" }, rfl, rfl⟩
  obtain ⟨hreaders, hwriter⟩ := modes_agree
    (a := { noFinalNewline := true, file := some "a.scilla" }) rfl rfl hcheck htokens unformattedFile .empty
  exact ⟨rfl, hcheck, htokens, hwrite, hreaders, hwriter hwrite rfl⟩

end ScillaLayout
