import ScillaLayout.Command.Arguments

/-!
# Command lines that differ in a mode

A switch that asks for a mode can stand anywhere among the other arguments: what they mean does not depend on it.
Reading an argument is `Given.Uniform`: where it succeeds it succeeds with one more switch given before, and the switch
is all that differs. So a command line with the switch of a mode put in asks for the same as without it, in that mode
(`InMode.parse`).
-/

namespace ScillaLayout

theorem exists_of_bind {ε α β : Type} {x : Except ε α} {f : α → Except ε β} {r : β} (h : x >>= f = .ok r) :
    ∃ y, x = .ok y ∧ f y = .ok r := by
  cases x with
  | error e => cases h
  | ok y => exact ⟨y, rfl, h⟩

namespace Given

/-! ## One more switch -/

/-- `g'` is `g` with one more switch. -/
def Adds (s : Switch) (g g' : Given) : Prop :=
  ∃ switches, g' = { g with switches } ∧ ∀ x, x ∈ switches ↔ x = s ∨ x ∈ g.switches

/-- Reading that takes no switch back, and that goes the same way with one more switch that it does not meet. -/
structure Uniform (f : Given → Except Stop Given) : Prop where
  keeps : ∀ {g g₁ : Given}, f g = .ok g₁ → g.switches ⊆ g₁.switches
  more : ∀ {g g₁ : Given}, f g = .ok g₁ → ∀ {s : Switch} {g' : Given}, Adds s g g' → s ∉ g₁.switches →
    ∃ g₁', f g' = .ok g₁' ∧ Adds s g₁ g₁'

/-- Reading that neither looks at the switches nor changes them. -/
theorem uniform_of_blind {f : Given → Except Stop Given} (hf : ∀ {g g₁ : Given}, f g = .ok g₁ →
    g₁.switches = g.switches ∧ ∀ switches, f { g with switches } = .ok { g₁ with switches }) : Uniform f := by
  refine ⟨fun h => (hf h).1 ▸ List.Subset.refl _, fun h => ?_⟩
  rintro s _ ⟨switches, rfl, hmem⟩ -
  exact ⟨_, (hf h).2 switches, switches, rfl, (hf h).1 ▸ hmem⟩

theorem uniform_error (stop : Stop) : Uniform fun _ => .error stop := uniform_of_blind fun h => by cases h

theorem Uniform.bind {f h : Given → Except Stop Given} (hf : Uniform f) (hh : Uniform h) :
    Uniform fun g => f g >>= h := by
  refine ⟨fun {g g₂} hg => ?_, fun {g g₂} hg {s g'} hadds hs => ?_⟩
  · obtain ⟨g₁, hg₁, hg₂⟩ := exists_of_bind hg
    exact List.Subset.trans (hf.keeps hg₁) (hh.keeps hg₂)
  · obtain ⟨g₁, hg₁, hg₂⟩ := exists_of_bind hg
    obtain ⟨g₁', hg₁', hadds₁⟩ := hf.more hg₁ hadds fun hmem => hs (hh.keeps hg₂ hmem)
    obtain ⟨g₂', hg₂', hadds₂⟩ := hh.more hg₂ hadds₁ hs
    have hbind : f g' >>= h = .ok g₂' := by
      rw [hg₁']
      exact hg₂'
    exact ⟨g₂', hbind, hadds₂⟩

/-! ## Arguments -/

theorem uniform_addSwitch (x : Switch) : Uniform (·.addFlag (.switch x)) := by
  have hadd : ∀ {g g₁ : Given}, g.addFlag (.switch x) = .ok g₁ →
      x ∉ g.switches ∧ g₁ = { g with switches := x :: g.switches } := by
    intro g g₁ h
    simp only [addFlag] at h
    split at h
    · cases h
    · next hx => exact ⟨by simpa using hx, (Except.ok.inj h).symm⟩
  refine ⟨fun {g g₁} h => ?_, fun {g g₁} h => ?_⟩
  · rw [(hadd h).2]
    exact List.subset_cons_self _ _
  · obtain ⟨hx, rfl⟩ := hadd h
    rintro s _ ⟨switches, rfl, hmem⟩ hs
    have hne : x ≠ s := fun heq => hs (heq ▸ List.mem_cons_self)
    have hfresh : x ∉ switches := by simp [hmem, hne, hx]
    refine ⟨_, by simp [addFlag, hfresh], x :: switches, rfl, fun y => ?_⟩
    simp only [List.mem_cons, hmem]
    exact or_left_comm

theorem uniform_addFlag (flag : Flag) : Uniform (·.addFlag flag) := by
  cases flag with
  | switch x => exact uniform_addSwitch x
  | setting x | verbose =>
    refine uniform_of_blind fun h => ?_
    obtain rfl := Except.ok.inj h
    exact ⟨rfl, fun _ => rfl⟩
  | version | help => exact uniform_error _

theorem uniform_addValue (value : String) (x : Setting) : Uniform (·.addValue value x) := by
  refine uniform_of_blind fun {g g₁} h => ?_
  cases x with
  | config | indentUnit =>
    simp only [addValue] at h ⊢
    split at h
    · cases h
    · next hc =>
      obtain rfl := Except.ok.inj h
      exact ⟨rfl, fun _ => by rw [if_neg hc]⟩

theorem uniform_addFile (path : String) : Uniform (·.addFile path) := by
  refine uniform_of_blind fun {g g₁} h => ?_
  simp only [addFile] at h ⊢
  split at h
  · cases h
  · next hc =>
    obtain rfl := Except.ok.inj h
    exact ⟨rfl, fun _ => by rw [if_neg hc]⟩

theorem uniform_addLong (cs : List Char) : Uniform (·.addLong cs) := by
  unfold addLong
  split
  · exact uniform_error _
  · split
    · exact uniform_addValue _ _
    · exact uniform_error _
    · exact uniform_addFlag _

theorem uniform_addShorts (cs : List Char) : Uniform (·.addShorts cs) := by
  induction cs with
  | nil =>
    refine uniform_of_blind fun h => ?_
    obtain rfl := Except.ok.inj h
    exact ⟨rfl, fun _ => rfl⟩
  | cons c cs ih =>
    unfold addShorts
    split
    · exact uniform_error _
    · exact uniform_addValue _ _
    · exact uniform_addValue _ _
    · exact (uniform_addFlag _).bind ih

/-- How an argument is read is settled by what is awaited. -/
theorem uniform_awaiting (arg : String) (filesOnly : Bool) (pending : Option Setting) :
    Uniform fun g => ({ g with filesOnly, pending } : Given).add arg := by
  have hset : Uniform fun g => .ok { g with filesOnly, pending } := uniform_of_blind fun h => by
    obtain rfl := Except.ok.inj h
    exact ⟨rfl, fun _ => rfl⟩
  simp only [add]
  cases filesOnly with
  | true => exact hset.bind (uniform_addFile arg)
  | false =>
    simp only [Bool.false_eq_true, if_false]
    split
    · exact hset.bind (uniform_addValue arg _)
    · exact uniform_error _
    · exact hset.bind (uniform_addValue arg _)
    · refine uniform_of_blind fun h => ?_
      obtain rfl := Except.ok.inj h
      exact ⟨rfl, fun _ => rfl⟩
    · exact hset.bind (uniform_addLong _)
    · exact hset.bind (uniform_addShorts _)
    · exact hset.bind (uniform_addFile arg)

theorem uniform_add (arg : String) : Uniform (·.add arg) := by
  refine ⟨fun {g g₁} h => (uniform_awaiting arg g.filesOnly g.pending).keeps h, fun {g g₁} h => ?_⟩
  rintro s _ ⟨switches, rfl, hmem⟩ hs
  exact (uniform_awaiting arg g.filesOnly g.pending).more h ⟨switches, rfl, hmem⟩ hs

/-- Arguments that are read one after the other. -/
theorem uniform_foldlM (args : List String) : Uniform fun g => args.foldlM add g := by
  induction args with
  | nil =>
    refine uniform_of_blind fun h => ?_
    obtain rfl := Except.ok.inj h
    exact ⟨rfl, fun _ => rfl⟩
  | cons arg args ih => exact (uniform_add arg).bind ih

/-- Behind two dashes there are no switches. -/
theorem switches_of_filesOnly {g g₁ : Given} {args : List String} (hfiles : g.filesOnly = true)
    (h : args.foldlM add g = .ok g₁) : g₁.switches = g.switches := by
  induction args generalizing g with
  | nil => rw [← Except.ok.inj h]
  | cons arg args ih =>
    rw [List.foldlM_cons, add, if_pos hfiles, addFile] at h
    split at h
    · cases h
    · exact ih (g := { g with file := some arg }) hfiles h

end Given

/-! ## Modes -/

/-- The switch that asks for a mode. -/
def Mode.switch? : Mode → Option Switch
  | .check => some .check
  | .tokens => some .tokens
  | .write => some .write
  | _ => none

/-- The spellings of the switch that asks for a mode. -/
def Mode.spellings : Mode → List String
  | .check => ["--check"]
  | .tokens => ["--tokens"]
  | .write => ["--write", "-w"]
  | _ => []

/-- The command line `line` is `args` with the switch of the mode `m` put in somewhere, and is accepted in this mode. -/
structure InMode (env : Environment) (m : Mode) (args line : List String) : Prop where
  inserted : ∃ front flag behind, flag ∈ m.spellings ∧ args = front ++ behind ∧ line = front ++ flag :: behind
  accepted : ∃ a, Arguments.parse env line = .ok a ∧ a.mode = m

namespace Given

/-- What looks like an option is no value of another. -/
theorem add_spelling_awaited {m : Mode} {flag : String} (hflag : flag ∈ m.spellings) {g : Given} {x : Setting}
    (hfiles : g.filesOnly = false) (hpending : g.pending = some x) : g.add flag = .error .usage := by
  cases m <;> simp only [Mode.spellings, List.mem_cons, List.not_mem_nil, or_false] at hflag
  case write => rcases hflag with rfl | rfl <;> simp [add, hfiles, hpending]
  all_goals
    subst hflag
    simp [add, hfiles, hpending]

theorem add_spelling_switch {m : Mode} {flag : String} (hflag : flag ∈ m.spellings) {g : Given}
    (hfiles : g.filesOnly = false) (hpending : g.pending = none) :
    ∃ s, m.switch? = some s ∧ g.add flag = g.addFlag (.switch s) := by
  cases m <;> simp only [Mode.spellings, List.mem_cons, List.not_mem_nil, or_false] at hflag
  case check =>
    subst hflag
    exact ⟨_, rfl, by simp only [add, hfiles, hpending]; rfl⟩
  case tokens =>
    subst hflag
    exact ⟨_, rfl, by simp only [add, hfiles, hpending]; rfl⟩
  case write =>
    refine ⟨_, rfl, ?_⟩
    rcases hflag with rfl | rfl
    · simp only [add, hfiles, hpending]
      rfl
    · have hshort : g.add "-w" = g.addFlag (.switch .write) >>= .ok := by
        simp only [add, hfiles, hpending]
        rfl
      rw [hshort]
      cases g.addFlag (.switch .write) <;> rfl

/-- A switch of a mode that is accepted is read as a file behind two dashes, and else as the switch. -/
theorem add_spelling {m : Mode} {flag : String} (hflag : flag ∈ m.spellings) {g g₁ : Given}
    (h : g.add flag = .ok g₁) :
    (g.filesOnly = true ∧ g₁.filesOnly = true ∧ g₁.switches = g.switches) ∨
      ∃ s, m.switch? = some s ∧ Adds s g g₁ := by
  cases hfiles : g.filesOnly with
  | true =>
    rw [add, if_pos hfiles, addFile] at h
    split at h
    · cases h
    · obtain rfl := Except.ok.inj h
      exact .inl ⟨rfl, hfiles, rfl⟩
  | false =>
    cases hpending : g.pending with
    | some x =>
      rw [add_spelling_awaited hflag hfiles hpending] at h
      cases h
    | none =>
      obtain ⟨s, hs, hadd⟩ := add_spelling_switch hflag hfiles hpending
      rw [hadd, addFlag] at h
      split at h
      · cases h
      · obtain rfl := Except.ok.inj h
        exact .inr ⟨s, hs, _, rfl, fun x => List.mem_cons⟩

/-! ## The arguments as a whole -/

variable {env : Environment} {g g' : Given} {a a' : Arguments}

theorem finish_mode (h : g.finish env = .ok a) :
    a.mode = if g.has .printSchema then .schema else g.modes.headD .print := by
  simp only [finish] at h
  split at h
  · cases h
  · obtain rfl := Except.ok.inj h
    rfl

/-- The switches alone say which mode is asked for. -/
theorem mode_eq_of_switches (hs : g'.switches = g.switches) (h : g.finish env = .ok a) (h' : g'.finish env = .ok a') :
    a'.mode = a.mode := by
  have hhas : g'.has = g.has := funext fun x => by rw [has, has, hs]
  rw [finish_mode h, finish_mode h', modes, modes, hhas]

/-- Where nothing else is asked for, no switch of a mode is given. -/
theorem has_of_print (h : g.finish env = .ok a) (hprint : a.mode = .print) :
    g.has .printSchema = false ∧ g.has .syntaxTree = false ∧
      ∀ {m : Mode} {s : Switch}, m.switch? = some s → g.has s = false := by
  rw [finish_mode h] at hprint
  cases hschema : g.has .printSchema with
  | true => simp [hschema] at hprint
  | false =>
    rw [hschema, if_neg (by simp), modes] at hprint
    cases hw : g.has .write <;> cases ht : g.has .tokens <;> cases hc : g.has .check <;>
      cases hs : g.has .syntaxTree <;> simp [hw, ht, hc, hs] at hprint
    refine ⟨rfl, rfl, fun {m s} hm => ?_⟩
    cases m <;> cases hm
    · exact hc
    · exact hw
    · exact ht

/-- One more switch asks for its mode, and changes nothing else. -/
theorem finish_adds {m : Mode} {s : Switch} (hm : m.switch? = some s) (hadds : Adds s g g') (h : g.finish env = .ok a)
    (hprint : a.mode = .print) (h' : g'.finish env = .ok a') : a' = { a with mode := m } := by
  obtain ⟨switches, rfl, hmem⟩ := hadds
  obtain ⟨hschema, htree, hmodes⟩ := has_of_print h hprint
  have hhas : ∀ x, ({ g with switches } : Given).has x = (x == s || g.has x) := by
    intro x
    simp only [has, List.contains_eq_mem, hmem]
    by_cases hx : x = s <;> simp [hx]
  have hmode : a'.mode = m := by
    simp only [finish_mode h', modes, hhas, hschema]
    cases m <;> cases hm <;>
      simp [htree, hmodes (m := .write) rfl, hmodes (m := .tokens) rfl, hmodes (m := .check) rfl]
  have hother : ∀ x : Switch, (∀ m' : Mode, m'.switch? ≠ some x) → ({ g with switches } : Given).has x = g.has x := by
    intro x hx
    have hne : x ≠ s := fun heq => hx m (heq ▸ hm)
    simp [hhas, hne]
  have hplain : ∀ x ∈ [Switch.indentAlternatives, .noFinalNewline, .traceLexerPositions, .traceLexerTokens,
      .traceRules], ({ g with switches } : Given).has x = g.has x := by
    intro x hx
    refine hother x fun m' => ?_
    revert x
    cases m' <;> decide
  simp only [finish] at h h'
  split at h
  · cases h
  split at h'
  · cases h'
  obtain rfl := Except.ok.inj h
  obtain rfl := Except.ok.inj h'
  rw [Arguments.mk.injEq]
  refine ⟨hmode, rfl, rfl, rfl, hplain _ (by simp), hplain _ (by simp), ?_, rfl⟩
  rw [hplain .traceLexerPositions (by simp), hplain .traceLexerTokens (by simp), hplain .traceRules (by simp)]

end Given

theorem Arguments.parse_eq_ok {env : Environment} {args : List String} {a : Arguments} :
    Arguments.parse env args = .ok a ↔ ∃ g, args.foldlM Given.add {} = .ok g ∧ g.finish env = .ok a := by
  rw [Arguments.parse]
  cases args.foldlM Given.add {} with
  | error e => simp [bind, Except.bind]
  | ok g => simp [bind, Except.bind]

/-- **A switch of a mode changes the mode only**, wherever it stands. -/
theorem InMode.parse {env : Environment} {m : Mode} {args line : List String} {a : Arguments}
    (h : InMode env m args line) (hargs : Arguments.parse env args = .ok a) (hprint : a.mode = .print) :
    Arguments.parse env line = .ok { a with mode := m } := by
  obtain ⟨front, flag, behind, hflag, rfl, rfl⟩ := h.inserted
  obtain ⟨a', hline, hmode⟩ := h.accepted
  obtain ⟨g, hg, hfinish⟩ := Arguments.parse_eq_ok.1 hargs
  obtain ⟨g', hg', hfinish'⟩ := Arguments.parse_eq_ok.1 hline
  rw [List.foldlM_append] at hg hg'
  obtain ⟨g₀, hfront, hg⟩ := exists_of_bind hg
  obtain ⟨g₀', hfront', hg'⟩ := exists_of_bind hg'
  obtain rfl : g₀ = g₀' := Except.ok.inj (hfront.symm.trans hfront')
  rw [List.foldlM_cons] at hg'
  obtain ⟨g₁, hadd, hg'⟩ := exists_of_bind hg'
  obtain ⟨hfiles, hfiles₁, hsame⟩ | ⟨s, hs, hadds⟩ := Given.add_spelling hflag hadd
  · -- a file of this name asks for no mode
    have hswitches : g'.switches = g.switches := by
      rw [Given.switches_of_filesOnly hfiles₁ hg', hsame, Given.switches_of_filesOnly hfiles hg]
    have hmodes := Given.mode_eq_of_switches hswitches hfinish hfinish'
    rw [hmode, hprint] at hmodes
    subst hmodes
    cases hflag
  · have hnot : s ∉ g.switches := by
      simpa [Given.has] using (Given.has_of_print hfinish hprint).2.2 hs
    obtain ⟨g'', hg'', hadds'⟩ := (Given.uniform_foldlM behind).more hg hadds hnot
    obtain rfl : g'' = g' := Except.ok.inj (hg''.symm.trans hg')
    rw [hline, Given.finish_adds hs hadds' hfinish hprint hfinish']

end ScillaLayout
