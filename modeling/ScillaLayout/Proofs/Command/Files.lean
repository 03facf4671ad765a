import ScillaLayout.Config.File

/-!
# Trees in which a file was written

Writing gives one file other bytes and leaves every other place as it was (`Tree.get?_write`). Paths lead where they
led before (`Tree.resolve_write`), and the same configuration is found: it is another one only if the file that was
written is the configuration (`Tree.loadConfig_write`).
-/

namespace ScillaLayout

namespace Tree

variable {t : Tree} {p q : Place} {bytes bytes' : ByteArray}

/-! ## What is at a place -/

theorem lookup_write (entries : List (Place × Entry)) (p q : Place) (e : Entry) :
    (entries.map fun x => if x.1 = p then (p, e) else x).lookup q =
      if q = p then (entries.lookup p).map fun _ => e else entries.lookup q := by
  induction entries with
  | nil => simp
  | cons x entries ih =>
    obtain ⟨place, entry⟩ := x
    simp only [List.map_cons]
    by_cases hplace : place = p
    · subst hplace
      by_cases hq : q = place
      · simp [hq]
      · simp [List.lookup_cons, beq_eq_false_iff_ne.2 hq, ih, hq]
    · by_cases hq : q = p
      · subst hq
        simp [List.lookup_cons, beq_eq_false_iff_ne.2 (Ne.symm hplace), ih, hplace]
      · simp only [if_neg hplace, List.lookup_cons, ih, if_neg hq]

/-- Files are listed. -/
theorem get?_eq_file : t.get? p = some (.file bytes) ↔ t.entries.lookup p = some (.file bytes) := by
  rw [get?]
  cases t.entries.lookup p with
  | some e => rfl
  | none =>
    simp only [reduceCtorEq, iff_false]
    split <;> simp

/-- **Writing a file** changes what is at its place, and nothing else. -/
theorem get?_write (h : t.get? p = some (.file bytes)) (bytes' : ByteArray) (q : Place) :
    (t.write p bytes').get? q = if q = p then some (.file bytes') else t.get? q := by
  have hkeys : (t.entries.map fun x => if x.1 = p then (p, Entry.file bytes') else x).any (q.isSuffixOf ·.1) =
      t.entries.any (q.isSuffixOf ·.1) := by
    rw [List.any_map]
    congr 1
    funext x
    by_cases hx : x.1 = p <;> simp [hx]
  simp only [get?, write, lookup_write, hkeys]
  by_cases hq : q = p
  · simp [hq, get?_eq_file.1 h]
  · simp [hq]

theorem isFile_write (h : t.get? p = some (.file bytes)) (q : Place) : (t.write p bytes').isFile q = t.isFile q := by
  rw [isFile, isFile, get?_write h]
  by_cases hq : q = p
  · simp [hq, h]
  · simp [hq]

theorem read_write_self (h : t.get? p = some (.file bytes)) : (t.write p bytes').read p = .ok bytes' := by
  simp [read, get?_write h]

theorem read_write_other (h : t.get? p = some (.file bytes)) (hq : q ≠ p) : (t.write p bytes').read q = t.read q := by
  rw [read, read, get?_write h, if_neg hq]

/-- What is read is a file. -/
theorem get?_of_read (h : t.read p = .ok bytes) : t.get? p = some (.file bytes) := by
  unfold read at h
  split at h
  · next heq =>
    rw [heq, Except.ok.inj h]
  · cases h
  · cases h

/-! ## Paths -/

theorem step_write (h : t.get? p = some (.file bytes)) (q : Place) (name : String) :
    (t.write p bytes').step q name = t.step q name := by
  have hsome : ((t.write p bytes').get? (name :: q)).isSome = (t.get? (name :: q)).isSome := by
    rw [get?_write h]
    by_cases heq : name :: q = p
    · rw [if_pos heq, heq, h]
      rfl
    · rw [if_neg heq]
  rw [step, step, hsome, get?_write h]
  by_cases hq : q = p
  · -- a file is no directory, before and after
    simp [hq, h]
  · rw [if_neg hq]

/-- Paths lead where they led before. -/
theorem resolve_write (h : t.get? p = some (.file bytes)) (path : String) :
    (t.write p bytes').resolve path = t.resolve path := by
  have hstep : (t.write p bytes').step = t.step := funext fun q => funext fun name => step_write h q name
  rw [resolve, resolve, hstep]
  rfl

/-! ## The configuration -/

/-- The place of the configuration file in effect: the one that is asked for, or else the one found from a directory. -/
def configPlace? (t : Tree) (path start : Option String) : Option Place :=
  match path with
  | some path => (t.resolve path).toOption
  | none => (t.resolve (start.getD ".")).toOption.bind t.nearestConfig?

theorem configIn?_write (h : t.get? p = some (.file bytes)) (q : Place) :
    (t.write p bytes').configIn? q = t.configIn? q := by
  rw [configIn?, configIn?, show (t.write p bytes').isFile = t.isFile from funext (isFile_write h)]

/-- The search for a configuration goes by names only. -/
theorem nearestConfig?_write (h : t.get? p = some (.file bytes)) (q : Place) :
    (t.write p bytes').nearestConfig? q = t.nearestConfig? q := by
  induction q with
  | nil => exact configIn?_write h []
  | cons name q ih => rw [nearestConfig?, nearestConfig?, configIn?_write h, ih]

variable [Config.Reader]

theorem loadFile_write (h : t.get? p = some (.file bytes)) (hq : q ≠ p) (path : String) :
    (t.write p bytes').loadFile path q = t.loadFile path q := by
  rw [loadFile, loadFile, read_write_other h hq]

/-- **The same configuration is loaded** when another file has been written. -/
theorem loadConfig_write (h : t.get? p = some (.file bytes)) {path start : Option String}
    (hp : t.configPlace? path start ≠ some p) :
    (t.write p bytes').loadConfig path start = t.loadConfig path start := by
  cases path with
  | some path =>
    simp only [loadConfig, resolve_write h]
    cases hplace : t.resolve path with
    | error e => rfl
    | ok q =>
      have hq : q ≠ p := fun heq => hp (by simp [configPlace?, hplace, heq, Except.toOption])
      exact loadFile_write h hq path
  | none =>
    simp only [loadConfig, discover, resolve_write h]
    cases hplace : t.resolve (start.getD ".") with
    | error e => rfl
    | ok q =>
      simp only [nearestConfig?_write h]
      cases hfound : t.nearestConfig? q with
      | none => rfl
      | some c =>
        have hc : c ≠ p := fun heq => hp (by simp [configPlace?, hplace, hfound, heq, Except.toOption])
        exact loadFile_write h hc _

end Tree

end ScillaLayout
