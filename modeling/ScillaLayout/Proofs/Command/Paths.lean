import ScillaLayout.Proofs.Command.Switches
import ScillaLayout.Project.Tree

/-!
# Paths and their directories

A path is followed name by name, and its directory by the names before the last one. Cut into names and joined again, a
path is the same path (`pathNames_intercalate`), so its directory is the place where its last name is looked up
(`Tree.resolve_pathDirectory`).
-/

namespace ScillaLayout

/-! ## Names -/

theorem splitChars_eq (sep : Char) (cs : List Char) : splitChars sep cs = cs.splitOn sep := by
  induction cs with
  | nil => rfl
  | cons c cs ih =>
    obtain ⟨word, words, hcs⟩ := List.exists_cons_of_ne_nil (List.splitOn_ne_nil sep cs)
    rw [splitChars, List.splitOn_cons_eq_if_modifyHead, ih]
    by_cases hc : c = sep <;> simp [hc, hcs]

/-- What a text is cut into does not contain the separator. -/
theorem not_mem_splitChars (sep : Char) (cs : List Char) : ∀ word ∈ splitChars sep cs, sep ∉ word := by
  induction cs with
  | nil => simp [splitChars]
  | cons c cs ih =>
    rw [splitChars]
    by_cases hc : c = sep
    · simpa [hc] using ih
    · cases hcs : splitChars sep cs with
      | nil => simp [Ne.symm hc, hc]
      | cons word words =>
        rw [hcs] at ih
        simpa [Ne.symm hc, hc] using ih

/-- A text starts with the separator if there is more than one word and the first is empty. -/
theorem head?_eq_sep_iff {sep : Char} {cs : List Char} :
    cs.head? = some sep ↔ (splitChars sep cs).head? = some [] ∧ (splitChars sep cs).length ≠ 1 := by
  cases cs with
  | nil => simp [splitChars]
  | cons c cs =>
    obtain ⟨word, words, hcs⟩ := List.exists_cons_of_ne_nil (splitChars_eq sep cs ▸ List.splitOn_ne_nil sep cs)
    rw [splitChars, hcs]
    by_cases hc : c = sep <;> simp [hc]

/-- Names joined by slashes are the names of the path. -/
theorem pathNames_intercalate {names : List String} (hne : names ≠ []) (path : String)
    (h : ∀ name ∈ names, name ∈ pathNames path) : pathNames ("/".intercalate names) = names := by
  have hslash : ∀ word ∈ names.map String.toList, '/' ∉ word := by
    simp only [List.mem_map, forall_exists_index, and_imp]
    rintro _ name hname rfl
    obtain ⟨word, hword, rfl⟩ := List.mem_map.1 (h name hname)
    simpa using not_mem_splitChars '/' path.toList word hword
  have hsep : "/".toList = ['/'] := rfl
  rw [pathNames, String.toList_intercalate, hsep, splitChars_eq,
    List.splitOn_intercalate '/' hslash (by simpa using hne)]
  simp

/-- A path that is one name does not say which directory the name is in. -/
theorem pathDirectory?_eq_none {path : String} (h : '/' ∉ path.toList) : pathDirectory? path = none := by
  have hnames : pathNames path = [path] := by
    rw [pathNames, splitChars_eq, List.splitOn_eq_singleton h]
    simp
  have hhead : path.toList.head? ≠ some '/' := fun hhead => h (List.mem_of_head? hhead)
  rw [pathDirectory?, hnames]
  cases hstays : staysThere path <;> simp [hstays, hhead]

theorem starts_with_slash_iff (path : String) :
    path.toList.head? = some '/' ↔ (pathNames path).head? = some "" ∧ (pathNames path).length ≠ 1 := by
  rw [head?_eq_sep_iff, pathNames, List.head?_map, List.length_map]
  cases (splitChars '/' path.toList).head? with
  | none => simp
  | some word => simp

/-! ## Directories -/

namespace Tree

variable {t : Tree} {p q : Place} {path : String}

/-- Names that stay at a place lead nowhere else. -/
theorem eq_of_foldlM_stays {names : List String} (hnames : ∀ name ∈ names, staysThere name = true)
    (h : names.foldlM t.step p = .ok q) : q = p := by
  induction names generalizing p with
  | nil => exact (Except.ok.inj h).symm
  | cons name names ih =>
    rw [List.foldlM_cons] at h
    obtain ⟨p₁, hstep, h⟩ := exists_of_bind h
    have hp₁ : p₁ = p := by
      unfold step at hstep
      split at hstep
      · rw [if_pos (hnames name List.mem_cons_self)] at hstep
        exact (Except.ok.inj hstep).symm
      · cases hstep
    rw [ih (fun n hn => hnames n (List.mem_cons_of_mem _ hn)) h, hp₁]

/-- A proper name leads from a directory to what has that name there. -/
theorem eq_cons_of_step {name : String} (hstays : staysThere name = false) (hup : name ≠ "..")
    (h : t.step p name = .ok q) : q = name :: p ∧ t.get? p = some .directory := by
  unfold step at h
  split at h
  · next hdir =>
    rw [if_neg (by simp [hstays]), if_neg hup] at h
    split at h
    · exact ⟨(Except.ok.inj h).symm, hdir⟩
    · cases h
  · cases h

theorem exists_pathNames (path : String) : ∃ names name, pathNames path = names ++ [name] := by
  have hne : pathNames path ≠ [] := by simp [pathNames, splitChars_eq]
  obtain hnil | ⟨names, name, hnames⟩ := List.eq_nil_or_concat (pathNames path)
  · exact absurd hnil hne
  · exact ⟨names, name, hnames.trans (List.concat_eq_append ..)⟩

theorem resolve_home (h : t.get? t.home = some .directory) : t.resolve "." = .ok t.home := by
  have hstep : t.step t.home "." = .ok t.home := by simp [step, h, staysThere]
  show [("." : String)].foldlM t.step t.home = .ok t.home
  rw [List.foldlM_cons, hstep]
  rfl

theorem resolve_root (h : t.get? [] = some .directory) : t.resolve "/" = .ok [] := by
  have hstep : t.step [] "" = .ok [] := by simp [step, h, staysThere]
  show ["", ""].foldlM t.step [] = .ok []
  rw [List.foldlM_cons, hstep]
  show [""].foldlM t.step [] = .ok []
  rw [List.foldlM_cons, hstep]
  rfl

/-- Names at the end of a path that stay where they are can be left out. -/
theorem exists_directory (names : List String) : ∃ dir stays, names = dir ++ stays ∧
    names.reverse.dropWhile staysThere = dir.reverse ∧ (∀ name ∈ stays, staysThere name = true) ∧
    ∀ last ∈ dir.getLast?, staysThere last = false := by
  refine ⟨(names.reverse.dropWhile staysThere).reverse, (names.reverse.takeWhile staysThere).reverse, ?_, ?_, ?_, ?_⟩
  · rw [← List.reverse_append, List.takeWhile_append_dropWhile, List.reverse_reverse]
  · rw [List.reverse_reverse]
  · intro name hname
    exact List.all_eq_true.1 List.all_takeWhile name (List.mem_reverse.1 hname)
  · intro last hlast
    rw [List.getLast?_reverse] at hlast
    have hhead := List.head?_dropWhile_not staysThere names.reverse
    rw [Option.mem_def.1 hlast] at hhead
    exact hhead

/-- A path that is cut behind one of its directories starts where it started. -/
theorem resolve_intercalate {dir rest : List String} (hnames : pathNames path = dir ++ rest) (hne : dir ≠ [])
    (hrest : rest ≠ []) (hlast : ∀ last ∈ dir.getLast?, staysThere last = false) :
    t.resolve ("/".intercalate dir) = dir.foldlM t.step (if path.toList.head? = some '/' then [] else t.home) := by
  have hdir : pathNames ("/".intercalate dir) = dir :=
    pathNames_intercalate hne path fun name hname => hnames ▸ List.mem_append_left _ hname
  have hone : dir ≠ [""] := by
    rintro rfl
    have := hlast "" rfl
    simp [staysThere] at this
  have hempty : ¬("/".intercalate dir).isEmpty = true := by
    intro h
    rw [String.isEmpty_iff] at h
    rw [h] at hdir
    exact hone hdir.symm
  have hslash : ("/".intercalate dir).toList.head? = some '/' ↔ path.toList.head? = some '/' := by
    rw [starts_with_slash_iff, starts_with_slash_iff, hdir, hnames]
    cases dir with
    | nil => exact absurd rfl hne
    | cons first dir =>
      have hlen := List.length_pos_iff.2 hrest
      simp only [List.head?_cons, List.cons_append, Option.some.injEq, List.length_cons, List.length_append]
      refine and_congr_right fun hfirst => iff_of_true ?_ (by omega)
      subst hfirst
      intro hnil
      exact hone (by rw [List.length_eq_zero_iff.1 (by omega : dir.length = 0)])
  rw [resolve, if_neg hempty, hdir]
  simp only [hslash]

/-- **The directory of a path** is where its last name is looked up. -/
theorem resolve_pathDirectory (h : t.resolve path = .ok p)
    (hlast : ∀ name ∈ (pathNames path).getLast?, name ∉ ["", ".", ".."]) :
    t.resolve ((pathDirectory? path).getD ".") = .ok p.tail := by
  obtain ⟨names, name, hnames⟩ := exists_pathNames path
  have hname : staysThere name = false ∧ name ≠ ".." := by
    have hproper := hlast name (by simp [hnames])
    simp only [List.mem_cons, List.not_mem_nil, or_false, not_or] at hproper
    simp [staysThere, hproper]
  obtain ⟨dir, stays, rfl, hdrop, hstays, hproper⟩ := exists_directory names
  -- the place behind the directory, and the last step from there
  obtain ⟨q, hq, hentry, rfl⟩ : ∃ q, dir.foldlM t.step (if path.toList.head? = some '/' then [] else t.home) = .ok q ∧
      t.get? q = some .directory ∧ p = name :: q := by
    unfold resolve at h
    split at h
    · cases h
    rw [hnames, List.append_assoc, List.foldlM_append] at h
    obtain ⟨q, hq, h⟩ := exists_of_bind h
    rw [List.foldlM_append] at h
    obtain ⟨q₁, hq₁, h⟩ := exists_of_bind h
    rw [List.foldlM_cons] at h
    obtain ⟨p₁, hstep, h⟩ := exists_of_bind h
    obtain rfl : p₁ = p := Except.ok.inj h
    obtain rfl := eq_of_foldlM_stays hstays hq₁
    obtain ⟨rfl, hentry⟩ := eq_cons_of_step hname.1 hname.2 hstep
    exact ⟨q₁, hq, hentry, rfl⟩
  have habove : (pathNames path).reverse.dropWhile staysThere = name :: (dir ++ stays).reverse := by
    rw [hnames, List.reverse_append, List.reverse_singleton, List.singleton_append,
      List.dropWhile_cons_of_neg (by simp [hname.1])]
  simp only [pathDirectory?, habove, hdrop, List.tail_cons]
  by_cases hnil : dir = []
  · subst hnil
    have hroot := Except.ok.inj hq
    by_cases hslash : path.toList.head? = some '/'
    · rw [if_pos hslash] at hroot
      subst hroot
      simpa [hslash] using resolve_root hentry
    · rw [if_neg hslash] at hroot
      subst hroot
      simpa [hslash] using resolve_home hentry
  · have hdir := resolve_intercalate (t := t) (hnames.trans (List.append_assoc ..)) hnil (by simp) hproper
    rw [hq] at hdir
    obtain ⟨last, above, hrev⟩ := List.exists_cons_of_ne_nil (mt List.reverse_eq_nil_iff.1 hnil)
    simp only [hrev, Option.getD_some]
    rw [← hrev, List.reverse_reverse]
    exact hdir

end Tree

end ScillaLayout
