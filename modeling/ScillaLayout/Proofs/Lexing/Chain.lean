import ScillaLayout.Proofs.Lexing.Reading

/-!
# The tokens of a text

A list of kinds and texts is a chain when every text spells its kind and is not extended by the character behind it.
Reading a text without a fault gives the one chain that makes it up, with the end mark behind
(`Lexed.read_eq_chain_iff`). So a text that is put together from a chain is read as that chain.
-/

namespace ScillaLayout

/-- What a token is and how it is written, without its place. -/
def Token.key (t : Token) : Kind × String := (t.kind, t.text)

/-! ## Chains -/

/-- The characters of a list of kinds and texts. -/
def chainText (xs : List (Kind × String)) : List Char := xs.flatMap (·.2.toList)

@[simp] theorem chainText_nil : chainText [] = [] := rfl

@[simp] theorem chainText_cons (x : Kind × String) (xs : List (Kind × String)) :
    chainText (x :: xs) = x.2.toList ++ chainText xs := rfl

@[simp] theorem chainText_append (xs ys : List (Kind × String)) :
    chainText (xs ++ ys) = chainText xs ++ chainText ys := List.flatMap_append

namespace Token

@[simp] theorem renderAll_nil : renderAll [] = "" := rfl

@[simp] theorem renderAll_cons (t : Token) (ts : List Token) : renderAll (t :: ts) = t.text ++ renderAll ts := by
  simp [renderAll, String.join_cons]

@[simp] theorem renderAll_append (ts us : List Token) : renderAll (ts ++ us) = renderAll ts ++ renderAll us := by
  simp [renderAll, String.join_append]

theorem toList_renderAll (ts : List Token) : (renderAll ts).toList = chainText (ts.map key) := by
  induction ts with
  | nil => rfl
  | cons t ts ih => simp [ih, key]

end Token

/-- Every text spells its kind, and what follows does not extend it. -/
def IsChain : List (Kind × String) → Prop
  | [] => True
  | (k, x) :: xs => k.Spells x.toList ∧ Lexeme.Stops (k.extendedBy x.toList) (chainText xs) ∧ IsChain xs

theorem isChain_cons {x : Kind × String} {xs : List (Kind × String)} : IsChain (x :: xs) ↔
    x.1.Spells x.2.toList ∧ Lexeme.Stops (x.1.extendedBy x.2.toList) (chainText xs) ∧ IsChain xs := Iff.rfl

namespace Lexed

/-- The end mark, without its place. -/
def endKey : Kind × String := (.eof, "")

theorem read_cons_ok {c : Char} {cs x rest : List Char} {k : Kind} (h : Lexeme.read c cs = ⟨.ok k, x, rest⟩)
    (p : Position) : read p (c :: cs) =
      cons ⟨k, String.ofList x, some ⟨p, p.after x⟩⟩ (read (p.after x) rest) := by
  rw [read]
  simp only [h]

theorem read_cons_error {c : Char} {cs x rest : List Char} {fault : LexFault}
    (h : Lexeme.read c cs = ⟨.error fault, x, rest⟩) (p : Position) : (read p (c :: cs)).fault ≠ none := by
  rw [read]
  simp [h]

/-- A chain is read back. -/
theorem read_chainText {xs : List (Kind × String)} (h : IsChain xs) (p : Position) :
    (read p (chainText xs)).fault = none ∧ (read p (chainText xs)).tokens.map Token.key = xs ++ [endKey] := by
  induction xs generalizing p with
  | nil => simp [read, Token.key, endKey]
  | cons x xs ih =>
    obtain ⟨k, x⟩ := x
    obtain ⟨hspell, hstop, hchain⟩ := h
    obtain ⟨c, cs, hx, hread⟩ := Lexeme.read_of_spells hspell hstop
    rw [chainText_cons, hx, List.cons_append, read_cons_ok hread]
    obtain ⟨hfault, hkeys⟩ := ih hchain (p.after x.toList)
    exact ⟨hfault, by simp [cons, Token.key, hkeys]⟩

/-- What is read without a fault is a chain. -/
theorem chain_of_read {p : Position} {cs : List Char} (h : (read p cs).fault = none) :
    ∃ xs, chainText xs = cs ∧ IsChain xs ∧ (read p cs).tokens.map Token.key = xs ++ [endKey] := by
  induction hn : cs.length using Nat.strongRecOn generalizing p cs with
  | ind n ih =>
    cases cs with
    | nil => exact ⟨[], rfl, trivial, by simp [read, Token.key, endKey]⟩
    | cons c cs =>
      rcases hpiece : Lexeme.read c cs with ⟨verdict, x, rest⟩
      cases verdict with
      | error fault => exact absurd h (read_cons_error hpiece p)
      | ok k =>
        obtain ⟨hcut, hspell, hstop⟩ := Lexeme.read_eq_ok_iff.1 hpiece
        have hlt : rest.length < n := by
          have hshort := Lexeme.read_rest_length_lt c cs
          rw [hpiece, hn] at hshort
          exact hshort
        rw [read_cons_ok hpiece] at h ⊢
        obtain ⟨xs, htext, hchain, hkeys⟩ := ih _ hlt h rfl
        refine ⟨(k, String.ofList x) :: xs, by simp [htext, hcut], ⟨?_, ?_, hchain⟩, by simp [cons, Token.key, hkeys]⟩
        · simpa using hspell
        · simpa [htext] using hstop

/-- **Reading finds the chain of a text**, and only that. -/
theorem read_eq_chain_iff {p : Position} {cs : List Char} {xs : List (Kind × String)} :
    ((read p cs).fault = none ∧ (read p cs).tokens.map Token.key = xs ++ [endKey]) ↔
      chainText xs = cs ∧ IsChain xs := by
  constructor
  · rintro ⟨hfault, hkeys⟩
    obtain ⟨ys, htext, hchain, hkeys'⟩ := chain_of_read hfault
    obtain rfl : xs = ys := List.append_cancel_right (hkeys.symm.trans hkeys')
    exact ⟨htext, hchain⟩
  · rintro ⟨rfl, hchain⟩
    exact read_chainText hchain p

end Lexed

end ScillaLayout
