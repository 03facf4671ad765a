import ScillaLayout.Proofs.Lexing.Lossless

/-!
# Reading is local

Where a token ends and of which kind it is depends on its own text and on the token behind it alone. So texts are the
tokens of what they make up together exactly if each of them alone is one token and each two neighbours are two
(`tokenize_local`).

The tokens of a source are its chain (`tokensOf_iff_chain`). Neighbours in a chain form a chain, and a chain grows from
neighbours (`IsChain.cons_of_pair`), because only the first character behind a token can extend it.
-/

namespace ScillaLayout

open Lexeme (stops_nil)

/-! ## Chains from neighbours -/

/-- A chain grows by a text that forms a chain with its head. -/
theorem IsChain.cons_of_pair {k l l' : Kind} {x y : String} {xs : List (Kind × String)}
    (h : IsChain [(k, x), (l, y)]) (hchain : IsChain ((l', y) :: xs)) : IsChain ((k, x) :: (l', y) :: xs) := by
  obtain ⟨hspell, hstop, -⟩ := h
  refine ⟨hspell, ?_, hchain⟩
  rw [chainText_cons, chainText_nil, List.append_nil] at hstop
  exact hstop.append hchain.1.ne_nil _

/-! ## The tokens of a source -/

/-- The source `s` is read without an error as the tokens `ts` and then the end mark. -/
def TokensOf (s : String) (ts : List Token) : Prop :=
  ∃ mark : Token, mark.kind = .eof ∧ tokenize s = (ts ++ [mark], none)

/-- The source `s` is read without an error, and `xs` are the texts of its tokens before the end mark. -/
def TextsOf (s : String) (xs : List String) : Prop := ∃ ts, TokensOf s ts ∧ ts.map (·.text) = xs

/-- The tokens of a source are the chain that makes it up. -/
theorem tokensOf_iff_chain {s : String} {xs : List (Kind × String)} :
    (∃ ts, TokensOf s ts ∧ ts.map Token.key = xs) ↔ chainText xs = s.toList ∧ IsChain xs := by
  obtain ⟨ts, last, l, hrun⟩ := Lexing.exists_run (l := Lexing.ofSource s) rfl
  have htokenize : tokenize s = (ts ++ [last], l.error?) := by rw [tokenize, hrun.exhausts.collect]
  constructor
  · rintro ⟨ts', ⟨mark, hmark, hread⟩, rfl⟩
    obtain ⟨htokens, herror⟩ := Prod.mk.inj (hread.symm.trans htokenize)
    obtain ⟨rfl, -⟩ := List.append_inj' htokens rfl
    obtain ⟨-, -, hempty, hrest, -⟩ | ⟨-, -, e, herror', -⟩ := hrun.ending
    · have htext : _ = s.toList := hrun.text
      exact ⟨by simpa [hempty, hrest] using htext, hrun.chain⟩
    · exact absurd (herror.trans herror') (by simp)
  · intro hchain
    obtain ⟨hfault, hkeys⟩ := Lexed.read_eq_chain_iff.2 hchain
    obtain ⟨-, hkind, -, -, herror, -⟩ | ⟨hfault', -⟩ := hrun.ending
    · rw [show (Lexed.read .start s.toList).tokens = ts ++ [last] from hrun.tokens, List.map_append] at hkeys
      exact ⟨ts, ⟨last, hkind, by rw [htokenize, herror]; rfl⟩, (List.append_inj' hkeys rfl).1⟩
    · exact absurd hfault hfault'

theorem toList_join (xs : List (Kind × String)) : (String.join (xs.map (·.2))).toList = chainText xs := by
  induction xs with
  | nil => rfl
  | cons x xs ih => simp [String.join_cons, ih]

/-- Texts are the tokens of what they make up if they are the texts of a chain. -/
theorem textsOf_join_iff (xs : List String) :
    TextsOf (String.join xs) xs ↔ ∃ ks, ks.map (·.2) = xs ∧ IsChain ks := by
  constructor
  · rintro ⟨ts, hts, rfl⟩
    obtain ⟨-, hchain⟩ := tokensOf_iff_chain.1 ⟨ts, hts, rfl⟩
    exact ⟨ts.map Token.key, by simp [Token.key], hchain⟩
  · rintro ⟨ks, rfl, hchain⟩
    obtain ⟨ts, hts, rfl⟩ := tokensOf_iff_chain.2 ⟨(toList_join ks).symm, hchain⟩
    exact ⟨ts, hts, by simp [Token.key]⟩

theorem textsOf_singleton_iff {x : String} : TextsOf x [x] ↔ ∃ k, IsChain [(k, x)] := by
  have hjoin := textsOf_join_iff [x]
  rw [String.join_cons, String.join_nil, String.append_empty] at hjoin
  rw [hjoin]
  constructor
  · rintro ⟨ks, hks, hchain⟩
    obtain ⟨⟨k, y⟩, rfl, rfl⟩ := List.map_eq_singleton_iff.1 hks
    exact ⟨k, hchain⟩
  · rintro ⟨k, hchain⟩
    exact ⟨[(k, x)], rfl, hchain⟩

theorem textsOf_pair_iff {x y : String} : TextsOf (x ++ y) [x, y] ↔ ∃ k l, IsChain [(k, x), (l, y)] := by
  have hjoin := textsOf_join_iff [x, y]
  rw [String.join_cons, String.join_cons, String.join_nil, String.append_empty] at hjoin
  rw [hjoin]
  constructor
  · rintro ⟨ks, hks, hchain⟩
    obtain ⟨⟨k, x'⟩, ks', rfl, rfl, hrest⟩ := List.map_eq_cons_iff.1 hks
    obtain ⟨⟨l, y'⟩, rfl, rfl⟩ := List.map_eq_singleton_iff.1 hrest
    exact ⟨k, l, hchain⟩
  · rintro ⟨k, l, hchain⟩
    exact ⟨[(k, x), (l, y)], rfl, hchain⟩

/-- Texts that are tokens alone and next to each other are the texts of a chain. -/
theorem exists_chain_of_neighbours {xs : List String} (hone : ∀ x ∈ xs, TextsOf x [x])
    (htwo : ∀ x y, [x, y] <:+: xs → TextsOf (x ++ y) [x, y]) : ∃ ks, ks.map (·.2) = xs ∧ IsChain ks := by
  induction xs with
  | nil => exact ⟨[], rfl, trivial⟩
  | cons x xs ih =>
    obtain ⟨ks, hks, hchain⟩ := ih (fun y hy => hone y (List.mem_cons_of_mem _ hy))
      fun y z hyz => htwo y z (List.infix_cons hyz)
    cases ks with
    | nil =>
      obtain ⟨k, hk⟩ := textsOf_singleton_iff.1 (hone x List.mem_cons_self)
      exact ⟨[(k, x)], by simp [← hks], hk⟩
    | cons l ks =>
      obtain ⟨l', y⟩ := l
      have hinfix : [x, y] <:+: x :: xs := ⟨[], ks.map (·.2), by rw [← hks]; rfl⟩
      obtain ⟨k, l, hpair⟩ := textsOf_pair_iff.1 (htwo x y hinfix)
      exact ⟨(k, x) :: (l', y) :: ks, by rw [List.map_cons, hks], hpair.cons_of_pair hchain⟩

/-- **Reading is local.** Texts are the tokens of what they make up together exactly if each of them alone is one token
and each two neighbours are two. The tokens are then of the same kinds as alone. -/
theorem tokenize_local (xs : List String) :
    (TextsOf (String.join xs) xs ↔
      (∀ x ∈ xs, TextsOf x [x]) ∧ ∀ x y, [x, y] <:+: xs → TextsOf (x ++ y) [x, y]) ∧
    ∀ ts, TokensOf (String.join xs) ts → ts.map (·.text) = xs →
      ∀ t ∈ ts, ∃ u, TokensOf t.text [u] ∧ u.text = t.text ∧ u.kind = t.kind := by
  refine ⟨⟨fun h => ?_, fun ⟨hone, htwo⟩ => (textsOf_join_iff xs).2 (exists_chain_of_neighbours hone htwo)⟩, ?_⟩
  · obtain ⟨ks, rfl, hchain⟩ := (textsOf_join_iff xs).1 h
    constructor
    · intro x hx
      obtain ⟨k, hk, rfl⟩ := List.mem_map.1 hx
      exact textsOf_singleton_iff.2 ⟨k.1, hchain.spells k hk, stops_nil _, trivial⟩
    · rintro x y ⟨before, behind, hsplit⟩
      obtain ⟨ks', ks₃, rfl, hks', -⟩ := List.map_eq_append_iff.1 hsplit.symm
      obtain ⟨ks₁, ks₂, rfl, -, hpair⟩ := List.map_eq_append_iff.1 hks'
      have htexts := (textsOf_join_iff [x, y]).2 ⟨ks₂, hpair, hchain.left.right⟩
      simpa [String.join_cons] using htexts
  · intro ts hts htexts t ht
    obtain ⟨-, hchain⟩ := tokensOf_iff_chain.1 ⟨ts, hts, rfl⟩
    have hspell : t.kind.Spells t.text.toList := hchain.spells _ (List.mem_map_of_mem ht)
    obtain ⟨us, hus, hkeys⟩ := tokensOf_iff_chain.2
      (show chainText [t.key] = t.text.toList ∧ IsChain [t.key] from
        ⟨by simp [Token.key], hspell, stops_nil _, trivial⟩)
    obtain ⟨u, rfl, hkey⟩ := List.map_eq_singleton_iff.1 hkeys
    exact ⟨u, hus, congrArg Prod.snd hkey, congrArg Prod.fst hkey⟩

end ScillaLayout
