import Reckoner.Proofs.Grammar.Exchange

/-!
# Brackets stand for a number

What is in brackets is a leaf, and after the closing bracket a reader is where it is after a number:
no tier sees what was inside. So brackets can be put in the place of any number, also where that
number is not taken or where the reader stops.

* `Derives.of_group`: a sentence whose tree is in brackets has these around all of its tokens.
* **`parse_brackets_as_number`**: a parse with brackets in the place of a number has the same
  outcome.
-/

namespace Reckoner

variable {tier : Tier} {depth : Nat} {ts p g s : List Token} {n : Token} {e inner : Expr}
  {value : Binary64}

/-- A sentence whose tree is in brackets starts with one bracket and ends with the other. -/
theorem Derives.of_group (h : Derives tier ts e) (he : e = .group inner) :
    ∃ t nested u, ts = t :: (nested ++ [u]) ∧ t.kind = .leftParen ∧
      Derives .additive nested inner ∧ u.kind = .rightParen := by
  induction h using Derives.rule_induction with
  | pass _ _ ih => exact ih he
  | binary | number | neg => cases he
  | group opening nested closing =>
    cases he
    exact ⟨_, _, _, rfl, opening, nested, closing⟩

/-- Brackets that are read by themselves are a leaf before any tokens, and no operator. -/
theorem Reads.leaf_of_group (h : Reads tier depth g (.group inner) []) (s : List Token) :
    Reads .leaf depth (g ++ s) (.group inner) s ∧ nextOperator (g ++ s) = none := by
  obtain ⟨t, nested, u, rfl, opening, hnested, closing⟩ := h.derives_all.of_group rfl
  constructor
  · have hleaf : Derives .leaf (t :: (nested ++ [u])) (.group inner) :=
      Derives.group opening hnested closing
    exact hleaf.reads h.greedy.1 (fun _ _ => rfl) h.nesting_le
  · change Operator.ofKind? t.kind = none
    rw [opening]
    rfl

/-- **Brackets behave like a number.** Let `g` be tokens that are parsed to brackets with nothing
left, and `n` a number that can be read. Unless one of them goes too deep, the parses of
`p ++ g ++ s` and of `p ++ [n] ++ s` give both a tree or both the same fault. If `n` is taken, the
brackets stand in its place in the tree, and else the trees are the same. How many tokens are taken,
or the index of the fault, is the same up to the number, and further on behind it. -/
theorem parse_brackets_as_number (hg : Expr.parse g = .ok ⟨.group inner, []⟩)
    (hn : n.kind = .number) (hv : Numeral.read? n.text = some value)
    (hnumber : Expr.parse (p ++ [n] ++ s) ≠ .error (.nestedTooDeeply (p ++ [n] ++ s)))
    (hbrackets : Expr.parse (p ++ g ++ s) ≠ .error (.nestedTooDeeply (p ++ g ++ s))) :
    (∃ e i, i ≤ (p ++ [n] ++ s).length ∧
        Expr.parse (p ++ [n] ++ s) = .ok ⟨e, (p ++ [n] ++ s).drop i⟩ ∧
        Expr.parse (p ++ g ++ s) =
          .ok ⟨if i ≤ p.length then e else e.replaceNumber p.length (.group inner) 0,
            (p ++ g ++ s).drop (if i ≤ p.length then i else i + (g.length - 1))⟩) ∨
      ∃ fault i, Expr.parse (p ++ [n] ++ s) = .error (.fault (p ++ [n] ++ s) i fault) ∧
        Expr.parse (p ++ g ++ s) =
          .error (.fault (p ++ g ++ s) (if i ≤ p.length then i else i + (g.length - 1)) fault) := by
  obtain ⟨hleaf, hnext⟩ := (parseWithin_eq_ok_iff.mp hg).leaf_of_group s
  simp only [List.append_assoc, List.singleton_append] at hnumber hbrackets ⊢
  exact parse_exchange hn hv hleaf (fun _ => hnext) hnumber hbrackets

/-- In `2 ^ 9 - 1 - 4`, the brackets `( 1 + 3 )` can stand for the 9, and the last minus is left. -/
theorem parse_brackets_as_number_power :
    let p : List Token := [⟨.number, "2"⟩, ⟨.power, "^"⟩]
    let g : List Token := [⟨.leftParen, "("⟩, ⟨.number, "1"⟩, ⟨.plus, "+"⟩, ⟨.number, "3"⟩,
      ⟨.rightParen, ")"⟩]
    let s : List Token := [⟨.minus, "-"⟩, ⟨.number, "1"⟩, ⟨.minus, "-"⟩, ⟨.number, "4"⟩]
    ∃ inner e, Expr.parse g = .ok ⟨.group inner, []⟩ ∧
      Expr.parse (p ++ [⟨.number, "9"⟩] ++ s) = .ok ⟨e, s.drop 2⟩ ∧
      Expr.parse (p ++ g ++ s) = .ok ⟨e.replaceNumber 2 (.group inner) 0, s.drop 2⟩ := by
  intro p g s
  let ts : List Token := [⟨.number, "2"⟩, ⟨.power, "^"⟩, ⟨.number, "9"⟩, ⟨.minus, "-"⟩,
    ⟨.number, "1"⟩, ⟨.minus, "-"⟩, ⟨.number, "4"⟩]
  obtain ⟨inner, hg⟩ : ∃ inner, Expr.parse g = .ok ⟨.group inner, []⟩ := ⟨_, rfl⟩
  obtain ⟨value, hv⟩ : ∃ value, Numeral.read? "9" = some value := ⟨_, rfl⟩
  obtain ⟨e, he⟩ : ∃ e, Expr.parse ts = .ok ⟨e, s.drop 2⟩ := ⟨_, rfl⟩
  rcases parse_brackets_as_number (p := p) (s := s) (n := ⟨.number, "9"⟩) hg rfl hv
      (parseWithin_ne_nestedTooDeeply (by decide) ts)
      (parseWithin_ne_nestedTooDeeply (by decide) _) with
    ⟨e', i, hi, hnumber, hbrackets⟩ | ⟨fault, i, hfault, -⟩
  · have heq := Except.ok.inj (he.symm.trans hnumber)
    obtain rfl : e = e' := congrArg Parsed.expr heq
    obtain rfl : i = 5 := by
      have hi : i ≤ 7 := hi
      have hlength : 2 = 7 - i :=
        (congrArg (List.length ∘ Parsed.ignored) heq).trans List.length_drop
      omega
    exact ⟨inner, e, hg, he, hbrackets⟩
  · cases he.symm.trans hfault

end Reckoner
