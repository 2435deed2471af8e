import Reckoner.Proofs.Grammar.Alike

/-!
# A parse sees kinds and values

Of a token a parse sees the kind and, if it is a number, the value. So tokens of the same kinds have
the same outcome, with other numbers in the tree. A number that cannot be read is like any other
until the parse comes to it, and there the parse stops. It does not come to those behind the place
where it would end anyway, and they do no harm.

* `parse_alike`: the parse of the second of two lists, from that of the first.
* **`parse_by_kinds_and_values`**: lists of the same kinds, and lists with numbers that cannot be
  read.
-/

namespace Reckoner

variable {R : Binary64 → Binary64 → Prop} {n : Nat} {ts us rest : List Token} {e : Expr}
  {fault : Fault}

/-- The index at which a parse ends: behind the tokens that it takes, or at its fault. -/
def Expr.parseEnd (ts : List Token) : Nat :=
  match Expr.parse ts with
  | .ok p => ts.length - p.ignored.length
  | .error e => e.index

/-- The parses give trees that differ in their numbers only and take as many tokens, or have one
fault at one index, or both go too deep. -/
def SameOutcome (R : Binary64 → Binary64 → Prop) (ts us : List Token) : Prop :=
  (∃ e e' i, i ≤ ts.length ∧ Expr.parse ts = .ok ⟨e, ts.drop i⟩ ∧
      Expr.parse us = .ok ⟨e', us.drop i⟩ ∧ e.Like R e') ∨
    (∃ fault i, Expr.parse ts = .error (.fault ts i fault) ∧
      Expr.parse us = .error (.fault us i fault)) ∨
    Expr.parse ts = .error (.nestedTooDeeply ts) ∧ Expr.parse us = .error (.nestedTooDeeply us)

/-- There is no number that cannot be read before the index. -/
def AllReadBefore (us : List Token) (i : Nat) : Prop := ∀ k < i, ∀ u ∈ us[k]?, ¬u.IsRejected

theorem allReadBefore_append {seen : List Token} (h : ∀ t ∈ seen, ¬t.IsRejected)
    (rest : List Token) : AllReadBefore (seen ++ rest) seen.length := by
  intro k hk u hu
  rw [List.getElem?_append_left hk] at hu
  exact h u (List.mem_of_getElem? hu)

theorem Reads.parseEnd_eq (h : Reads .additive Expr.depthLimit ts e rest) :
    Expr.parseEnd ts = ts.length - rest.length := by
  have hparse : Expr.parse ts = .ok ⟨e, rest⟩ := parseWithin_eq_ok_iff.mpr h
  rw [Expr.parseEnd, hparse]

theorem Stops.parse_error (h : Stops .additive Expr.depthLimit ts fault rest) :
    Expr.parse ts = .error (.fault ts (ts.length - rest.length) fault) :=
  parseWithin_eq_fault_iff.mpr ⟨rfl, rest, rfl, h⟩

theorem Stops.parseEnd_eq (h : Stops .additive Expr.depthLimit ts fault rest) :
    Expr.parseEnd ts = ts.length - rest.length := by
  rw [Expr.parseEnd, h.parse_error]
  rfl

/-- A parse that stops at a number that cannot be read stops at the first one. -/
theorem StopsAtRejected.parse_eq (h : StopsAtRejected .additive Expr.depthLimit us n) :
    ∃ j u, j < us.length - n ∧ us[j]? = some u ∧ u.IsRejected ∧ AllReadBefore us j ∧
      Expr.parse us = .error (.fault us j (.malformedNumber u.text)) := by
  obtain ⟨u, rest, hs, hu, hn⟩ := h
  have hparse := hs.parse_error
  obtain ⟨seen, rfl, hseen⟩ := hs.not_isRejected
  have hlength : (seen ++ u :: rest).length - (u :: rest).length = seen.length := by
    rw [List.length_append, Nat.add_sub_cancel]
  rw [hlength] at hparse
  refine ⟨seen.length, u, ?_, by simp, hu, allReadBefore_append hseen _, hparse⟩
  rw [List.length_append, List.length_cons]
  omega

/-- **The parse of the second list**, if that of the first does not go too deep. It has the same
outcome and takes no number that cannot be read, or it stops at the first such number, which the
parse of the first list has taken. -/
theorem parse_alike (h : StandFor R ts us)
    (hdeep : Expr.parse ts ≠ .error (.nestedTooDeeply ts)) :
    (SameOutcome R ts us ∧ AllReadBefore us (Expr.parseEnd ts)) ∨
      ∃ j u, j < Expr.parseEnd ts ∧ us[j]? = some u ∧ u.IsRejected ∧ AllReadBefore us j ∧
        Expr.parse us = .error (.fault us j (.malformedNumber u.text)) := by
  have hlength := h.length_eq
  rcases reads_or_stops_of_parseWithin hdeep with ⟨e, rest, hr⟩ | ⟨fault, rest, hs⟩
  · rw [hr.parseEnd_eq, hlength]
    rcases hr.alike h with ⟨e', rest', hr', he, hrest⟩ | hrejected
    · have hrest := hrest.length_eq
      refine Or.inl ⟨Or.inl ⟨e, e', ts.length - rest.length, Nat.sub_le _ _, ?_, ?_, he⟩, ?_⟩
      · rw [← hr.rest_eq_drop]
        exact parseWithin_eq_ok_iff.mpr hr
      · rw [hlength, hrest, ← hr'.rest_eq_drop]
        exact parseWithin_eq_ok_iff.mpr hr'
      · obtain ⟨taken, rfl, hd⟩ := hr'.derives
        have htaken := allReadBefore_append hd.not_isRejected rest'
        rwa [hrest, List.length_append, Nat.add_sub_cancel]
    · exact Or.inr hrejected.parse_eq
  · rw [hs.parseEnd_eq, hlength]
    rcases hs.alike h with ⟨rest', hs', hrest⟩ | hrejected
    · have hrest := hrest.length_eq
      refine Or.inl ⟨Or.inr (Or.inl ⟨fault, ts.length - rest.length, hs.parse_error, ?_⟩), ?_⟩
      · rw [hlength, hrest]
        exact hs'.parse_error
      · obtain ⟨seen, rfl, hseen⟩ := hs'.not_isRejected
        have hbefore := allReadBefore_append hseen rest'
        rwa [hrest, List.length_append, Nat.add_sub_cancel]
    · exact Or.inr hrejected.parse_eq

/-- Where the first list is not parsed too deep, the second is not. -/
theorem StandFor.parse_ne_nestedTooDeeply (h : StandFor R ts us)
    (hdeep : Expr.parse ts ≠ .error (.nestedTooDeeply ts)) :
    Expr.parse us ≠ .error (.nestedTooDeeply us) := by
  intro hus
  rcases parse_alike h hdeep with ⟨hsame, -⟩ | ⟨j, u, -, -, -, -, hparse⟩
  · rcases hsame with ⟨e, e', i, -, -, hparse, -⟩ | ⟨fault, i, -, hparse⟩ | ⟨hts, -⟩
    · cases hus.symm.trans hparse
    · cases hus.symm.trans hparse
    · exact hdeep hts
  · cases hus.symm.trans hparse

theorem not_isRejected_of_like (h : List.Forall₂ (Token.Like R) ts us) :
    ∀ u ∈ us, ¬u.IsRejected := by
  induction h with
  | nil => exact fun u hu => absurd hu List.not_mem_nil
  | cons ht _ ih => exact List.forall_mem_cons.mpr ⟨ht.not_isRejected, ih⟩

/-- Lists of the same kinds, with numbers that can be read, have the same outcome. -/
theorem sameOutcome_of_like (h : List.Forall₂ (Token.Like R) ts us) : SameOutcome R ts us := by
  have hstand : StandFor R ts us := h.imp fun _ _ => Token.Like.standsFor
  have hback : StandFor (flip R) us ts := (h.imp fun _ _ ht => ht.symm.standsFor).flip
  by_cases hdeep : Expr.parse ts = .error (.nestedTooDeeply ts)
  · refine Or.inr (Or.inr ⟨hdeep, ?_⟩)
    by_contra hus
    exact hback.parse_ne_nestedTooDeeply hus hdeep
  · rcases parse_alike hstand hdeep with ⟨hsame, -⟩ | ⟨j, u, -, hu, hr, -⟩
    · exact hsame
    · exact absurd hr (not_isRejected_of_like h u (List.mem_of_getElem? hu))

/-- **A parse depends on kinds, and on numbers only through their values.** Lists with the same kind
at every position, all of whose numbers can be read, have the same outcome up to the numbers in the
trees, and these are related as the values of the tokens are, by whatever relation. For a list with
numbers that cannot be read, take the list with `1` in their place: if one of them is before the end
of the parse of that list, the parse stops at the first of them, and else it has the outcome of that
parse. -/
theorem parse_by_kinds_and_values :
    (∀ (R : Binary64 → Binary64 → Prop) (ts us : List Token),
        List.Forall₂ (Token.Like R) ts us → SameOutcome R ts us) ∧
      ∀ ts : List Token,
        let mended := ts.map Token.mended
        Expr.parse mended ≠ .error (.nestedTooDeeply mended) →
          ((∃ j < Expr.parseEnd mended, ∃ u ∈ ts[j]?, u.IsRejected) →
            ∃ j u, j < Expr.parseEnd mended ∧ ts[j]? = some u ∧ u.IsRejected ∧
              (∀ k < j, ∀ v ∈ ts[k]?, ¬v.IsRejected) ∧
              Expr.parse ts = .error (.fault ts j (.malformedNumber u.text))) ∧
          ((∀ j < Expr.parseEnd mended, ∀ u ∈ ts[j]?, ¬u.IsRejected) →
            (∃ e i, i ≤ ts.length ∧ Expr.parse mended = .ok ⟨e, mended.drop i⟩ ∧
                Expr.parse ts = .ok ⟨e, ts.drop i⟩) ∨
              ∃ fault i, Expr.parse mended = .error (.fault mended i fault) ∧
                Expr.parse ts = .error (.fault ts i fault)) := by
  refine ⟨fun R ts us => sameOutcome_of_like, fun ts => ?_⟩
  intro mended hdeep
  have hstand : StandFor Eq mended ts :=
    List.forall₂_map_left_iff.mpr (List.forall₂_same.mpr fun t _ => t.mended_standsFor)
  rcases parse_alike hstand hdeep with ⟨hsame, hbefore⟩ | hrejected
  · refine ⟨?_, fun _ => ?_⟩
    · rintro ⟨j, hj, u, hu, hr⟩
      exact absurd hr (hbefore j hj u hu)
    · rcases hsame with ⟨e, e', i, hi, hmended, hts, he⟩ | hfault | ⟨hmended, -⟩
      · obtain rfl := Expr.like_eq_iff.mp he
        rw [hstand.length_eq] at hi
        exact Or.inl ⟨e, i, hi, hmended, hts⟩
      · exact Or.inr hfault
      · exact absurd hmended hdeep
  · refine ⟨fun _ => hrejected, fun hnone => ?_⟩
    obtain ⟨j, u, hj, hu, hr, -⟩ := hrejected
    exact absurd hr (hnone j hj u hu)

/-- `1..2` cannot be read. In `1 + 1..2 + 3` the parse comes to it, and in `1 + + 1..2` there is a
fault before it. The text of a minus does not matter. -/
theorem parse_by_kinds_and_values_points :
    let early : List Token :=
      [⟨.number, "1"⟩, ⟨.plus, "+"⟩, ⟨.number, "1..2"⟩, ⟨.plus, "+"⟩, ⟨.number, "3"⟩]
    let late : List Token := [⟨.number, "1"⟩, ⟨.plus, "+"⟩, ⟨.plus, "+"⟩, ⟨.number, "1..2"⟩]
    Expr.parse early = .error (.fault early 2 (.malformedNumber "1..2")) ∧
      Expr.parse late = .error (.fault late 2 (.missingOperand .add (some .plus))) ∧
      SameOutcome Eq [⟨.minus, "-"⟩, ⟨.number, "7"⟩] [⟨.minus, "less"⟩, ⟨.number, "7."⟩] := by
  intro early late
  obtain ⟨hlike, hstop⟩ := parse_by_kinds_and_values
  have hdeep : ∀ us : List Token, us.length ≤ 5 → Expr.parse us ≠ .error (.nestedTooDeeply us) :=
    fun us hus =>
      parseWithin_ne_nestedTooDeeply (Nat.le_trans (Nat.mul_le_mul_left 8 hus) (by decide)) us
  refine ⟨?_, ?_, hlike Eq _ _ (.cons ?_ (.cons ?_ .nil))⟩
  · have hend : Expr.parseEnd (early.map Token.mended) = 3 := rfl
    have hread : ∀ k < 2, ∀ v ∈ early[k]?, ¬v.IsRejected := by decide
    obtain ⟨hbefore, -⟩ := hstop early (hdeep _ (by decide))
    rw [hend] at hbefore
    obtain ⟨j, u, hj, hu, hr, -, hparse⟩ :=
      hbefore ⟨2, by decide, ⟨.number, "1..2"⟩, rfl, by decide⟩
    obtain rfl : j = 2 :=
      Nat.le_antisymm (Nat.le_of_lt_succ hj) (Nat.le_of_not_lt fun hlt => hread j hlt u hu hr)
    cases hu
    exact hparse
  · have hend : Expr.parseEnd (late.map Token.mended) = 2 := rfl
    have hmended : Expr.parse (late.map Token.mended) =
        .error (.fault (late.map Token.mended) 2 (.missingOperand .add (some .plus))) := rfl
    obtain ⟨-, hnone⟩ := hstop late (hdeep _ (by decide))
    rw [hend, hmended] at hnone
    rcases hnone (by decide) with ⟨e, i, -, htree, -⟩ | ⟨fault, i, hfault, hparse⟩
    · cases htree
    · cases hfault
      exact hparse
  · exact ⟨rfl, fun hk => by cases hk⟩
  · exact ⟨rfl, fun _ => ⟨_, _, rfl, rfl, rfl⟩⟩

end Reckoner
