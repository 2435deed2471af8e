import Reckoner.Proofs.Expr.Parsed
import Reckoner.Proofs.Grammar.Exchange

/-!
# Tokens in brackets and behind a minus

Behind an opening bracket and behind a minus a whole expression is read, as at the start of the
tokens. In brackets, what the tokens would leave by themselves is what the bracket is not closed at.
Behind a minus it is not left: the negation is a leaf, and the tiers outside go on as they do behind
a number.

* `Reads.ofLeaf`, `Stops.ofLeaf`: what a leaf does at the start of the tokens, every tier does.
* `parse_brackets`, `parse_brackets_of_tail`, `parse_brackets_of_fault`: tokens in brackets.
* `parse_minus_of_fault`, `parse_minus`: tokens behind a minus.
* **`parse_enclosed`**: the parses of enclosed tokens, from the parse of the tokens.
-/

namespace Reckoner

variable {tier : Tier} {depth i j : Nat} {ts rest : List Token} {opening closing minus n : Token}
  {e : Expr} {fault : Fault} {value : Binary64}

/-! ## Leaves that are read by every tier -/

/-- A leaf that no operator follows is read by every tier. -/
theorem Reads.ofLeaf (h : Reads .leaf depth ts e rest) (hnext : nextOperator rest = none)
    (tier : Tier) : Reads tier depth ts e rest := by
  obtain ⟨taken, rfl, hd, hg, -, hn⟩ := reads_iff.mp h
  exact (hd.ofLeafTo tier).reads hg (fun op hop => by cases hnext.symm.trans hop) hn

/-- A fault of the leaf that the tokens start with is the fault of every tier. -/
theorem Stops.ofLeaf (h : Stops .leaf depth ts fault rest) (tier : Tier) :
    Stops tier depth ts fault rest := by
  have hpower : Stops .power depth ts fault rest := Stops.first rfl h
  have hproduct : Stops .multiplicative depth ts fault rest := Stops.first rfl hpower
  cases tier with
  | additive => exact Stops.first rfl hproduct
  | multiplicative => exact hproduct
  | power => exact hpower
  | leaf => exact h

/-! ## Faults and tails by their index -/

/-- The fault of a parse, with the tokens from its index on. -/
theorem stops_of_parse (h : Expr.parse ts = .error (.fault ts j fault)) :
    j ≤ ts.length ∧ Stops .additive Expr.depthLimit ts fault (ts.drop j) := by
  obtain ⟨-, rest, hj, hs⟩ := parseWithin_eq_fault_iff.mp h
  obtain ⟨seen, more, e, rfl, -⟩ := hs.completion
  obtain rfl : j = seen.length := by
    rw [hj, List.length_append, Nat.add_sub_cancel]
  refine ⟨?_, ?_⟩
  · rw [List.length_append]
    exact Nat.le_add_right _ _
  · rwa [List.drop_left]

/-- A fault of the leaf that the tokens start with is the fault of the parse. -/
theorem Stops.parse_eq (h : Stops .leaf depth ts fault (ts.drop i)) (hi : i ≤ ts.length)
    (hdeep : Expr.parse ts ≠ .error (.nestedTooDeeply ts)) :
    Expr.parse ts = .error (.fault ts i fault) := by
  have hparse := (h.ofLeaf .additive).parseWithin_eq hdeep
  rwa [List.length_drop, Nat.sub_sub_self hi] at hparse

/-- More tokens at the end are left, if others are left before them. -/
theorem Reads.append (h : Reads tier depth ts e (ts.drop i)) (hi : i < ts.length)
    (us : List Token) : Reads tier depth (ts ++ us) e ((ts ++ us).drop i) := by
  have hnext : nextOperator (ts.drop i ++ us) = nextOperator (ts.drop i) := by
    rw [List.drop_eq_getElem_cons hi]
    rfl
  have hread : Reads tier depth (ts.take i ++ ts.drop i) e (ts.drop i) := by
    rwa [List.take_append_drop]
  have hfollowed := hread.followed (Or.inr hnext)
  rw [← List.append_assoc, List.take_append_drop] at hfollowed
  rwa [List.drop_append_of_le_length (Nat.le_of_lt hi)]

/-- More tokens at the end do not change a fault at a token. -/
theorem Stops.append (h : Stops tier depth ts fault (ts.drop j)) (hj : j < ts.length)
    (us : List Token) : Stops tier depth (ts ++ us) fault ((ts ++ us).drop j) := by
  obtain ⟨seen, hseen, hahead⟩ := h.lookahead
  have hcons : ts.drop j = ts[j] :: ts.drop (j + 1) := List.drop_eq_getElem_cons hj
  have hstops := hahead ts[j] (by rw [hcons]; rfl) (ts.drop (j + 1) ++ us)
  rw [← List.cons_append, ← hcons, ← List.append_assoc, ← hseen] at hstops
  rwa [List.drop_append_of_le_length (Nat.le_of_lt hj)]

/-! ## In brackets -/

section Brackets

variable (ho : opening.kind = .leftParen) (hc : closing.kind = .rightParen)
  (hdeep : Expr.parse (opening :: (ts ++ [closing])) ≠
    .error (.nestedTooDeeply (opening :: (ts ++ [closing]))))

include ho hc hdeep in
/-- Tokens that are all taken are all taken in brackets, and have the same value. -/
theorem parse_brackets (h : Expr.parse ts = .ok ⟨e, []⟩) :
    Expr.parse (opening :: (ts ++ [closing])) = .ok ⟨.group e, []⟩ ∧
      ∃ value, e.evaluate = .ok value ∧ (Expr.group e).evaluate = .ok value := by
  have hr : Reads .additive Expr.depthLimit (ts ++ []) e [] := by
    rw [List.append_nil]
    exact parseWithin_eq_ok_iff.mp h
  have hnested := hr.followed (Or.inl (nextOperator_rightParen hc []))
  have hgroup := (Reads.group ho hnested hc).ofLeaf rfl .additive
  have hparse := hgroup.parseWithin_eq hdeep
  have hlimit : 5 ≤ Expr.depthLimit := by decide
  obtain ⟨hheight, -, ⟨value, hv⟩, -⟩ := walks_of_parseWithin hlimit h
  obtain ⟨hgroupHeight, -, -, -⟩ := walks_of_parseWithin hlimit hparse
  have hsame := Expr.evaluateWithin_eq e (Nat.le_of_succ_le_succ hgroupHeight) hheight
  exact ⟨hparse, value, hv, hsame.trans hv⟩

include ho hdeep in
/-- Tokens that are left keep the brackets from being closed. -/
theorem parse_brackets_of_tail (hi : i < ts.length) (ht : ts[i].kind ≠ .rightParen)
    (h : Expr.parse ts = .ok ⟨e, ts.drop i⟩) :
    Expr.parse (opening :: (ts ++ [closing])) =
      .error (.fault (opening :: (ts ++ [closing])) (i + 1) .unclosedBracket) := by
  have hr : Reads .additive Expr.depthLimit ts e (ts.drop i) := parseWithin_eq_ok_iff.mp h
  have hopen : ∀ u ∈ ((ts ++ [closing]).drop i).head?, u.kind ≠ .rightParen := by
    rw [List.head?_drop, List.getElem?_append_left hi, List.getElem?_eq_getElem hi]
    rintro u ⟨⟩
    exact ht
  have hle : i + 1 ≤ (opening :: (ts ++ [closing])).length := by
    rw [List.length_cons, List.length_append]
    omega
  exact Stops.parse_eq (Stops.unclosed ho (hr.append hi [closing]) hopen) hle hdeep

include ho hdeep in
/-- A fault at a token is the fault in brackets. -/
theorem parse_brackets_of_fault (hj : j < ts.length)
    (h : Expr.parse ts = .error (.fault ts j fault)) :
    Expr.parse (opening :: (ts ++ [closing])) =
      .error (.fault (opening :: (ts ++ [closing])) (j + 1) fault) := by
  have hle : j + 1 ≤ (opening :: (ts ++ [closing])).length := by
    rw [List.length_cons, List.length_append]
    omega
  have hs := (stops_of_parse h).2.append hj [closing]
  exact Stops.parse_eq (Stops.nested (Or.inr ho) hs) hle hdeep

end Brackets

/-! ## Behind a minus -/

section Minus

variable (hm : minus.kind = .minus)
  (hdeep : Expr.parse (minus :: ts) ≠ .error (.nestedTooDeeply (minus :: ts)))

include hm hdeep in
/-- A fault, also at the end, is the fault behind a minus. -/
theorem parse_minus_of_fault (h : Expr.parse ts = .error (.fault ts j fault)) :
    Expr.parse (minus :: ts) = .error (.fault (minus :: ts) (j + 1) fault) := by
  obtain ⟨hj, hs⟩ := stops_of_parse h
  exact Stops.parse_eq (Stops.nested (Or.inl hm) hs) (Nat.succ_le_succ hj) hdeep

/-- There is no fault at a number that can be read. -/
theorem index_pos_of_number (hn : n.kind = .number) (hv : Numeral.read? n.text = some value)
    (h : Expr.parse (n :: ts) = .error (.fault (n :: ts) j fault)) : 0 < j := by
  refine Nat.pos_of_ne_zero ?_
  rintro rfl
  obtain ⟨seen, hseen, hahead⟩ := (stops_of_parse h).2.lookahead
  obtain rfl : [] = seen := List.append_cancel_right hseen
  have hnumber : Derives .leaf [n] (.num value) := Derives.number hn hv
  exact (hnumber.ofLeafTo .additive).not_stops (hahead n rfl [])

include hm hdeep in
/-- What is left behind a tree is read as if a number stood for the negation of the tree. -/
theorem parse_minus (hn : n.kind = .number) (hv : Numeral.read? n.text = some value)
    (h : Expr.parse ts = .ok ⟨e, ts.drop i⟩) (hi : i ≤ ts.length)
    (hnumber : Expr.parse (n :: ts.drop i) ≠ .error (.nestedTooDeeply (n :: ts.drop i))) :
    (∃ e' k, k ≤ (n :: ts.drop i).length ∧
        Expr.parse (n :: ts.drop i) = .ok ⟨e', (n :: ts.drop i).drop k⟩ ∧
        Expr.parse (minus :: ts) =
          .ok ⟨e'.replaceNumber 0 (.neg e) 0, (minus :: ts).drop (k + i)⟩) ∨
      ∃ fault k, Expr.parse (n :: ts.drop i) = .error (.fault (n :: ts.drop i) k fault) ∧
        Expr.parse (minus :: ts) = .error (.fault (minus :: ts) (k + i) fault) := by
  have hsplit : minus :: ts.take i ++ ts.drop i = minus :: ts := by
    rw [List.cons_append, List.take_append_drop]
  have hlength : (minus :: ts.take i).length - 1 = i := by
    rw [List.length_cons, Nat.add_sub_cancel, List.length_take_of_le hi]
  have hneg : Reads .leaf (Expr.depthLimit + 8) (minus :: ts.take i ++ ts.drop i) (.neg e)
      (ts.drop i) := by
    rw [hsplit]
    exact Reads.neg hm (parseWithin_eq_ok_iff.mp h)
  have hexchange := parse_exchange (p := []) hn hv hneg (fun hp => absurd rfl hp) hnumber
  rw [List.nil_append, List.nil_append, hsplit, hlength] at hexchange
  rcases hexchange hdeep with ⟨e', k, hk, hparse, hminus⟩ | ⟨fault, k, hparse, hminus⟩
  · have hpos : ¬k ≤ ([] : List Token).length := by
      have hlt := (parseWithin_eq_ok_iff.mp hparse).length_lt
      rw [List.length_drop, List.length_cons] at hlt
      rw [List.length_nil]
      omega
    rw [if_neg hpos, if_neg hpos] at hminus
    exact Or.inl ⟨e', k, hk, hparse, hminus⟩
  · have hpos : ¬k ≤ ([] : List Token).length := Nat.not_le.mpr (index_pos_of_number hn hv hparse)
    rw [if_neg hpos] at hminus
    exact Or.inr ⟨fault, k, hparse, hminus⟩

end Minus

/-! ## Both -/

/-- **Tokens in brackets and behind a minus**, unless a parse goes too deep. Tokens that are all
taken are taken in brackets, with the same value. If a tail is left that does not start with a
closing bracket, the brackets are not closed at it, and a fault at a token stays there. A fault
stays behind a minus as well, and if a tree with a tail is parsed, the outcome behind a minus is
that of a number with the tail after it: the same fault, or the tree with the negation in the place
of the number. -/
theorem parse_enclosed (ho : opening.kind = .leftParen) (hc : closing.kind = .rightParen)
    (hm : minus.kind = .minus) (ts : List Token) :
    let enclosed := opening :: (ts ++ [closing])
    let negated := minus :: ts
    (Expr.parse enclosed ≠ .error (.nestedTooDeeply enclosed) →
      (∀ e, Expr.parse ts = .ok ⟨e, []⟩ → Expr.parse enclosed = .ok ⟨.group e, []⟩ ∧
        ∃ value, e.evaluate = .ok value ∧ (Expr.group e).evaluate = .ok value) ∧
      (∀ e i, ∀ hi : i < ts.length, ts[i].kind ≠ .rightParen →
        Expr.parse ts = .ok ⟨e, ts.drop i⟩ →
          Expr.parse enclosed = .error (.fault enclosed (i + 1) .unclosedBracket)) ∧
      ∀ fault j, j < ts.length → Expr.parse ts = .error (.fault ts j fault) →
        Expr.parse enclosed = .error (.fault enclosed (j + 1) fault)) ∧
    (Expr.parse negated ≠ .error (.nestedTooDeeply negated) →
      (∀ fault j, Expr.parse ts = .error (.fault ts j fault) →
        Expr.parse negated = .error (.fault negated (j + 1) fault)) ∧
      ∀ e i n value, i ≤ ts.length → Expr.parse ts = .ok ⟨e, ts.drop i⟩ → n.kind = .number →
        Numeral.read? n.text = some value →
        Expr.parse (n :: ts.drop i) ≠ .error (.nestedTooDeeply (n :: ts.drop i)) →
          (∃ e' k, k ≤ (n :: ts.drop i).length ∧
            Expr.parse (n :: ts.drop i) = .ok ⟨e', (n :: ts.drop i).drop k⟩ ∧
            Expr.parse negated = .ok ⟨e'.replaceNumber 0 (.neg e) 0, negated.drop (k + i)⟩) ∨
          ∃ fault k, Expr.parse (n :: ts.drop i) = .error (.fault (n :: ts.drop i) k fault) ∧
            Expr.parse negated = .error (.fault negated (k + i) fault)) := by
  intro enclosed negated
  refine ⟨fun hdeep => ⟨fun e h => ?_, fun e i hi ht h => ?_, fun fault j hj h => ?_⟩,
    fun hdeep => ⟨fun fault j h => ?_, fun e i n value hi h hn hv hnumber => ?_⟩⟩
  · exact parse_brackets ho hc hdeep h
  · exact parse_brackets_of_tail ho hdeep hi ht h
  · exact parse_brackets_of_fault ho hdeep hj h
  · exact parse_minus_of_fault hm hdeep h
  · exact parse_minus hm hdeep hn hv h hi hnumber

/-- `1 + 2 - 3` is read up to the minus: the bracket of `( 1 + 2 - 3 )` is not closed there, and in
`- 1 + 2 - 3` the negation is what three is subtracted from. -/
theorem parse_enclosed_difference :
    let ts : List Token := [⟨.number, "1"⟩, ⟨.plus, "+"⟩, ⟨.number, "2"⟩, ⟨.minus, "-"⟩,
      ⟨.number, "3"⟩]
    let enclosed : List Token := ⟨.leftParen, "("⟩ :: (ts ++ [⟨.rightParen, ")"⟩])
    ∃ e three, Expr.parse ts = .ok ⟨e, ts.drop 3⟩ ∧
      Expr.parse enclosed = .error (.fault enclosed 4 .unclosedBracket) ∧
      Expr.parse (⟨.minus, "-"⟩ :: ts) = .ok ⟨.binary (.neg e) .sub (.num three), []⟩ := by
  intro ts enclosed
  obtain ⟨e, he⟩ : ∃ e, Expr.parse ts = .ok ⟨e, ts.drop 3⟩ := ⟨_, rfl⟩
  obtain ⟨value, hv⟩ : ∃ value, Numeral.read? "7" = some value := ⟨_, rfl⟩
  let sevenLess : List Token := [⟨.number, "7"⟩, ⟨.minus, "-"⟩, ⟨.number, "3"⟩]
  obtain ⟨seven, three, hnumber⟩ : ∃ seven three, Expr.parse sevenLess =
      .ok ⟨.binary (.num seven) .sub (.num three), []⟩ := ⟨_, _, rfl⟩
  have hdeep : ∀ us : List Token, us.length ≤ 7 → Expr.parse us ≠ .error (.nestedTooDeeply us) :=
    fun us hus =>
      parseWithin_ne_nestedTooDeeply (Nat.le_trans (Nat.mul_le_mul_left 8 hus) (by decide)) us
  obtain ⟨hbrackets, hminus⟩ := @parse_enclosed ⟨.leftParen, "("⟩ ⟨.rightParen, ")"⟩
    ⟨.minus, "-"⟩ rfl rfl rfl ts
  refine ⟨e, three, he, ?_, ?_⟩
  · exact (hbrackets (hdeep _ (by decide))).2.1 e 3 (by decide) (by decide) he
  · rcases (hminus (hdeep _ (by decide))).2 e 3 ⟨.number, "7"⟩ value (by decide) he rfl hv
        (hdeep sevenLess (by decide)) with ⟨e', k, hk, hparse, hneg⟩ | ⟨fault, k, hparse, -⟩
    · have heq := Except.ok.inj (hnumber.symm.trans hparse)
      obtain rfl : _ = e' := congrArg Parsed.expr heq
      obtain rfl : k = 3 := by
        have hk : k ≤ 3 := hk
        have hlength : 0 = 3 - k :=
          (congrArg (List.length ∘ Parsed.ignored) heq).trans List.length_drop
        omega
      exact hneg
    · cases hnumber.symm.trans hparse

end Reckoner
