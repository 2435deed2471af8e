import Mathlib.Data.List.Chain
import Reckoner.Proofs.Conventional.Folding
import Reckoner.Proofs.Grammar.ValidPrefix

/-!
# One operator for each tier, and chains of them

Without a unary minus, what the parser takes is derived in the conventional grammar too, and the
trees of both grammars are those of the conventional grammar without chains: `Unchained`. Where the
conventional tree has a chain, the parser stops short. In a conventional sentence operands and
operators alternate and brackets are closed, `Alternates`, and a reader keeps to this: whatever it
reads, an operator or a closing bracket is next. So it can only stop at the operator that makes the
chain longer than its tier allows.

* `Derives.folds`, `Folds.derives`: from one grammar to the other.
* `Reads.alternates`, `Stops.at_operator`: where a reader leaves a conventional sentence.
* **`parse_agrees_with_conventional`**: a parse that takes all the tokens gives the conventional
  tree, and one that does not is stopped by a chain.
-/

namespace Reckoner

/-! ## Trees without chains -/

namespace Expr

theorem isSum_iff {e : Expr} : e.isSum = true ↔ e.tier? = some .additive := by
  cases e with
  | binary l op r => cases op <;> simp [isSum, tier?, Operator.isAdditive, Operator.tier?]
  | _ => simp [isSum, tier?]

theorem isProduct_iff {e : Expr} : e.isProduct = true ↔ e.tier? = some .multiplicative := by
  cases e with
  | binary l op r => cases op <;> simp [isProduct, tier?, Operator.isMultiplicative, Operator.tier?]
  | _ => simp [isProduct, tier?]

/-- No sum is the left operand of a sum, and no product that of a product. -/
def Unchained : Expr → Prop
  | num _ | foreign _ => True
  | binary l op r =>
    ¬(op.isAdditive = true ∧ l.isSum = true) ∧ ¬(op.isMultiplicative = true ∧ l.isProduct = true) ∧
      l.Unchained ∧ r.Unchained
  | group inner | neg inner => inner.Unchained

end Expr

variable {tier left right : Tier} {depth n : Nat} {ts ls rs rest : List Token} {e f l r : Expr}
  {t : Token} {op : Operator} {fault : Fault}

/-- A sentence has no chain. -/
theorem Derives.unchained (h : Derives tier ts e) : e.Unchained := by
  induction h using Derives.rule_induction with
  | pass _ _ ih | neg _ _ ih | group _ _ _ ih => exact ih
  | @binary tier left right ls rs l r t op operands hl operator hr ihl ihr =>
    have hroot : (Expr.binary l op r).tier? = some tier := Tier.tier?_of_operator? operator
    have hne := hl.tier?_ne operands
    refine ⟨fun ⟨(hop : (Expr.binary l op r).isSum = true), hsum⟩ => hne ?_,
      fun ⟨(hop : (Expr.binary l op r).isProduct = true), hproduct⟩ => hne ?_, ihl, ihr⟩
    · rw [← hroot, Expr.isSum_iff.mp hsum, Expr.isSum_iff.mp hop]
    · rw [← hroot, Expr.isProduct_iff.mp hproduct, Expr.isProduct_iff.mp hop]
  | number => trivial

/-- Without chains, the left operand of a conventional derivation is one tier down. -/
theorem Derives.left_of_unchained (operands : tier.operands? = some (left, right))
    (hl : Derives tier.chained ls l) (operator : tier.operator? t.kind = some op)
    (he : (Expr.binary l op r).Unchained) : Derives left ls l := by
  obtain ⟨hsum, hproduct, -⟩ := he
  have hroot : (Expr.binary l op r).tier? = some tier := Tier.tier?_of_operator? operator
  cases tier with
  | additive => exact hl.descend operands fun h => hsum ⟨Expr.isSum_iff.mpr hroot, Expr.isSum_iff.mpr h⟩
  | multiplicative =>
    exact hl.descend operands fun h =>
      hproduct ⟨Expr.isProduct_iff.mpr hroot, Expr.isProduct_iff.mpr h⟩
  | power =>
    cases operands
    exact hl
  | leaf => cases operands

/-- **A conventional sentence without chains is a sentence.** -/
theorem Folds.derives (h : Folds tier ts e) (he : e.Unchained) : Derives tier ts e := by
  induction h with
  | pass operands _ ih => exact (ih he).pass operands
  | binary operands _ operator _ ihl ihr =>
    have hl := (ihl he.2.2.1).left_of_unchained operands operator he
    exact hl.binary operands operator (ihr he.2.2.2)
  | number kind text => exact Derives.number kind text
  | group opening _ closing ih => exact Derives.group opening (ih he) closing

/-- There is no negation in a conventional tree that could take too little. -/
theorem Folds.greedy (h : Folds tier ts e) : ∀ next, e.Greedy next := by
  induction h with
  | pass _ _ ih => exact ih
  | binary _ _ _ _ ihl ihr => exact fun next => ⟨ihl _, ihr next⟩
  | number => exact fun _ => trivial
  | group _ _ _ ih => exact fun _ => ih none

/-! ## Tokens without a unary minus -/

/-- Every minus comes directly after a number or a closing bracket. -/
structure MinusesSubtract (ts : List Token) : Prop where
  first : ∀ t ∈ ts.head?, t.kind ≠ .minus
  pairs : ts.IsChain fun u t => t.kind = .minus → u.kind = .number ∨ u.kind = .rightParen

theorem MinusesSubtract.of_append_left (h : MinusesSubtract (ls ++ rs)) : MinusesSubtract ls := by
  refine ⟨fun t ht => h.first t ?_, h.pairs.left_of_append⟩
  rw [List.head?_append, ht]
  rfl

theorem MinusesSubtract.of_append_right (h : MinusesSubtract (ls ++ t :: rs))
    (hnumber : t.kind ≠ .number) (hclosing : t.kind ≠ .rightParen) : MinusesSubtract rs := by
  obtain ⟨hhead, hpairs⟩ := List.isChain_cons.mp h.pairs.right_of_append
  exact ⟨fun u hu hminus => (hhead u hu hminus).elim hnumber hclosing, hpairs⟩

theorem MinusesSubtract.kind_ne_minus (h : MinusesSubtract (t :: ts)) : t.kind ≠ .minus :=
  h.first t rfl

/-- **Without a unary minus, a sentence is a conventional sentence.** -/
theorem Derives.folds (h : Derives tier ts e) (hminus : MinusesSubtract ts) : Folds tier ts e := by
  induction h using Derives.rule_induction with
  | pass operands _ ih => exact Folds.pass operands (ih hminus)
  | @binary tier left right ls rs l r t op operands hl operator hr ihl ihr =>
    obtain ⟨hnumber, hclosing⟩ := Tier.kind_ne_of_operator? operator
    have hleft : Folds left ls l := ihl hminus.of_append_left
    have hchained : Folds tier.chained ls l := by
      cases tier <;> cases operands
      · exact Folds.pass rfl hleft
      · exact Folds.pass rfl hleft
      · exact hleft
    exact Folds.binary operands hchained operator (ihr (hminus.of_append_right hnumber hclosing))
  | number kind text => exact Folds.number kind text
  | neg kind => exact absurd kind hminus.kind_ne_minus
  | @group t u ts e opening _ closing ih =>
    have hminus : MinusesSubtract ([] ++ t :: (ts ++ [u])) := hminus
    have hinner : MinusesSubtract (ts ++ [u]) :=
      hminus.of_append_right (by rw [opening]; decide) (by rw [opening]; decide)
    exact Folds.group opening (ih hinner.of_append_left) closing

/-! ## Operands and operators in turn -/

/-- An operator, of whatever tier. -/
def Token.IsOperator (t : Token) : Prop := (Operator.ofKind? t.kind).isSome = true

/-- With so many brackets open and an operand next, or else an operator or a closing bracket,
operands and operators alternate to the end, where all brackets are closed. -/
inductive Alternates : Bool → Nat → List Token → Prop where
  | ended : Alternates false 0 []
  | number {n : Nat} {ts : List Token} {t : Token} {value : Binary64} (kind : t.kind = .number)
      (text : Numeral.read? t.text = some value) (h : Alternates false n ts) :
      Alternates true n (t :: ts)
  | opening {n : Nat} {ts : List Token} {t : Token} (kind : t.kind = .leftParen)
      (h : Alternates true (n + 1) ts) : Alternates true n (t :: ts)
  | closing {n : Nat} {ts : List Token} {t : Token} (kind : t.kind = .rightParen)
      (h : Alternates false n ts) : Alternates false (n + 1) (t :: ts)
  | operator {n : Nat} {ts : List Token} {t : Token} (kind : t.IsOperator)
      (h : Alternates true n ts) : Alternates false n (t :: ts)

theorem isOperator_of_operator? (operator : tier.operator? t.kind = some op) : t.IsOperator :=
  Option.isSome_of_eq_some (Tier.operator?_eq_some_iff.mp operator).1

theorem not_isOperator_of_rightParen (kind : t.kind = .rightParen) : ¬t.IsOperator := by
  unfold Token.IsOperator
  rw [kind]
  decide

/-- **A conventional sentence is an operand**: before it one is next, and after it none. -/
theorem Folds.alternates (h : Folds tier ts e) :
    ∀ {n rest}, Alternates false n rest → Alternates true n (ts ++ rest) := by
  induction h with
  | pass _ _ ih => exact ih
  | binary _ _ operator _ ihl ihr =>
    intro n rest ha
    rw [List.append_assoc, List.cons_append]
    exact ihl (Alternates.operator (isOperator_of_operator? operator) (ihr ha))
  | number kind text => exact Alternates.number kind text
  | group opening _ closing ih =>
    intro n rest ha
    rw [List.cons_append, List.append_assoc]
    exact Alternates.opening opening (ih (Alternates.closing closing ha))

/-- After an operator of a tier, an operand is next. -/
theorem Alternates.after_operator (h : Alternates false n (t :: ts))
    (operator : tier.operator? t.kind = some op) : Alternates true n ts := by
  cases h with
  | closing kind => exact absurd kind (Tier.kind_ne_of_operator? operator).2
  | operator _ h => exact h

theorem Alternates.after_opening (h : Alternates true n (t :: ts)) (kind : t.kind = .leftParen) :
    Alternates true (n + 1) ts := by
  cases h with
  | number kind' => cases kind.symm.trans kind'
  | opening _ h => exact h

theorem Alternates.kind_ne_minus (h : Alternates true n (t :: ts)) : t.kind ≠ .minus := by
  intro hminus
  cases h with
  | number kind | opening kind => cases hminus.symm.trans kind

/-- Where an operand is next, one may start. -/
theorem Alternates.expectOperand (h : Alternates true n ts) (op : Operator) :
    Reader.expectOperand op ts = .ok () := by
  cases h with
  | number kind | opening kind => simp [Reader.expectOperand, Reader.startsOperand, kind]

/-- **Where operands and operators alternate, a minus is an operator.** -/
theorem Alternates.minusesSubtract {operand : Bool} (h : Alternates operand n ts) :
    (operand = true → ∀ t ∈ ts.head?, t.kind ≠ .minus) ∧
      ts.IsChain fun u t => t.kind = .minus → u.kind = .number ∨ u.kind = .rightParen := by
  induction h with
  | ended => exact ⟨fun h => absurd h Bool.false_ne_true, List.IsChain.nil⟩
  | number kind _ _ ih =>
    refine ⟨fun _ u hu hminus => ?_, List.isChain_cons.mpr ⟨fun _ _ _ => Or.inl kind, ih.2⟩⟩
    obtain rfl := Option.some.inj hu
    cases kind.symm.trans hminus
  | opening kind _ ih =>
    refine ⟨fun _ u hu hminus => ?_, List.isChain_cons.mpr ⟨fun u hu hminus => ?_, ih.2⟩⟩
    · obtain rfl := Option.some.inj hu
      cases kind.symm.trans hminus
    · exact absurd hminus (ih.1 rfl u hu)
  | closing kind _ ih =>
    exact ⟨fun h => absurd h Bool.false_ne_true, List.isChain_cons.mpr ⟨fun _ _ _ => Or.inr kind, ih.2⟩⟩
  | operator _ _ ih =>
    refine ⟨fun h => absurd h Bool.false_ne_true, List.isChain_cons.mpr ⟨fun u hu hminus => ?_, ih.2⟩⟩
    exact absurd hminus (ih.1 rfl u hu)

/-- What is next after an operand, when it is no closing bracket of an open one, is an operator. -/
theorem Alternates.isOperator_of_head (h : Alternates false n rest)
    (hclosing : ∀ u ∈ rest.head?, u.kind = .rightParen → n = 0) (hne : rest ≠ [] ∨ n ≠ 0) :
    ∃ t after, rest = t :: after ∧ t.IsOperator := by
  cases h with
  | ended => exact (hne.elim (fun h => h rfl) fun h => h rfl).elim
  | closing kind => cases hclosing _ rfl kind
  | operator kind => exact ⟨_, _, rfl, kind⟩

/-- **After a reading, an operator or a closing bracket is next.** -/
theorem Reads.alternates (h : Reads tier depth ts e rest) :
    ∀ {n}, Alternates true n ts → Alternates false n rest := by
  induction h with
  | pass _ _ _ ih => exact ih
  | binary _ _ operator _ _ ihl ihr => exact fun ha => ihr ((ihl ha).after_operator operator)
  | number kind =>
    intro n ha
    cases ha with
    | number _ _ h => exact h
    | opening kind' => cases kind.symm.trans kind'
  | neg kind => exact fun ha => absurd kind ha.kind_ne_minus
  | group opening _ closing ih =>
    intro n ha
    cases ih (ha.after_opening opening) with
    | closing _ h => exact h
    | operator kind => exact absurd kind (not_isOperator_of_rightParen closing)

/-- **The only fault is an operator in a bracket that should be closed.** -/
theorem Stops.at_operator (h : Stops tier depth ts fault rest) :
    ∀ {n}, Alternates true n ts →
      fault = .unclosedBracket ∧ ∃ t after, rest = t :: after ∧ t.IsOperator := by
  induction h with
  | first _ _ ih => exact ih
  | missing _ first operator h =>
    intro n ha
    cases ((first.alternates ha).after_operator operator).expectOperand _ |>.symm.trans h
  | second _ first operator _ _ ih =>
    exact fun ha => ih ((first.alternates ha).after_operator operator)
  | ended =>
    intro n ha
    cases ha
  | malformed kind text =>
    intro n ha
    cases ha with
    | number _ text' => cases text.symm.trans text'
    | opening kind' => cases kind.symm.trans kind'
  | misplaced kind =>
    intro n ha
    cases ha with
    | number kind' | opening kind' =>
      rw [kind'] at kind
      cases kind
  | nested kind _ ih =>
    intro n ha
    rcases kind with kind | kind
    · exact absurd kind ha.kind_ne_minus
    · exact ih (ha.after_opening kind)
  | unclosed opening nested h =>
    intro n ha
    refine ⟨rfl, (nested.alternates (ha.after_opening opening)).isOperator_of_head ?_ ?_⟩
    · exact fun u hu hclosing => absurd hclosing (h u hu)
    · exact Or.inr (Nat.succ_ne_zero n)

/-! ## Parses -/

/-- **A parse agrees with the conventional reading**, unless it goes too deep. Without a unary
minus, a parse that takes all the tokens gives the tree of the conventional reading. And where there
is a conventional tree of all the tokens, either it has no chain and the parse gives it and takes
them all; or it has one, and the parse leaves an operator and what follows it, or finds a bracket
unclosed at an operator. -/
theorem parse_agrees_with_conventional (ts : List Token)
    (h : Expr.parse ts ≠ .error (.nestedTooDeeply ts)) :
    (MinusesSubtract ts → ∀ e, Expr.parse ts = .ok ⟨e, []⟩ → Conventional.parse? ts = some e) ∧
      ∀ f, Conventional.parse? ts = some f →
        (f.Unchained ∧ Expr.parse ts = .ok ⟨f, []⟩) ∨
          (¬f.Unchained ∧
            ((∃ e t after, Expr.parse ts = .ok ⟨e, t :: after⟩ ∧ t.IsOperator) ∨
              ∃ i t, ts[i]? = some t ∧ t.IsOperator ∧
                Expr.parse ts = .error (.fault ts i .unclosedBracket))) := by
  refine ⟨fun hminus e he => ?_, fun f hf => ?_⟩
  · exact Conventional.parse?_eq_some_iff.mpr ((parseWithin_eq_ok_iff.mp he).derives_all.folds hminus)
  · have hfolds := Conventional.parse?_eq_some_iff.mp hf
    have halternates : Alternates true 0 ts := by
      have ha := hfolds.alternates Alternates.ended
      rwa [List.append_nil] at ha
    by_cases hchain : f.Unchained
    · have hparse := (hfolds.derives hchain).parseWithin_eq (hfolds.greedy none) Expr.depthLimit
      refine Or.inl ⟨hchain, ?_⟩
      split at hparse
      · exact hparse
      · exact absurd hparse h
    · refine Or.inr ⟨hchain, ?_⟩
      rcases reads_or_stops_of_parseWithin h with ⟨e, rest, hr⟩ | ⟨fault, rest, hs⟩
      · have hne : rest ≠ [] := by
          rintro rfl
          obtain ⟨hfirst, hpairs⟩ := halternates.minusesSubtract
          have he := hr.derives_all.folds ⟨hfirst rfl, hpairs⟩
          rw [Conventional.parse?_eq_some_iff.mpr he] at hf
          exact hchain (Option.some.inj hf ▸ hr.derives_all.unchained)
        obtain ⟨t, after, rfl, hop⟩ :=
          (hr.alternates halternates).isOperator_of_head (fun _ _ _ => rfl) (Or.inl hne)
        exact Or.inl ⟨e, t, after, parseWithin_eq_ok_iff.mpr hr, hop⟩
      · obtain ⟨rfl, t, after, rfl, hop⟩ := hs.at_operator halternates
        obtain ⟨seen, -, -, rfl, -⟩ := hs.completion
        refine Or.inr ⟨seen.length, t, ?_, hop, ?_⟩
        · simp
        · exact parseWithin_eq_fault_iff.mpr ⟨rfl, _, by simp, hs⟩

/-- `1 - 2 * 3` is read conventionally; in `( 1 - 2 - 3 )`, the second minus makes a chain. -/
theorem parse_agrees_with_conventional_differences :
    let short : List Token := [⟨.number, "1"⟩, ⟨.minus, "-"⟩, ⟨.number, "2"⟩, ⟨.multiply, "*"⟩,
      ⟨.number, "3"⟩]
    let long : List Token := [⟨.leftParen, "("⟩, ⟨.number, "1"⟩, ⟨.minus, "-"⟩, ⟨.number, "2"⟩,
      ⟨.minus, "-"⟩, ⟨.number, "3"⟩, ⟨.rightParen, ")"⟩]
    (∃ e, Expr.parse short = .ok ⟨e, []⟩ ∧ Conventional.parse? short = some e) ∧
      (∃ f, Conventional.parse? long = some f ∧ ¬f.Unchained) ∧
        ∃ i t, long[i]? = some t ∧ t.IsOperator ∧
          Expr.parse long = .error (.fault long i .unclosedBracket) := by
  intro short long
  have hshort : MinusesSubtract short := by
    refine ⟨fun t ht => ?_, ?_⟩
    · obtain rfl := Option.some.inj ht
      decide
    · simp [short]
  obtain ⟨e, he⟩ : ∃ e, Expr.parse short = .ok ⟨e, []⟩ := ⟨_, rfl⟩
  have hagree := (parse_agrees_with_conventional short
    (parseWithin_ne_nestedTooDeeply (by decide) short)).1 hshort e he
  have hlong : Expr.parse long = .error (.fault long 4 .unclosedBracket) := rfl
  obtain ⟨a, b, c, hf⟩ : ∃ a b c, Conventional.parse? long =
      some (.group (.binary (.binary (.num a) .sub (.num b)) .sub (.num c))) := ⟨_, _, _, rfl⟩
  obtain ⟨hunchained, -⟩ | ⟨hchain, ⟨e', t, after, hok, -⟩ | hfault⟩ :=
    (parse_agrees_with_conventional long
      (parseWithin_ne_nestedTooDeeply (by decide) long)).2 _ hf
  · exact absurd hunchained fun h => h.1 ⟨rfl, rfl⟩
  · cases hlong.symm.trans hok
  · exact ⟨⟨e, he, hagree⟩, ⟨_, hf, hchain⟩, hfault⟩

end Reckoner
