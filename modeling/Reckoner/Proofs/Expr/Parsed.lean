import Reckoner.Calculation
import Reckoner.Proofs.Expr.Walks
import Reckoner.Proofs.Grammar.Greedy

/-!
# Parsed trees have values

A walk goes down one level for each level of the tree, a parse eight for each bracket and minus and
two for each right operand of a power. Between two brackets a tree has up to four levels: the
bracket itself and one operator of each tier; every further power adds one more and takes two. So
the height of a tree is at most half its nesting, but for the operators outside of all brackets
(`Derives.two_mul_height_le`), and a parse that had depth enough leaves depth enough for the walks.

* `Derives.operator_tier`, `Derives.offencesAfter_eq_nil`: the grammar knows no operator without a
  meaning and no foreign leaf.
* **`walks_of_parseWithin`**: what is parsed within a limit can be walked within it.
* **`calculate_fails_only_in_parse`**: a calculation has a value or fails with the error of the
  parse.
-/

namespace Reckoner

/-- The operators of a tree. -/
def Expr.operators : Expr → List Operator
  | binary l op r => l.operators ++ op :: r.operators
  | group inner => inner.operators
  | neg inner => inner.operators
  | num _ | foreign _ => []

/-- Twice the height of a tree of the tier, at most, from its nesting. -/
def Tier.heightBound : Tier → Nat → Nat
  | additive, n => n + 6
  | multiplicative, n => n + 4
  | power, n => n + 2
  | leaf, n => max 2 n

variable {tier : Tier} {depth : Nat} {ts : List Token} {e : Expr} {op : Operator}

/-- The operators with a tier have a meaning and a symbol. -/
theorem Operator.isSome_of_tier? {root : Tier} (h : op.tier? = some root) :
    op.meaning?.isSome = true ∧ op.symbol?.isSome = true := by
  have symbol : op.symbol?.isSome = true := by
    cases op with
    | unknown => cases h
    | _ => rfl
  exact ⟨(isSome_meaning? op).trans symbol, symbol⟩

theorem Operator.offences_of_tier? {root : Tier} (h : op.tier? = some root) :
    op.offences = [] := by
  cases op with
  | unknown => cases h
  | _ => rfl

/-! ## Sentences -/

/-- Every operator of a sentence has a tier. -/
theorem Derives.operator_tier (h : Derives tier ts e) :
    ∀ op ∈ e.operators, ∃ root, op.tier? = some root := by
  induction h using Derives.rule_induction with
  | pass _ _ ih | neg _ _ ih | group _ _ _ ih => exact ih
  | @binary tier _ _ _ _ l r _ op _ _ operator _ ihl ihr =>
    intro op' hop
    rcases List.mem_append.mp hop with hop | hop
    · exact ihl op' hop
    · rcases List.mem_cons.mp hop with rfl | hop
      · exact ⟨tier, Tier.tier?_of_operator? operator⟩
      · exact ihr op' hop
  | number => exact fun op hop => absurd hop List.not_mem_nil

/-- A sentence holds no offender. -/
theorem Derives.offencesAfter_eq_nil (h : Derives tier ts e) : e.offencesAfter = [] := by
  induction h using Derives.rule_induction with
  | pass _ _ ih | neg _ _ ih | group _ _ _ ih => exact ih
  | binary _ _ operator _ ihl ihr =>
    unfold Expr.offencesAfter
    rw [ihl, ihr, Operator.offences_of_tier? (Tier.tier?_of_operator? operator)]
    rfl
  | number => rfl

/-- **The height of a sentence is bounded by half its nesting**, and one for each tier around it. -/
theorem Derives.two_mul_height_le (h : Derives tier ts e) :
    2 * e.height ≤ tier.heightBound e.nesting := by
  induction h using Derives.rule_induction with
  | @pass tier left _ _ e operands _ ih =>
    refine Nat.le_trans ih ?_
    cases tier <;> cases operands <;> simp only [Tier.heightBound] <;> omega
  | @binary tier left right _ _ l r _ op operands _ operator _ ihl ihr =>
    rw [Expr.nesting_binary (Tier.tier?_of_operator? operator), Expr.height]
    cases tier <;> cases operands <;> simp only [Tier.heightBound, Tier.cost] at ihl ihr ⊢ <;>
      omega
  | number => exact Nat.le_refl 2
  | @neg _ _ e _ _ ih | @group _ _ _ e _ _ _ ih =>
    -- The eight are the six by which the bound inside exceeds the nesting, and two for this level.
    change 2 * e.height ≤ e.nesting + 6 at ih
    change 2 * (e.height + 1) ≤ max 2 (e.nesting + 8)
    omega

/-! ## Parses -/

/-- The height of a parsed tree, from the depth of the parse. -/
theorem two_mul_height_le_of_parseWithin {p : Parsed} (h : Expr.parseWithin depth ts = .ok p) :
    2 * p.expr.height ≤ depth + 6 := by
  have hr := parseWithin_eq_ok_iff.mp h
  obtain ⟨taken, -, hd⟩ := hr.derives
  exact Nat.le_trans hd.two_mul_height_le (Nat.add_le_add_right hr.nesting_le 6)

theorem calculate_of_parse_ok {p : Parsed} {value : Binary64} (h : Expr.parse ts = .ok p)
    (hv : p.expr.evaluate = .ok value) : calculate ts = .ok value := by
  unfold calculate
  rw [h]
  change p.expr.evaluate.mapError Failure.eval = .ok value
  rw [hv]
  rfl

theorem calculate_of_parse_error {error : ParseError} (h : Expr.parse ts = .error error) :
    calculate ts = .error (.parse error) := by
  unfold calculate
  rw [h]
  rfl

/-- **What is parsed within a limit can be walked within it**, for every limit from five on. (Within
four, `1 + 1 * 1 ^ 1 ^ 1` is parsed and has five levels.) -/
theorem walks_of_parseWithin {limit : Nat} {p : Parsed} (hlimit : 5 ≤ limit)
    (h : Expr.parseWithin limit ts = .ok p) :
    p.expr.height ≤ limit ∧
      (∀ op ∈ p.expr.operators, op.meaning?.isSome = true ∧ op.symbol?.isSome = true) ∧
      (∃ value, p.expr.evaluateWithin limit = .ok value) ∧
        ∃ text, p.expr.describeWithin limit = .ok text := by
  obtain ⟨taken, -, hd⟩ := (parseWithin_eq_ok_iff.mp h).derives
  have hheight : p.expr.height ≤ limit := by
    have := two_mul_height_le_of_parseWithin h
    omega
  refine ⟨hheight, fun op hop => ?_, Expr.exists_evaluateWithin hheight hd.offencesAfter_eq_nil,
    Expr.exists_describeWithin hheight hd.offencesAfter_eq_nil⟩
  obtain ⟨root, hroot⟩ := hd.operator_tier op hop
  exact Operator.isSome_of_tier? hroot

/-- **What parses cannot fail later.** A parsed tree is no higher than the walks go, each of its
operators has a meaning and a symbol, and it has a value and a description; so a calculation has a
value or fails with the error of the parse. -/
theorem calculate_fails_only_in_parse (ts : List Token) :
    (∀ p, Expr.parse ts = .ok p →
      p.expr.height ≤ Expr.depthLimit ∧
        (∀ op ∈ p.expr.operators, op.meaning?.isSome = true ∧ op.symbol?.isSome = true) ∧
        (∃ value, p.expr.evaluate = .ok value) ∧ ∃ text, p.expr.describe = .ok text) ∧
      ((∃ value, calculate ts = .ok value) ∨
        ∃ error, Expr.parse ts = .error error ∧ calculate ts = .error (.parse error)) := by
  have hlimit : 5 ≤ Expr.depthLimit := by decide
  refine ⟨fun p hp => walks_of_parseWithin hlimit hp, ?_⟩
  cases hp : Expr.parse ts with
  | ok p =>
    obtain ⟨-, -, ⟨value, hv⟩, -⟩ := walks_of_parseWithin hlimit hp
    exact Or.inl ⟨value, calculate_of_parse_ok hp hv⟩
  | error error => exact Or.inr ⟨error, rfl, calculate_of_parse_error hp⟩

/-- The tree of `( - 2 ^ 3 ) % 4` has a value and a description. -/
theorem calculate_fails_only_in_parse_remainder :
    let ts : List Token := [⟨.leftParen, "("⟩, ⟨.minus, "-"⟩, ⟨.number, "2"⟩, ⟨.power, "^"⟩,
      ⟨.number, "3"⟩, ⟨.rightParen, ")"⟩, ⟨.modulo, "%"⟩, ⟨.number, "4"⟩]
    ∃ p, Expr.parse ts = .ok p ∧ (∃ value, p.expr.evaluate = .ok value) ∧
      ∃ text, p.expr.describe = .ok text := by
  intro ts
  obtain ⟨p, hp⟩ : ∃ p, Expr.parse ts = .ok p := ⟨_, rfl⟩
  exact ⟨p, hp, ((calculate_fails_only_in_parse ts).1 p hp).2.2⟩

end Reckoner
