import Reckoner.Expr.Greedy
import Reckoner.Expr.Grammar
import Reckoner.Expr.Parse

/-!
# The readers, tier by tier

The readers of the four tiers are one family, `Tier.reader`. A tier with operators reads an operand
and, if one of its operators follows, another operand after it (`reader_of_operands`); the leaves
read what they nest with eight less of depth (`reader_leaf`).

* `tier_of_error`, `tier_of_next?_eq_none`, `tier_of_operator`: what a tier answers, by the answer
  of its left operand and the token after that; `leaf_number` and so on, by the first token.
* **`Tier.depth_induction`**: what passes from the readers that a reader calls to the reader itself
  holds of every reader at every depth.
-/

namespace Reckoner

/-! ## Tiers and their operators -/

namespace Operator

/-- The operator of a kind, of whatever tier. -/
def ofKind? (k : Token.Kind) : Option Operator :=
  additive? k <|> multiplicative? k <|> power? k

/-- The tier of an operator with a meaning. -/
def tier? : Operator → Option Tier
  | add | sub => some .additive
  | mul | div | mod => some .multiplicative
  | pow => some .power
  | unknown _ => none

end Operator

namespace Tier

/-- The operator of the tier that a kind is. -/
def operator? : Tier → Token.Kind → Option Operator
  | additive => Operator.additive?
  | multiplicative => Operator.multiplicative?
  | power => Operator.power?
  | leaf => fun _ => none

/-- The tiers of the left and of the right operand, for a tier with operators. -/
def operands? : Tier → Option (Tier × Tier)
  | additive => some (multiplicative, multiplicative)
  | multiplicative => some (power, power)
  | power => some (leaf, power)
  | leaf => none

/-- The depth that a right operand takes. -/
def cost : Tier → Nat
  | power => 2
  | _ => 0

variable {tier tier' : Tier} {k : Token.Kind} {op op' : Operator}

theorem operator?_eq_filter (tier : Tier) (k : Token.Kind) :
    tier.operator? k = (Operator.ofKind? k).filter (·.tier? = some tier) := by
  cases tier <;> cases k <;> rfl

/-- The operators of a tier are the operators that have that tier. -/
theorem operator?_eq_some_iff :
    tier.operator? k = some op ↔ Operator.ofKind? k = some op ∧ op.tier? = some tier := by
  rw [operator?_eq_filter, Option.filter_eq_some_iff, decide_eq_true_eq]

theorem tier?_of_operator? (h : tier.operator? k = some op) : op.tier? = some tier :=
  (operator?_eq_some_iff.mp h).2

/-- A kind is an operator of at most one tier. -/
theorem operator?_unique (h : tier.operator? k = some op) (h' : tier'.operator? k = some op') :
    tier = tier' ∧ op = op' := by
  have hk : some op = some op' :=
    (operator?_eq_some_iff.mp h).1.symm.trans (operator?_eq_some_iff.mp h').1
  obtain rfl := Option.some.inj hk
  have ht : some tier = some tier' := (tier?_of_operator? h).symm.trans (tier?_of_operator? h')
  exact ⟨Option.some.inj ht, rfl⟩

/-- An operator is neither a number nor a closing bracket. -/
theorem kind_ne_of_operator? (operator : tier.operator? k = some op) :
    k ≠ .number ∧ k ≠ .rightParen := by
  constructor <;> rintro rfl <;> cases tier <;> cases operator

/-- The reader of a tier, with the given depth left. -/
def reader : Tier → Nat → Reader
  | additive, depth => Reader.expression depth
  | multiplicative, depth =>
    Reader.tier Operator.multiplicative? (Reader.power depth) (Reader.power depth)
  | power, depth => Reader.power depth
  | leaf, depth => Reader.leaf (Reader.deeper 8 Reader.expression depth)

theorem reader_leaf (depth : Nat) :
    leaf.reader depth = Reader.leaf (Reader.deeper 8 additive.reader depth) := rfl

/-- **One equation for the three tiers with operators.** -/
theorem reader_of_operands {left right : Tier} (h : tier.operands? = some (left, right))
    (depth : Nat) :
    tier.reader depth =
      Reader.tier tier.operator? (left.reader depth)
        (Reader.deeper tier.cost right.reader depth) := by
  cases tier <;> cases h
  · rfl
  · rfl
  · funext ts
    exact Reader.power_eq depth ts

/-- **Induction along the calls of the readers.** -/
theorem depth_induction {P : Tier → Nat → Prop}
    (leaf : ∀ depth, (∀ d, depth = d + 8 → P additive d) → P leaf depth)
    (operands : ∀ tier left right depth, tier.operands? = some (left, right) →
      P left depth → (∀ d, depth = d + tier.cost → P right d) → P tier depth)
    (tier : Tier) (depth : Nat) : P tier depth := by
  induction depth using Nat.strongRecOn generalizing tier with
  | ind depth ih =>
    -- At one depth, a reader calls those of tiers that bind more: the leaves come first.
    have hleaf : P .leaf depth := leaf depth fun d h => ih d (by omega) additive
    have hpower : P .power depth :=
      operands .power _ _ depth rfl hleaf fun d (h : depth = d + 2) => ih d (by omega) .power
    have hmultiplicative : P .multiplicative depth :=
      operands .multiplicative _ _ depth rfl hpower fun d (h : depth = d) => h ▸ hpower
    cases tier with
    | additive =>
      exact operands .additive _ _ depth rfl hmultiplicative fun d (h : depth = d) =>
        h ▸ hmultiplicative
    | multiplicative => exact hmultiplicative
    | power => exact hpower
    | leaf => exact hleaf

end Tier

/-! ## What the combinators answer -/

namespace Reader

/-- The operator of a tier that the tokens go on with. -/
def next? (operator? : Token.Kind → Option Operator) (ts : List Token) : Option Operator :=
  ts.head?.bind fun t => operator? t.kind

variable {operator? : Token.Kind → Option Operator} {left right nested : Reader}
  {ts rest after : List Token} {t : Token} {l r e : Expr} {op : Operator} {halt : Halt}

theorem deeper_add (cost : Nat) (reader : Nat → Reader) (depth : Nat) :
    deeper cost reader (depth + cost) = reader depth := by
  rw [deeper, if_pos (Nat.le_add_left ..), Nat.add_sub_cancel]

/-- There is not enough depth, or the reader goes on with what is left of it. -/
theorem deeper_cases (cost : Nat) (reader : Nat → Reader) (depth : Nat) :
    (depth < cost ∧ deeper cost reader depth = tooDeep) ∨
      ∃ d, depth = d + cost ∧ deeper cost reader depth = reader d := by
  by_cases h : cost ≤ depth
  · obtain ⟨d, rfl⟩ := Nat.exists_eq_add_of_le' h
    exact Or.inr ⟨d, rfl, deeper_add cost reader d⟩
  · exact Or.inl ⟨Nat.lt_of_not_le h, if_neg h⟩

/-- Whether an operand may come next is seen on the kind of the next token. -/
theorem expectOperand_eq (op : Operator) (ts : List Token) :
    expectOperand op ts =
      if (ts.head?.map (·.kind)).any startsOperand then .ok ()
      else .error (.fault (.missingOperand op (ts.head?.map (·.kind))) ts) := by
  cases ts <;> rfl

theorem expectOperand_cases (op : Operator) (ts : List Token) :
    expectOperand op ts = .ok () ∨ ∃ fault, expectOperand op ts = .error (.fault fault ts) := by
  rw [expectOperand_eq]
  split
  · exact Or.inl rfl
  · exact Or.inr ⟨_, rfl⟩

theorem expectOperand_ok_congr {us : List Token}
    (h : ts.head?.map (·.kind) = us.head?.map (·.kind))
    (hok : expectOperand op ts = .ok ()) : expectOperand op us = .ok () := by
  rw [expectOperand_eq, h] at hok
  rw [expectOperand_eq]
  split at hok
  · exact if_pos ‹_›
  · cases hok

theorem expectOperand_fault_congr {us : List Token} {fault : Fault}
    (h : ts.head?.map (·.kind) = us.head?.map (·.kind))
    (hf : expectOperand op ts = .error (.fault fault ts)) :
    expectOperand op us = .error (.fault fault us) := by
  rw [expectOperand_eq, h] at hf
  rw [expectOperand_eq]
  split at hf
  · cases hf
  · cases hf
    exact if_neg ‹_›

theorem tier_of_error (h : left ts = .error halt) :
    tier operator? left right ts = .error halt := by
  unfold tier
  rw [h]
  rfl

theorem tier_of_next?_eq_none (h : left ts = .ok (e, rest)) (hn : next? operator? rest = none) :
    tier operator? left right ts = .ok (e, rest) := by
  unfold tier
  rw [h]
  cases rest with
  | nil => rfl
  | cons t after =>
    have hn : operator? t.kind = none := hn
    simp only [bind, Except.bind, hn]
    rfl

/-- After an operator of the tier, an operand is expected and then read. -/
theorem tier_of_operator (h : left ts = .ok (l, t :: after)) (hop : operator? t.kind = some op) :
    tier operator? left right ts =
      (do
        expectOperand op after
        let (r, rest) ← right after
        return (.binary l op r, rest)) := by
  unfold tier
  rw [h]
  simp only [bind, Except.bind, hop]

theorem leaf_number {value : Binary64} (hk : t.kind = .number)
    (hv : Numeral.read? t.text = some value) : leaf nested (t :: ts) = .ok (.num value, ts) := by
  simp only [leaf, hk, hv]

theorem leaf_malformed (hk : t.kind = .number) (hv : Numeral.read? t.text = none) :
    leaf nested (t :: ts) = .error (.fault (.malformedNumber t.text) (t :: ts)) := by
  simp only [leaf, hk, hv]

theorem leaf_minus (hk : t.kind = .minus) :
    leaf nested (t :: ts) = (do
      let (inner, rest) ← nested ts
      return (.neg inner, rest)) := by
  simp only [leaf, hk]

theorem leaf_leftParen (hk : t.kind = .leftParen) :
    leaf nested (t :: ts) = (do
      let (inner, rest) ← nested ts
      closeBracket inner rest) := by
  simp only [leaf, hk]

theorem leaf_misplaced (hk : startsOperand t.kind = false) :
    leaf nested (t :: ts) = .error (.fault (.operandExpected (some t.kind)) (t :: ts)) := by
  cases h : t.kind <;> simp_all [leaf, startsOperand]

/-- An operand starts with a number, a minus or an opening bracket. -/
theorem startsOperand_iff {k : Token.Kind} :
    startsOperand k = true ↔ k = .number ∨ k = .minus ∨ k = .leftParen := by
  cases k <;> decide

theorem closeBracket_of_rightParen (hk : t.kind = .rightParen) :
    closeBracket e (t :: ts) = .ok (.group e, ts) := if_pos hk

theorem closeBracket_of_open (h : ∀ t ∈ ts.head?, t.kind ≠ .rightParen) :
    closeBracket e ts = .error (.fault .unclosedBracket ts) := by
  cases ts with
  | nil => rfl
  | cons t ts => exact if_neg (h t rfl)

/-- Either a closing bracket comes next, or the bracket stays open. -/
theorem closed_or_open (ts : List Token) :
    (∃ u rest, ts = u :: rest ∧ u.kind = .rightParen) ∨ ∀ u ∈ ts.head?, u.kind ≠ .rightParen := by
  cases ts with
  | nil => exact Or.inr fun u hu => absurd hu (by simp)
  | cons u rest =>
    by_cases hu : u.kind = .rightParen
    · exact Or.inl ⟨u, rest, rfl, hu⟩
    · refine Or.inr fun u' hu' => ?_
      obtain rfl := Option.some.inj hu'
      exact hu

end Reader

end Reckoner
