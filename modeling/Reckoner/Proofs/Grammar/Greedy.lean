import Reckoner.Proofs.Grammar.Derivation

/-!
# The parser reads the greedy tree

Of the trees of a sentence, a reader gives the greedy one. What decides where it stops is the
operator that follows: `tier.closed e op` says that the reader of a tier, with `e` read, has no room
for `op`, and a reading of `e` ends at `op` exactly if `e` is greedy before `op` and closed to it.

* **`reads_iff`**: the readings of a tier are the derivations with a greedy tree that is closed to
  the operator that follows and nested no deeper than the depth allows.
* **`parse_eq_ok_iff_greedy`**: a parse takes all the tokens and gives a tree exactly if it is the
  greedy tree of the tokens, and there is at most one.
-/

namespace Reckoner

/-! ## The tier of a tree -/

/-- Tiers that bind more have a higher rank. -/
def Tier.rank : Tier → Nat
  | additive => 0
  | multiplicative => 1
  | power => 2
  | leaf => 3

namespace Expr

/-- The tier of the operator at the root. -/
def tier? : Expr → Option Tier
  | binary _ op _ => op.tier?
  | _ => none

/-- The depth that reading the tree takes. -/
def nesting : Expr → Nat
  | num _ => 0
  | binary l op r => max l.nesting (r.nesting + (op.tier?.map Tier.cost).getD 0)
  | group inner => inner.nesting + 8
  | neg inner => inner.nesting + 8
  | foreign _ => 0

theorem nesting_binary {op : Operator} {root : Tier} (h : op.tier? = some root) (l r : Expr) :
    (binary l op r).nesting = max l.nesting (r.nesting + root.cost) := by
  rw [nesting, h]
  rfl

theorem isSum_eq_false {e : Expr} (h : e.tier? ≠ some .additive) : e.isSum = false := by
  cases e with
  | binary l op r =>
    cases op with
    | add | sub => exact absurd rfl h
    | _ => rfl
  | _ => rfl

theorem isProduct_eq_false {e : Expr} (h : e.tier? ≠ some .multiplicative) :
    e.isProduct = false := by
  cases e with
  | binary l op r =>
    cases op with
    | mul | div | mod => exact absurd rfl h
    | _ => rfl
  | _ => rfl

theorem lastSummand_of_isSum {e : Expr} (h : e.isSum = false) : e.lastSummand = e := by
  cases e with
  | binary l op r =>
    have h : op.isAdditive = false := h
    exact if_neg (by rw [h]; exact Bool.false_ne_true)
  | _ => rfl

end Expr

variable {tier left right : Tier} {depth : Nat} {ts rest : List Token} {e l r : Expr} {t : Token}
  {op next : Operator}

/-- No sentence has a root of a tier that binds less than its own. -/
theorem Derives.rank_le (h : Derives tier ts e) :
    ∀ root, e.tier? = some root → tier.rank ≤ root.rank := by
  induction h using Derives.rule_induction with
  | @pass tier left right _ _ operands _ ih =>
    intro root hroot
    have : tier.rank ≤ left.rank := by
      cases tier <;> cases operands <;> decide
    exact Nat.le_trans this (ih root hroot)
  | @binary tier _ _ _ _ _ _ _ _ _ _ operator _ _ _ =>
    intro root hroot
    cases (Tier.tier?_of_operator? operator).symm.trans hroot
    exact Nat.le_refl _
  | number | neg | group =>
    intro root hroot
    cases hroot

/-- An operand of a tier has no operator of the tier at its root, unless in brackets. -/
theorem Derives.tier?_ne (operands : tier.operands? = some (left, right))
    (h : Derives left ts e) : e.tier? ≠ some tier := by
  intro he
  have hle := h.rank_le tier he
  cases tier <;> cases operands <;> exact absurd hle (by decide)

/-- A sentence of a tier whose root is of another tier is one of the tier below. -/
theorem Derives.descend (operands : tier.operands? = some (left, right)) (h : Derives tier ts e)
    (he : e.tier? ≠ some tier) : Derives left ts e := by
  cases h with
  | ofMultiplicative h | ofPower h | ofLeaf h =>
    cases operands
    exact h
  | additive _ operator | multiplicative _ operator | power _ operator =>
    exact absurd (Tier.tier?_of_operator? (by exact operator)) he
  | number | neg | group => cases operands

/-! ## Room for an operator -/

/-- The reader of the tier, with the tree read, has no room for the operator. -/
def Tier.closed : Tier → Expr → Operator → Bool
  | additive, e, op => e.closedTo op
  | multiplicative, e, op => op.isAdditive || (op.isMultiplicative && e.isProduct)
  | power, _, op => op.isAdditive || op.isMultiplicative
  | leaf, _, _ => true

/-- A tree read as one operand leaves room for the operators of the tier, and else for the same. -/
theorem Tier.closed_pass (operands : tier.operands? = some (left, right)) (he : e.tier? ≠ some tier)
    {root : Tier} (hop : op.tier? = some root) :
    tier.closed e op = true ↔ left.closed e op = true ∧ root ≠ tier := by
  cases tier <;> cases operands
  · have hs := Expr.isSum_eq_false he
    cases op <;> cases hop <;>
      simp [closed, Expr.closedTo, hs, Expr.lastSummand_of_isSum, Operator.isAdditive,
        Operator.isMultiplicative]
  · have hp := Expr.isProduct_eq_false he
    cases op <;> cases hop <;>
      simp [closed, hp, Operator.isAdditive, Operator.isMultiplicative]
  · cases op <;> cases hop <;> simp [closed, Operator.isAdditive, Operator.isMultiplicative]

/-- With an operator of the tier applied, the room is that of the right operand. -/
theorem Tier.closed_binary (operands : tier.operands? = some (left, right))
    (hop : op.tier? = some tier) (l r : Expr) (next : Operator) :
    tier.closed (.binary l op r) next = right.closed r next := by
  cases tier <;> cases operands <;> cases op <;> cases hop <;>
    simp [closed, Expr.closedTo, Expr.isSum, Expr.isProduct, Expr.lastSummand,
      Operator.isAdditive, Operator.isMultiplicative]

/-- There is no room for an operator of the tier within its left operand. -/
theorem Tier.closed_left (operands : tier.operands? = some (left, right))
    (hop : op.tier? = some tier) (l : Expr) : left.closed l op = true := by
  cases tier <;> cases operands <;> cases op <;> cases hop <;>
    simp [closed, Operator.isAdditive, Operator.isMultiplicative]

/-! ## Readings and derivations -/

/-- The operator that the tokens start with, of whatever tier. -/
def nextOperator : List Token → Option Operator := Reader.next? Operator.ofKind?

theorem nextOperator_of_operator? (h : tier.operator? t.kind = some op) (ts : List Token) :
    nextOperator (t :: ts) = some op :=
  (Tier.operator?_eq_some_iff.mp h).1

theorem nextOperator_rightParen (h : t.kind = .rightParen) (ts : List Token) :
    nextOperator (t :: ts) = none := by
  change Operator.ofKind? t.kind = none
  rw [h]
  rfl

/-- The tokens start with no operator of the tier exactly if they start with none or with one of
another tier. -/
theorem next?_eq_none_iff :
    Reader.next? tier.operator? ts = none ↔
      ∀ op, nextOperator ts = some op → op.tier? ≠ some tier := by
  cases ts with
  | nil => simp [nextOperator, Reader.next?]
  | cons t ts =>
    change tier.operator? t.kind = none ↔ ∀ op, Operator.ofKind? t.kind = some op → _
    rw [Tier.operator?_eq_filter, Option.filter_eq_none_iff]
    simp

/-- Every operator that the tokens can start with has a tier. -/
theorem exists_tier_of_nextOperator (h : nextOperator ts = some op) :
    ∃ root, op.tier? = some root := by
  obtain ⟨t, -, hk⟩ := Option.bind_eq_some_iff.mp h
  cases hkind : t.kind <;> rw [hkind] at hk <;> cases hk <;> exact ⟨_, rfl⟩

/-- **What a reader takes is a sentence with the greedy tree**, closed to what follows. -/
theorem Reads.greedy (h : Reads tier depth ts e rest) :
    e.Greedy (nextOperator rest) ∧ ∀ op, nextOperator rest = some op → tier.closed e op = true := by
  induction h with
  | @pass tier left right depth ts rest e operands operand stop ih =>
    refine ⟨ih.1, fun op hop => ?_⟩
    obtain ⟨root, hroot⟩ := exists_tier_of_nextOperator hop
    obtain ⟨taken, -, hd⟩ := operand.derives
    refine (Tier.closed_pass operands (hd.tier?_ne operands) hroot).mpr ⟨ih.2 op hop, ?_⟩
    rintro rfl
    exact next?_eq_none_iff.mp stop op hop hroot
  | @binary tier left right depth ts after rest t l r op operands _ operator _ _ ihl ihr =>
    rw [nextOperator_of_operator? operator after] at ihl
    refine ⟨⟨ihl.1, ihr.1⟩, fun next hnext => ?_⟩
    rw [Tier.closed_binary operands (Tier.tier?_of_operator? operator)]
    exact ihr.2 next hnext
  | number => exact ⟨trivial, fun _ _ => rfl⟩
  | neg _ _ ih => exact ⟨⟨ih.1, Option.all_eq_true _ _ |>.mpr ih.2⟩, fun _ _ => rfl⟩
  | @group _ _ rest _ _ _ _ _ closing ih =>
    rw [nextOperator_rightParen closing rest] at ih
    exact ⟨ih.1, fun _ _ => rfl⟩

/-- A reading has depth enough for the tree. -/
theorem Reads.nesting_le (h : Reads tier depth ts e rest) : e.nesting ≤ depth := by
  induction h with
  | pass _ _ _ ih => exact ih
  | @binary tier _ _ depth _ _ _ _ l r op _ _ operator _ _ ihl ihr =>
    rw [Expr.nesting_binary (Tier.tier?_of_operator? operator)]
    exact Nat.max_le.mpr ⟨ihl, Nat.add_le_add_right ihr _⟩
  | number => exact Nat.zero_le _
  | neg _ _ ih | group _ _ _ ih => exact Nat.add_le_add_right ih 8

/-- **A greedy tree is read**, up to an operator to which it is closed. -/
theorem Derives.reads (h : Derives tier ts e) :
    ∀ {depth rest}, e.Greedy (nextOperator rest) →
      (∀ op, nextOperator rest = some op → tier.closed e op = true) → e.nesting ≤ depth →
        Reads tier depth (ts ++ rest) e rest := by
  induction h using Derives.rule_induction with
  | @pass tier left right ts e operands h ih =>
    intro depth rest hg hc hn
    have hclosed : ∀ op, nextOperator rest = some op →
        left.closed e op = true ∧ op.tier? ≠ some tier := by
      intro op hop
      obtain ⟨root, hroot⟩ := exists_tier_of_nextOperator hop
      have := (Tier.closed_pass operands (h.tier?_ne operands) hroot).mp (hc op hop)
      exact ⟨this.1, fun he => this.2 (Option.some.inj (hroot.symm.trans he))⟩
    have operand : Reads left depth (ts ++ rest) e rest :=
      ih hg (fun op hop => (hclosed op hop).1) hn
    have stop : Reader.next? tier.operator? rest = none :=
      next?_eq_none_iff.mpr fun op hop => (hclosed op hop).2
    exact Reads.pass operands operand stop
  | @binary tier left right ls rs l r t op operands hl operator hr ihl ihr =>
    intro depth rest hg hc hn
    have htier := Tier.tier?_of_operator? operator
    have hnext := nextOperator_of_operator? operator (rs ++ rest)
    rw [Expr.nesting_binary htier] at hn
    obtain ⟨hnl, hnr⟩ := Nat.max_le.mp hn
    obtain ⟨d, rfl, hd⟩ := exists_add_of_add_le hnr
    have first : Reads left (d + tier.cost) (ls ++ t :: (rs ++ rest)) l (t :: (rs ++ rest)) := by
      refine ihl ?_ ?_ hnl
      · rw [hnext]
        exact hg.1
      · rintro op' hop'
        cases hnext.symm.trans hop'
        exact Tier.closed_left operands htier l
    have second : Reads right d (rs ++ rest) r rest := by
      refine ihr hg.2 (fun next hnext => ?_) hd
      rw [← Tier.closed_binary operands htier l r next]
      exact hc next hnext
    rw [List.append_assoc, List.cons_append]
    exact Reads.binary operands first operator (hr.expectOperand op rest) second
  | number kind text =>
    intro depth rest _ _ _
    exact Reads.number kind text
  | neg kind _ ih =>
    intro depth rest hg _ hn
    obtain ⟨d, rfl, hd⟩ := exists_add_of_add_le hn
    exact Reads.neg kind (ih hg.1 (Option.all_eq_true _ _ |>.mp hg.2) hd)
  | @group t u ts e opening _ closing ih =>
    intro depth rest hg _ hn
    obtain ⟨d, rfl, hd⟩ := exists_add_of_add_le hn
    have hnext := nextOperator_rightParen closing rest
    have nested : Reads .additive d (ts ++ u :: rest) e (u :: rest) := by
      refine ih ?_ ?_ hd
      · rw [hnext]
        exact hg
      · intro op hop
        cases hnext.symm.trans hop
    rw [List.cons_append, List.append_assoc]
    exact Reads.group opening nested closing

/-- **The readings of a tier**: the derivations with a greedy tree that is closed to the operator
that follows and not nested too deep. -/
theorem reads_iff :
    Reads tier depth ts e rest ↔
      ∃ taken, ts = taken ++ rest ∧ Derives tier taken e ∧ e.Greedy (nextOperator rest) ∧
        (∀ op, nextOperator rest = some op → tier.closed e op = true) ∧ e.nesting ≤ depth := by
  constructor
  · intro h
    obtain ⟨taken, htaken, hd⟩ := h.derives
    exact ⟨taken, htaken, hd, h.greedy.1, h.greedy.2, h.nesting_le⟩
  · rintro ⟨taken, rfl, hd, hg, hc, hn⟩
    exact hd.reads hg hc hn

/-- A tree that is greedy before an operator is greedy before the end. -/
theorem Expr.Greedy.at_end {next : Option Operator} (h : e.Greedy next) : e.Greedy none := by
  induction e generalizing next with
  | num | foreign => trivial
  | binary l op r _ ihr => exact ⟨h.1, ihr h.2⟩
  | group => exact h
  | neg inner ih => exact ⟨ih h.1, rfl⟩

/-- A reading stands with other tokens after it, if they start with no operator or with the same. -/
theorem Reads.followed {taken rest' : List Token} (h : Reads tier depth (taken ++ rest) e rest)
    (hnext : nextOperator rest' = none ∨ nextOperator rest' = nextOperator rest) :
    Reads tier depth (taken ++ rest') e rest' := by
  obtain ⟨taken', htaken, hd, hg, hc, hn⟩ := reads_iff.mp h
  obtain rfl : taken = taken' := List.append_cancel_right htaken
  rcases hnext with hnone | hsame
  · refine hd.reads ?_ (fun op hop => ?_) hn
    · rw [hnone]
      exact hg.at_end
    · cases hnone.symm.trans hop
  · refine hd.reads ?_ ?_ hn
    · rw [hsame]
      exact hg
    · rw [hsame]
      exact hc

/-! ## Negations in their place -/

namespace Expr

/-- The number of tokens of a tree. -/
def width : Expr → Nat
  | num _ | foreign _ => 1
  | binary l _ r => l.width + 1 + r.width
  | group inner => inner.width + 2
  | neg inner => inner.width + 1

/-- What the negations in a tree negate, each with the index after its last token. `start` is the
index of the first token of the tree. -/
def negations : Nat → Expr → List (Expr × Nat)
  | start, binary l _ r => l.negations start ++ r.negations (start + l.width + 1)
  | start, group inner => inner.negations (start + 1)
  | start, neg inner => (inner, start + 1 + inner.width) :: inner.negations (start + 1)
  | _, num _ | _, foreign _ => []

end Expr

/-- What is negated is closed to the operator that follows the negation, if one does. -/
def ClosedIn (ts : List Token) (p : Expr × Nat) : Prop :=
  ∀ op, nextOperator (ts.drop p.2) = some op → p.1.closedTo op = true

/-- A tree of the tokens in which no negation is followed by an operator that what it negates could
have taken. -/
def IsGreedyTree (ts : List Token) (e : Expr) : Prop :=
  Derives .additive ts e ∧ ∀ p ∈ e.negations 0, ClosedIn ts p

theorem Derives.width_eq (h : Derives tier ts e) : e.width = ts.length := by
  induction h using Derives.rule_induction with
  | pass _ _ ih => exact ih
  | binary _ _ _ _ ihl ihr =>
    rw [List.length_append, List.length_cons, Expr.width, ihl, ihr]
    omega
  | number => rfl
  | neg _ _ ih => exact congrArg (· + 1) ih
  | group _ _ _ ih =>
    rw [List.length_cons, List.length_append, Expr.width, ih]
    rfl

/-- The tokens after those at an index. -/
theorem drop_add_of_drop_eq {all : List Token} {start : Nat} (h : all.drop start = ts ++ rest) :
    all.drop (start + ts.length) = rest := by
  rw [← List.drop_drop, h, List.drop_left]

/-- **Greediness, token by token.** A tree is greedy exactly if each negation in it is closed to the
operator that follows it among all the tokens. -/
theorem Derives.greedy_iff (h : Derives tier ts e) {all : List Token} :
    ∀ {start rest}, all.drop start = ts ++ rest →
      (e.Greedy (nextOperator rest) ↔ ∀ p ∈ e.negations start, ClosedIn all p) := by
  induction h using Derives.rule_induction with
  | pass _ _ ih => exact ih
  | @binary _ _ _ ls rs l r t op _ hl operator _ ihl ihr =>
    intro start rest hall
    rw [List.append_assoc, List.cons_append] at hall
    have hnext := nextOperator_of_operator? operator (rs ++ rest)
    have hright : all.drop (start + l.width + 1) = rs ++ rest := by
      have := drop_add_of_drop_eq hall
      rw [hl.width_eq, ← List.drop_drop, this, List.drop_succ_cons, List.drop_zero]
    change l.Greedy (some op) ∧ r.Greedy _ ↔ ∀ p ∈ l.negations start ++ r.negations _, _
    rw [List.forall_mem_append, ← hnext, ihl hall, ihr hright]
  | number =>
    intro start rest _
    exact iff_of_true trivial fun p hp => absurd hp List.not_mem_nil
  | @neg t ts inner _ hinner ih =>
    intro start rest hall
    have hnested : all.drop (start + 1) = ts ++ rest := by
      rw [← List.drop_drop, hall, List.cons_append, List.drop_succ_cons, List.drop_zero]
    have hclosed : (nextOperator rest).all inner.closedTo = true ↔
        ClosedIn all (inner, start + 1 + inner.width) := by
      unfold ClosedIn
      rw [hinner.width_eq, drop_add_of_drop_eq hnested, Option.all_eq_true]
    change inner.Greedy _ ∧ _ ↔ ∀ p ∈ (inner, start + 1 + inner.width) :: inner.negations _, _
    rw [List.forall_mem_cons, ih hnested, hclosed, and_comm]
  | @group t u ts inner _ _ closing ih =>
    intro start rest hall
    have hnested : all.drop (start + 1) = ts ++ (u :: rest) := by
      rw [← List.drop_drop, hall, List.cons_append, List.drop_succ_cons, List.drop_zero,
        List.append_assoc, List.singleton_append]
    have hiff := ih hnested
    rw [nextOperator_rightParen closing rest] at hiff
    exact hiff

theorem isGreedyTree_iff : IsGreedyTree ts e ↔ Derives .additive ts e ∧ e.Greedy none := by
  refine and_congr_right fun h => ?_
  have hall : ts.drop 0 = ts ++ [] := (List.append_nil ts).symm
  exact (h.greedy_iff hall).symm

/-! ## Parses -/

/-- All the tokens of a greedy tree are read. -/
theorem Derives.reads_all (h : Derives tier ts e) (hg : e.Greedy none) :
    Reads tier e.nesting ts e [] := by
  have hr : Reads tier e.nesting (ts ++ []) e [] :=
    h.reads hg (fun op hop => absurd hop (Option.some_ne_none op).symm) (Nat.le_refl _)
  rwa [List.append_nil] at hr

/-- A greedy tree is parsed exactly within the limits that are not below its nesting. -/
theorem Derives.parseWithin_eq (h : Derives .additive ts e) (hg : e.Greedy none) (depth : Nat) :
    Expr.parseWithin depth ts =
      if e.nesting ≤ depth then .ok ⟨e, []⟩ else .error (.nestedTooDeeply ts) := by
  have hr := h.reads_all hg
  split
  · rename_i hle
    exact parseWithin_eq_ok_iff.mpr (hr.mono hle)
  · rename_i hlt
    by_cases hp : Expr.parseWithin depth ts = .error (.nestedTooDeeply ts)
    · exact hp
    · exact absurd (parseWithin_eq_ok_iff.mp (hr.parseWithin_eq hp)).nesting_le hlt

/-- **A parse gives the greedy tree.** Unless it goes too deep, a parse takes all the tokens and
gives a tree exactly if that is a tree of the tokens in which no negation is followed by an operator
that what it negates could have taken; and tokens have one such tree at most. -/
theorem parse_eq_ok_iff_greedy (ts : List Token)
    (h : Expr.parse ts ≠ .error (.nestedTooDeeply ts)) :
    (∀ e, Expr.parse ts = .ok ⟨e, []⟩ ↔ IsGreedyTree ts e) ∧
      ∀ e e', IsGreedyTree ts e → IsGreedyTree ts e' → e = e' := by
  simp only [isGreedyTree_iff]
  refine ⟨fun e => ⟨fun he => ?_, fun ⟨hd, hg⟩ => ?_⟩, fun e e' he he' => ?_⟩
  · have hr := parseWithin_eq_ok_iff.mp he
    exact ⟨hr.derives_all, hr.greedy.1⟩
  · have hr := hd.reads_all hg
    rcases reads_or_stops_of_parseWithin h with ⟨e', rest, hr'⟩ | ⟨fault, rest, hs⟩
    · obtain ⟨rfl, rfl⟩ := hr.unique hr'
      exact parseWithin_eq_ok_iff.mpr hr'
    · exact absurd hs hr.not_stops
  · exact ((he.1.reads_all he.2).unique (he'.1.reads_all he'.2)).1

/-- In `- 1 + 2 + 3`, the first plus is inside the negation and the second outside. -/
theorem parse_eq_ok_iff_greedy_chain :
    let ts : List Token := [⟨.minus, "-"⟩, ⟨.number, "1"⟩, ⟨.plus, "+"⟩, ⟨.number, "2"⟩,
      ⟨.plus, "+"⟩, ⟨.number, "3"⟩]
    Expr.parse ts ≠ .error (.nestedTooDeeply ts) ∧
      ∃ a b c, IsGreedyTree ts
        (.binary (.neg (.binary (.num a) .add (.num b))) .add (.num c)) := by
  intro ts
  have hts : Expr.parse ts ≠ .error (.nestedTooDeeply ts) :=
    parseWithin_ne_nestedTooDeeply (by decide) ts
  exact ⟨hts, _, _, _, ((parse_eq_ok_iff_greedy ts hts).1 _).mp rfl⟩

end Reckoner
