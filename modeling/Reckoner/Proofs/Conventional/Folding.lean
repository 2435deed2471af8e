import Reckoner.Expr.Conventional
import Reckoner.Proofs.Reader.Tiers

/-!
# Conventional derivations

The grammar of the conventional reading lets an operator of the two upper tiers take a chain of its
own tier on the left, and has no unary minus. `Folds tier ts e` are its derivations.

The reading goes through a chain from the left and hands on what it has applied so far, while a
derivation ends with the last operator. What a chain still does with the rest of the tokens is
therefore stated for a tree that has been read, `Ends`, and a derivation that is found hands its
tree over to it.

* **`parse?_eq_some_iff`**: the conventional reading of all the tokens is their conventional
  derivation. So the counts of steps and levels that bound the reading never cut it short.
-/

namespace Reckoner

/-- What stands on the left of an operator: a chain of the same tier, or the base of a power. -/
def Tier.chained : Tier → Tier
  | additive => additive
  | multiplicative => multiplicative
  | power | leaf => leaf

/-- The derivations of the conventional grammar. -/
inductive Folds : Tier → List Token → Expr → Prop where
  | pass {tier left right : Tier} {ts : List Token} {e : Expr}
      (operands : tier.operands? = some (left, right)) (h : Folds left ts e) : Folds tier ts e
  | binary {tier left right : Tier} {ls rs : List Token} {l r : Expr} {t : Token} {op : Operator}
      (operands : tier.operands? = some (left, right)) (hl : Folds tier.chained ls l)
      (operator : tier.operator? t.kind = some op) (hr : Folds right rs r) :
      Folds tier (ls ++ t :: rs) (.binary l op r)
  | number {t : Token} {value : Binary64} (kind : t.kind = .number)
      (text : Numeral.read? t.text = some value) : Folds .leaf [t] (.num value)
  | group {t u : Token} {ts : List Token} {e : Expr} (opening : t.kind = .leftParen)
      (inner : Folds .additive ts e) (closing : u.kind = .rightParen) :
      Folds .leaf (t :: (ts ++ [u])) (.group e)

namespace Conventional

variable {tier right : Tier} {operator? : Token.Kind → Option Operator}
  {operand nested powers : Reading} {ts ls rest : List Token} {e l r : Expr} {t : Token}
  {op : Operator} {levels steps : Nat} {result : Expr × List Token}

/-! ## What is read is derived -/

/-- What the reading takes is a conventional sentence of the tier. -/
def Sound (tier : Tier) (reading : Reading) : Prop :=
  ∀ ts e rest, reading ts = some (e, rest) → ∃ taken, ts = taken ++ rest ∧ Folds tier taken e

/-- A chain that starts with a sentence of the tier goes on to one. -/
theorem Sound.chainFrom (h : Sound right operand) (operands : tier.operands? = some (right, right))
    (chained : tier.chained = tier) (hl : Folds tier ls l)
    (hread : Conventional.chainFrom tier.operator? operand steps l ts = some (e, rest)) :
    ∃ more, ts = more ++ rest ∧ Folds tier (ls ++ more) e := by
  induction steps generalizing ls l ts with
  | zero => cases hread
  | succ steps ih =>
    cases ts with
    | nil =>
      cases hread
      exact ⟨[], rfl, by rwa [List.append_nil]⟩
    | cons t ts =>
      unfold Conventional.chainFrom at hread
      split at hread
      · cases hread
        exact ⟨[], rfl, by rwa [List.append_nil]⟩
      · rename_i op operator
        obtain ⟨⟨r, after⟩, hr, hrest⟩ := Option.bind_eq_some_iff.mp hread
        obtain ⟨rs, rfl, hrs⟩ := h _ _ _ hr
        have hbinary : Folds tier (ls ++ t :: rs) (.binary l op r) :=
          Folds.binary operands (chained.symm ▸ hl) operator hrs
        obtain ⟨more, rfl, hmore⟩ := ih hbinary hrest
        refine ⟨t :: rs ++ more, ?_, ?_⟩
        · rw [List.append_assoc, List.cons_append]
        · rwa [← List.append_assoc]

theorem Sound.chain (h : Sound right operand) (operands : tier.operands? = some (right, right))
    (chained : tier.chained = tier) : Sound tier (Conventional.chain tier.operator? operand) := by
  intro ts e rest hread
  obtain ⟨⟨l, after⟩, hl, hrest⟩ := Option.bind_eq_some_iff.mp hread
  obtain ⟨ls, rfl, hls⟩ := h _ _ _ hl
  obtain ⟨more, rfl, hmore⟩ := h.chainFrom operands chained (Folds.pass operands hls) hrest
  exact ⟨ls ++ more, (List.append_assoc ..).symm, hmore⟩

theorem Sound.expressionOf (h : Sound .power powers) :
    Sound .additive (Conventional.expressionOf powers) := by
  have hmultiplicative : Sound .multiplicative (Conventional.chain Operator.multiplicative? powers) :=
    h.chain rfl rfl
  exact hmultiplicative.chain rfl rfl

theorem Sound.leaf (h : Sound .additive nested) : Sound .leaf (Conventional.leaf nested) := by
  intro ts e rest hread
  cases ts with
  | nil => cases hread
  | cons t ts =>
    simp only [Conventional.leaf] at hread
    split at hread
    · rename_i kind
      obtain ⟨value, text, heq⟩ := Option.map_eq_some_iff.mp hread
      cases heq
      exact ⟨[t], rfl, Folds.number kind text⟩
    · rename_i opening
      split at hread
      · rename_i inner u after hinner
        obtain ⟨taken, rfl, hd⟩ := h _ _ _ hinner
        split at hread <;> cases hread
        rename_i closing
        exact ⟨t :: (taken ++ [u]), by simp, Folds.group opening hd closing⟩
      · cases hread
    · cases hread

theorem sound_power (levels : Nat) : Sound .power (power levels) := by
  induction levels with
  | zero => exact fun _ _ _ hread => by cases hread
  | succ levels ih =>
    intro ts e rest hread
    unfold power at hread
    split at hread
    · rename_i l t after hl
      obtain ⟨ls, rfl, hls⟩ := ih.expressionOf.leaf _ _ _ hl
      split at hread
      · rename_i kind
        obtain ⟨⟨r, rest'⟩, hr, heq⟩ := Option.map_eq_some_iff.mp hread
        cases heq
        obtain ⟨rs, rfl, hrs⟩ := ih _ _ _ hr
        have operator : Tier.power.operator? t.kind = some .pow := by
          rw [kind]
          rfl
        refine ⟨ls ++ t :: rs, ?_, Folds.binary rfl hls operator hrs⟩
        rw [List.append_assoc, List.cons_append]
      · cases hread
        exact ⟨ls, rfl, Folds.pass rfl hls⟩
    · obtain ⟨taken, rfl, hd⟩ := ih.expressionOf.leaf _ _ _ hread
      exact ⟨taken, rfl, Folds.pass rfl hd⟩

/-! ## What is derived is read -/

/-- With the tree read, a chain over the rest of the tokens has that result. -/
def Ends (operator? : Token.Kind → Option Operator) (operand : Reading) (e : Expr)
    (rest : List Token) (result : Expr × List Token) : Prop :=
  ∀ steps, rest.length < steps → chainFrom operator? operand steps e rest = some result

/-- A chain ends where none of its operators follows. -/
theorem Ends.of_next?_eq_none (h : Reader.next? operator? rest = none) :
    Ends operator? operand e rest (e, rest) := by
  intro steps hsteps
  obtain ⟨steps, rfl⟩ := Nat.exists_eq_add_of_lt hsteps
  cases rest with
  | nil => rfl
  | cons t rest =>
    have h : operator? t.kind = none := h
    simp only [chainFrom, h]

/-- A chain goes on with an operator and its right operand. -/
theorem Ends.step (operator : operator? t.kind = some op) (hr : operand (ls ++ rest) = some (r, rest))
    (h : Ends operator? operand (.binary l op r) rest result) :
    Ends operator? operand l (t :: (ls ++ rest)) result := by
  intro steps hsteps
  obtain ⟨steps, rfl⟩ : ∃ k, steps = k + 1 := ⟨steps - 1, by omega⟩
  have hlength : rest.length < steps := by
    rw [List.length_cons, List.length_append] at hsteps
    omega
  simp only [chainFrom, operator, hr]
  exact h steps hlength

theorem Ends.chain (hl : operand (ts ++ rest) = some (l, rest))
    (h : Ends operator? operand l rest result) :
    Conventional.chain operator? operand (ts ++ rest) = some result := by
  unfold Conventional.chain
  rw [hl]
  refine h _ ?_
  rw [List.length_append]
  omega

/-- The sentence is found by the reading of its tier, with levels enough, before tokens that start
with no operator of a tier below. In the upper tiers, the chain goes on from there. -/
def Finds : Tier → List Token → Expr → Prop
  | .additive, ts, e => ∀ levels rest result, ts.length ≤ levels →
      Reader.next? Operator.multiplicative? rest = none → Reader.next? Operator.power? rest = none →
      Ends Operator.additive? (chain Operator.multiplicative? (power levels)) e rest result →
        expressionOf (power levels) (ts ++ rest) = some result
  | .multiplicative, ts, e => ∀ levels rest result, ts.length ≤ levels →
      Reader.next? Operator.power? rest = none →
      Ends Operator.multiplicative? (power levels) e rest result →
        chain Operator.multiplicative? (power levels) (ts ++ rest) = some result
  | .power, ts, e => ∀ levels rest, ts.length ≤ levels →
      Reader.next? Operator.power? rest = none → power levels (ts ++ rest) = some (e, rest)
  | .leaf, ts, e => ∀ levels rest, ts.length ≤ levels + 1 →
      leaf (expressionOf (power levels)) (ts ++ rest) = some (e, rest)

/-- A token is an operator of at most one tier. -/
theorem next?_eq_none_of_operator? (other : Tier) (operator : tier.operator? t.kind = some op)
    (hne : tier ≠ other) : Reader.next? other.operator? (t :: rest) = none := by
  change other.operator? t.kind = none
  cases h : other.operator? t.kind with
  | none => rfl
  | some op' => exact absurd (Tier.operator?_unique operator h).1 hne

theorem next?_rightParen (tier : Tier) (kind : t.kind = .rightParen) :
    Reader.next? tier.operator? (t :: rest) = none := by
  change tier.operator? t.kind = none
  rw [kind]
  cases tier <;> rfl

end Conventional

open Conventional

variable {tier left right : Tier} {ts ls rs : List Token} {e l r : Expr} {t : Token} {op : Operator}

theorem Folds.ne_nil (h : Folds tier ts e) : ts ≠ [] := by
  induction h with
  | pass _ _ ih => exact ih
  | binary | number | group => simp

/-- The base of a power, before anything but a caret. -/
theorem Conventional.Finds.power_of_leaf (hne : ts ≠ []) (h : Finds .leaf ts e) :
    Finds .power ts e := by
  intro levels rest hlength hpower
  obtain ⟨levels, rfl⟩ : ∃ k, levels = k + 1 := by
    refine ⟨levels - 1, ?_⟩
    have := List.length_pos_iff.mpr hne
    omega
  unfold power
  rw [h levels rest hlength]
  cases rest with
  | nil => rfl
  | cons t rest =>
    have hkind : t.kind ≠ .power := by
      intro hk
      have hpower : Operator.power? t.kind = none := hpower
      rw [hk] at hpower
      cases hpower
    exact if_neg hkind

theorem Conventional.Finds.power_of_operator (hne : ls ≠ []) (hl : Finds .leaf ls l)
    (operator : Tier.power.operator? t.kind = some op) (hr : Finds .power rs r) :
    Finds .power (ls ++ t :: rs) (.binary l op r) := by
  intro levels rest hlength hpower
  rw [List.length_append, List.length_cons] at hlength
  have := List.length_pos_iff.mpr hne
  obtain ⟨levels, rfl⟩ : ∃ k, levels = k + 1 := ⟨levels - 1, by omega⟩
  obtain ⟨hkind, rfl⟩ : t.kind = .power ∧ op = .pow := by
    cases hk : t.kind <;> rw [hk] at operator <;> cases operator
    exact ⟨rfl, rfl⟩
  rw [List.append_assoc, List.cons_append]
  unfold power
  rw [hl levels _ (by omega)]
  simp only [hkind, if_true, hr levels rest (by omega) hpower, Option.map_some]

/-- **A conventional sentence is found.** -/
theorem Folds.finds (h : Folds tier ts e) : Finds tier ts e := by
  induction h with
  | @pass tier left right ts e operands h ih =>
    cases tier <;> cases operands
    · intro levels rest result hlength hmultiplicative hpower hends
      exact hends.chain (ih levels rest _ hlength hpower (Ends.of_next?_eq_none hmultiplicative))
    · intro levels rest result hlength hpower hends
      exact hends.chain (ih levels rest hlength hpower)
    · exact Finds.power_of_leaf h.ne_nil ih
  | @binary tier left right ls rs l r t op operands hl operator hr ihl ihr =>
    -- The chain on the left hands `l` over at the operator, and goes on with the right operand.
    cases tier <;> cases operands
    · intro levels rest result hlength hmultiplicative hpower hends
      rw [List.length_append, List.length_cons] at hlength
      have hright := ihr levels rest _ (by omega) hpower (Ends.of_next?_eq_none hmultiplicative)
      rw [List.append_assoc, List.cons_append]
      exact ihl levels _ _ (by omega)
        (next?_eq_none_of_operator? .multiplicative operator (by decide))
        (next?_eq_none_of_operator? .power operator (by decide))
        (Ends.step operator hright hends)
    · intro levels rest result hlength hpower hends
      rw [List.length_append, List.length_cons] at hlength
      have hright := ihr levels rest (by omega) hpower
      rw [List.append_assoc, List.cons_append]
      exact ihl levels _ _ (by omega)
        (next?_eq_none_of_operator? .power operator (by decide))
        (Ends.step operator hright hends)
    · exact Finds.power_of_operator hl.ne_nil ihl operator ihr
  | @number t value kind text =>
    intro levels rest _
    change leaf _ (t :: rest) = _
    simp only [leaf, kind, text, Option.map_some]
  | @group t u ts e opening inner closing ih =>
    intro levels rest hlength
    rw [List.length_cons, List.length_append, List.length_singleton] at hlength
    have hinner : expressionOf (power levels) (ts ++ u :: rest) = some (e, u :: rest) :=
      ih levels _ _ (by omega) (next?_rightParen .multiplicative closing)
        (next?_rightParen .power closing) (Ends.of_next?_eq_none (next?_rightParen .additive closing))
    rw [List.cons_append, List.append_assoc]
    change leaf _ (t :: (ts ++ u :: rest)) = _
    simp only [leaf, opening, hinner, closing, if_true]

/-- **The conventional reading is the conventional derivation.** -/
theorem Conventional.parse?_eq_some_iff : parse? ts = some e ↔ Folds .additive ts e := by
  constructor
  · intro h
    unfold parse? at h
    split at h
    · rename_i hread
      cases h
      obtain ⟨taken, rfl, hd⟩ := (sound_power _).expressionOf _ _ _ hread
      rwa [List.append_nil]
    · cases h
  · intro h
    have hread : expressionOf (power (ts.length + 1)) (ts ++ []) = some (e, []) :=
      h.finds _ _ _ (Nat.le_succ _) rfl rfl (Ends.of_next?_eq_none rfl)
    rw [List.append_nil] at hread
    unfold parse?
    rw [hread]

end Reckoner
