import Reckoner.Expr.Describe
import Reckoner.Expr.Offender

/-!
# When the walks through a tree succeed

Both walks fail only at a level that is too deep, at a foreign leaf or at an operator without a
meaning. On a tree that is not too high, a walk therefore ends with the first offender in its order,
and if there is none with a result.

* **`evaluateWithin_cases`**, **`describeWithin_cases`**: the two ends of each walk.
* `exists_evaluateWithin`, `exists_describeWithin`: a tree without offenders has a value and a
  description.
-/

namespace Reckoner

/-- An operator with a meaning applies to all numbers; one without is an offender. -/
theorem Operator.apply_cases (op : Operator) (a b : Binary64) :
    (op.offences = [] ∧ ∃ value, op.apply a b = .ok value) ∨
      ∃ error, op.offences = [error] ∧ op.apply a b = .error error := by
  cases op with
  | unknown name => exact Or.inr ⟨_, rfl, rfl⟩
  | _ => exact Or.inl ⟨rfl, _, rfl⟩

/-- An operator has a symbol, or it is an offender. -/
theorem Expr.symbolOf_cases (op : Operator) :
    (op.offences = [] ∧ ∃ symbol, symbolOf op = .ok symbol) ∨
      ∃ error, op.offences = [error] ∧ symbolOf op = .error error := by
  cases op with
  | unknown name => exact Or.inr ⟨_, rfl, rfl⟩
  | _ => exact Or.inl ⟨rfl, _, rfl⟩

namespace Expr

theorem height_pos (e : Expr) : 0 < e.height := by
  cases e <;> exact Nat.succ_pos _

/-- **Evaluation ends with a value, or with the first offender** that stands after operands. -/
theorem evaluateWithin_cases : ∀ (levels : Nat) (e : Expr), e.height ≤ levels →
    (e.offencesAfter = [] ∧ ∃ value, evaluateWithin levels e = .ok value) ∨
      ∃ error rest, e.offencesAfter = error :: rest ∧ evaluateWithin levels e = .error error
  | 0, e, h => absurd h (Nat.not_le.mpr e.height_pos)
  | _ + 1, num value, _ => Or.inl ⟨rfl, value, rfl⟩
  | _ + 1, foreign _, _ => Or.inr ⟨_, _, rfl, rfl⟩
  | levels + 1, group inner, h => evaluateWithin_cases levels inner (Nat.le_of_succ_le_succ h)
  | levels + 1, neg inner, h => by
    unfold evaluateWithin offencesAfter
    rcases evaluateWithin_cases levels inner (Nat.le_of_succ_le_succ h) with
      ⟨ho, value, hv⟩ | ⟨error, rest, ho, he⟩
    · rw [hv]
      exact Or.inl ⟨ho, -value, rfl⟩
    · rw [he]
      exact Or.inr ⟨error, rest, ho, rfl⟩
  | levels + 1, binary l op r, h => by
    obtain ⟨hl, hr⟩ := Nat.max_le.mp (Nat.le_of_succ_le_succ h)
    unfold evaluateWithin offencesAfter
    rcases evaluateWithin_cases levels l hl with ⟨hlo, a, ha⟩ | ⟨error, rest, hlo, he⟩
    · rw [ha, hlo]
      rcases evaluateWithin_cases levels r hr with ⟨hro, b, hb⟩ | ⟨error, rest, hro, he⟩
      · rw [hb, hro]
        rcases op.apply_cases a b with ⟨ho, value, hv⟩ | ⟨error, ho, he⟩
        · exact Or.inl ⟨ho, value, hv⟩
        · exact Or.inr ⟨error, [], ho, he⟩
      · rw [he, hro]
        exact Or.inr ⟨error, _, rfl, rfl⟩
    · rw [he, hlo]
      exact Or.inr ⟨error, _, rfl, rfl⟩

/-- **A description ends with a text, or with the first offender** that stands before operands. -/
theorem describeWithin_cases : ∀ (levels : Nat) (e : Expr), e.height ≤ levels →
    (e.offencesBefore = [] ∧ ∃ text, describeWithin levels e = .ok text) ∨
      ∃ error rest, e.offencesBefore = error :: rest ∧ describeWithin levels e = .error error
  | 0, e, h => absurd h (Nat.not_le.mpr e.height_pos)
  | _ + 1, num _, _ => Or.inl ⟨rfl, _, rfl⟩
  | _ + 1, foreign _, _ => Or.inr ⟨_, _, rfl, rfl⟩
  | levels + 1, group inner, h | levels + 1, neg inner, h => by
    unfold describeWithin offencesBefore
    rcases describeWithin_cases levels inner (Nat.le_of_succ_le_succ h) with
      ⟨ho, text, ht⟩ | ⟨error, rest, ho, he⟩
    · rw [ht]
      exact Or.inl ⟨ho, _, rfl⟩
    · rw [he]
      exact Or.inr ⟨error, rest, ho, rfl⟩
  | levels + 1, binary l op r, h => by
    obtain ⟨hl, hr⟩ := Nat.max_le.mp (Nat.le_of_succ_le_succ h)
    unfold describeWithin offencesBefore
    rcases symbolOf_cases op with ⟨ho, symbol, hs⟩ | ⟨error, ho, he⟩
    · rw [hs, ho]
      rcases describeWithin_cases levels l hl with ⟨hlo, a, ha⟩ | ⟨error, rest, hlo, he⟩
      · rw [hlo]
        simp only [bind, Except.bind, ha]
        rcases describeWithin_cases levels r hr with ⟨hro, b, hb⟩ | ⟨error, rest, hro, he⟩
        · rw [hb, hro]
          exact Or.inl ⟨rfl, _, rfl⟩
        · rw [he, hro]
          exact Or.inr ⟨error, _, rfl, rfl⟩
      · rw [hlo]
        simp only [bind, Except.bind, he]
        exact Or.inr ⟨error, _, rfl, rfl⟩
    · rw [he, ho]
      exact Or.inr ⟨error, _, rfl, rfl⟩

/-- Levels enough for the height of a tree are as good as any. -/
theorem evaluateWithin_eq : ∀ {m n : Nat} (e : Expr), e.height ≤ m → e.height ≤ n →
    evaluateWithin m e = evaluateWithin n e
  | 0, _, e, h, _ | _, 0, e, _, h => absurd h (Nat.not_le.mpr e.height_pos)
  | _ + 1, _ + 1, num _, _, _ | _ + 1, _ + 1, foreign _, _, _ => rfl
  | _ + 1, _ + 1, group inner, hm, hn =>
    evaluateWithin_eq inner (Nat.le_of_succ_le_succ hm) (Nat.le_of_succ_le_succ hn)
  | _ + 1, _ + 1, neg inner, hm, hn => by
    rw [evaluateWithin, evaluateWithin,
      evaluateWithin_eq inner (Nat.le_of_succ_le_succ hm) (Nat.le_of_succ_le_succ hn)]
  | _ + 1, _ + 1, binary l op r, hm, hn => by
    obtain ⟨hlm, hrm⟩ := Nat.max_le.mp (Nat.le_of_succ_le_succ hm)
    obtain ⟨hln, hrn⟩ := Nat.max_le.mp (Nat.le_of_succ_le_succ hn)
    rw [evaluateWithin, evaluateWithin, evaluateWithin_eq l hlm hln, evaluateWithin_eq r hrm hrn]

variable {levels : Nat} {e l r : Expr} {op : Operator} {c : Char} {a b : String}

/-- A tree without offenders that is not too high has a value. -/
theorem exists_evaluateWithin (h : e.height ≤ levels) (ho : e.offencesAfter = []) :
    ∃ value, evaluateWithin levels e = .ok value := by
  rcases evaluateWithin_cases levels e h with ⟨-, hv⟩ | ⟨error, rest, ho', -⟩
  · exact hv
  · cases ho.symm.trans ho'

/-- A tree without offenders that is not too high has a description. -/
theorem exists_describeWithin (h : e.height ≤ levels) (ho : e.offencesAfter = []) :
    ∃ text, describeWithin levels e = .ok text := by
  have ho : e.offencesBefore = [] := (ho ▸ e.offencesBefore_perm).eq_nil
  rcases describeWithin_cases levels e h with ⟨-, ht⟩ | ⟨error, rest, ho', -⟩
  · exact ht
  · cases ho.symm.trans ho'

/-! ## Descriptions from those of the parts -/

theorem describeWithin_group (h : e.describeWithin levels = .ok a) :
    (group e).describeWithin (levels + 1) = .ok ("( " ++ a ++ " )") := by
  rw [describeWithin, h]
  rfl

theorem describeWithin_neg (h : e.describeWithin levels = .ok a) :
    (neg e).describeWithin (levels + 1) = .ok ("- ( " ++ a ++ " )") := by
  rw [describeWithin, h]
  rfl

theorem describeWithin_binary (hl : l.describeWithin levels = .ok a) (h : op.symbol? = some c)
    (hr : r.describeWithin levels = .ok b) :
    (binary l op r).describeWithin (levels + 1) =
      .ok ("(" ++ a ++ " " ++ String.singleton c ++ " " ++ b ++ ")") := by
  rw [describeWithin, symbolOf, h, hl, hr]
  rfl

end Expr

end Reckoner
