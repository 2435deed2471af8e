import Reckoner.Proofs.Expr.Parsed

/-!
# At which offender a walk fails

The offenders of a tree are its foreign leaves and its operators without a meaning, which are those
without a symbol. A walk passes a tree that has none, and ends at the first one in its own order
otherwise: so both walks fail on the same trees, and with the same error if there is one offender
only.

* `Expr.offencesAfter_perm`: the offenders are foreign leaves and operators without a meaning.
* `EndsAt.exists_ok_iff`, `EndsAt.eq_error_iff`: how a walk ends, by the list of offenders.
* **`walks_end_at_first_offender`**: both walks, on every tree that is not too high.
-/

namespace Reckoner

/-! ## The offenders of a tree -/

/-- The operators with a meaning are no offenders. -/
theorem Operator.offences_eq_nil_iff {op : Operator} :
    op.offences = [] ↔ op.meaning?.isSome = true := by
  cases op <;> simp [offences, meaning?]

namespace Expr

/-- The names of the types of the foreign leaves. -/
def foreignTypes : Expr → List String
  | binary l _ r => l.foreignTypes ++ r.foreignTypes
  | group inner | neg inner => inner.foreignTypes
  | foreign typeName => [typeName]
  | num _ => []

/-- **The offenders are the foreign leaves and the operators without a meaning.** -/
theorem offencesAfter_perm (e : Expr) :
    e.offencesAfter.Perm
      (e.foreignTypes.map .unexpectedType ++ e.operators.flatMap Operator.offences) := by
  rw [List.perm_iff_count]
  intro error
  induction e with
  | num | foreign => rfl
  | group _ ih | neg _ ih => exact ih
  | binary l op r ihl ihr =>
    simp only [offencesAfter, foreignTypes, operators, List.map_append, List.flatMap_append,
      List.flatMap_cons, List.count_append] at ihl ihr ⊢
    omega

theorem offencesAfter_eq_nil_iff {e : Expr} :
    e.offencesAfter = [] ↔
      e.foreignTypes = [] ∧ ∀ op ∈ e.operators, op.meaning?.isSome = true := by
  rw [← List.perm_nil, e.offencesAfter_perm.congr_left, List.perm_nil, List.append_eq_nil_iff,
    List.map_eq_nil_iff, List.flatMap_eq_nil_iff]
  simp only [Operator.offences_eq_nil_iff]

end Expr

/-! ## The end of a walk -/

section EndsAt

variable {α : Type} {offences : List EvalError} {result : Except EvalError α} {error : EvalError}

/-- A walk ends at the first offender, and with a result if there is none. -/
def EndsAt (offences : List EvalError) (result : Except EvalError α) : Prop :=
  (offences = [] ∧ ∃ a, result = .ok a) ∨
    ∃ error rest, offences = error :: rest ∧ result = .error error

theorem EndsAt.exists_ok_iff (h : EndsAt offences result) :
    (∃ a, result = .ok a) ↔ offences = [] := by
  rcases h with ⟨rfl, hok⟩ | ⟨error, rest, rfl, rfl⟩
  · exact iff_of_true hok rfl
  · exact iff_of_false (fun ⟨a, ha⟩ => by cases ha) (List.cons_ne_nil _ _)

theorem EndsAt.eq_error_iff (h : EndsAt offences result) :
    result = .error error ↔ offences.head? = some error := by
  rcases h with ⟨rfl, a, rfl⟩ | ⟨error', rest, rfl, rfl⟩
  · exact iff_of_false (fun h => by cases h) (fun h => by cases h)
  · rw [List.head?_cons, Except.error.injEq, Option.some.injEq]

end EndsAt

variable {e : Expr}

theorem Expr.endsAt_evaluate (h : e.height ≤ depthLimit) : EndsAt e.offencesAfter e.evaluate :=
  evaluateWithin_cases depthLimit e h

theorem Expr.endsAt_describe (h : e.height ≤ depthLimit) : EndsAt e.offencesBefore e.describe :=
  describeWithin_cases depthLimit e h

theorem Expr.offencesBefore_eq_nil_iff : e.offencesBefore = [] ↔ e.offencesAfter = [] := by
  rw [← List.perm_nil, e.offencesBefore_perm.congr_left, List.perm_nil]

/-- **Both walks end at the first offender.** On a tree that is not too high, there is a value
exactly if there is a description, and that is if no leaf is foreign and every operator has a
meaning. Else evaluation fails with the first offender that stands after operands, and description
with the first that stands before them; if there is one only, both fail with it. -/
theorem walks_end_at_first_offender (e : Expr) (h : e.height ≤ Expr.depthLimit) :
    ((∃ value, e.evaluate = .ok value) ↔ ∃ text, e.describe = .ok text) ∧
      ((∃ text, e.describe = .ok text) ↔
        e.foreignTypes = [] ∧ ∀ op ∈ e.operators, op.meaning?.isSome = true) ∧
      (∀ error, e.evaluate = .error error ↔ e.offencesAfter.head? = some error) ∧
      (∀ error, e.describe = .error error ↔ e.offencesBefore.head? = some error) ∧
      (e.offencesAfter.length = 1 →
        ∃ error, e.evaluate = .error error ∧ e.describe = .error error) := by
  have hvalue := Expr.endsAt_evaluate h
  have htext := Expr.endsAt_describe h
  have hnone : (∃ text, e.describe = .ok text) ↔ e.offencesAfter = [] :=
    htext.exists_ok_iff.trans Expr.offencesBefore_eq_nil_iff
  refine ⟨hvalue.exists_ok_iff.trans hnone.symm, hnone.trans Expr.offencesAfter_eq_nil_iff,
    fun _ => hvalue.eq_error_iff, fun _ => htext.eq_error_iff, fun hone => ?_⟩
  obtain ⟨error, hafter⟩ := List.length_eq_one_iff.mp hone
  have hbefore : e.offencesBefore = [error] := by
    rw [← List.perm_singleton, ← hafter]
    exact e.offencesBefore_perm
  exact ⟨error, hvalue.eq_error_iff.mpr (by rw [hafter]; rfl),
    htext.eq_error_iff.mpr (by rw [hbefore]; rfl)⟩

/-- The tree has a foreign leaf under an operator without a meaning: evaluation meets the leaf first
and description the operator. -/
theorem walks_end_at_first_offender_two :
    let e : Expr := .neg (.binary (.group (.foreign "list")) (.unknown "ROOT") (.num .nan))
    e.evaluate = .error (.unexpectedType "list") ∧ e.describe = .error (.unknownOperator "ROOT") := by
  intro e
  obtain ⟨-, -, hvalue, htext, -⟩ := walks_end_at_first_offender e (by decide)
  exact ⟨(hvalue _).mpr rfl, (htext _).mpr rfl⟩

end Reckoner
