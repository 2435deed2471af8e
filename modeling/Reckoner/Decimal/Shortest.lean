import Reckoner.Decimal.Basic

/-!
# The shortest decimal number that reads back

A magnitude lies between two neighbours on each decimal grid, the multiples of one power of ten.
`shortest` goes from a grid coarser than the magnitude itself to ever finer ones and takes the
first neighbour that rounds to the magnitude, the nearer one where both do. The coarser the grid,
the fewer the digits. The grid of `10 ^ -1074` holds every magnitude exactly, so the search ends
there at the latest.

* **`toMagnitude?_shortest`**: the shortest decimal number rounds to the magnitude it comes from.
-/

namespace Reckoner

namespace Magnitude

/-- The count of steps of `10 ^ exponent` in the magnitude, as a ratio. -/
def steps (m : Magnitude) : Int → Nat × Nat
  | .ofNat e => (m.units, unitsIn 0 * 10 ^ e)
  | .negSucc e => (m.units * 10 ^ (e + 1), unitsIn 0)

/-- The two neighbours of the magnitude among the multiples of `10 ^ exponent`, the nearer first;
of two equally near the even multiple. -/
def neighbours (m : Magnitude) (exponent : Int) : List Decimal :=
  let (num, den) := m.steps exponent
  let below := num / den
  let near := nearestEven num den
  [⟨near, exponent⟩, ⟨if near = below then below + 1 else below, exponent⟩]

/-- The neighbour that reads back, if there is one. -/
def onGrid? (m : Magnitude) (exponent : Int) : Option Decimal :=
  (m.neighbours exponent).find? fun d => d.toMagnitude? = some m

/-- The magnitude itself, written out. -/
def writtenOut (m : Magnitude) : Decimal := ⟨m.units * 5 ^ unitPlaces, -unitPlaces⟩

/-- The search from the grid of `10 ^ (place - 1074)` on. -/
def shortestFrom (m : Magnitude) : Nat → Decimal
  | 0 => m.writtenOut
  | place + 1 =>
    match m.onGrid? ((place : Int) + 1 - unitPlaces) with
    | some d => d
    | none => m.shortestFrom place

/-- The shortest decimal number that rounds to the magnitude. The search starts at a power of ten
above it: the logarithm of two is `0.30103`, and a unit is less than `10 ^ -323`. -/
def shortest (m : Magnitude) : Decimal :=
  if m = .zero then ⟨0, 0⟩ else m.shortestFrom ((m.units.log2 + 1) * 30103 / 100000 + 752)

/-! ## Reading back -/

/-- What is found on a grid reads back. -/
theorem toMagnitude?_of_onGrid? {m : Magnitude} {exponent : Int} {d : Decimal}
    (h : m.onGrid? exponent = some d) : d.toMagnitude? = some m := by
  simpa using List.find?_some h

theorem toMagnitude?_writtenOut {m : Magnitude} (h : m ≠ .zero) :
    m.writtenOut.toMagnitude? = some m := by
  obtain ⟨k, hk⟩ : ∃ k, unitPlaces = k + 1 := ⟨1073, rfl⟩
  have hm : m.units ≠ 0 := fun h0 => h (Magnitude.ext h0)
  have hn : m.units * 5 ^ (k + 1) ≠ 0 :=
    Nat.mul_ne_zero hm (Nat.pos_iff_ne_zero.mp (Nat.pow_pos (by decide)))
  have hlog : k + 1 ≤ (m.units * 5 ^ (k + 1)).log2 := by
    refine (Nat.le_log2 hn).mpr (Nat.le_trans (Nat.pow_le_pow_left (by decide : 2 ≤ 5) (k + 1)) ?_)
    exact Nat.le_mul_of_pos_left _ (Nat.pos_of_ne_zero hm)
  have hunits : unitsIn 0 = 2 ^ (k + 1) := by rw [unitsIn, Nat.zero_add, hk]
  have hexp : -((k + 1 : Nat) : Int) = .negSucc k := rfl
  have hone := nearest?_mul_mul m.units 1 (Nat.pow_pos (by decide) : 0 < 10 ^ (k + 1))
  rw [Nat.one_mul, nearest?_units] at hone
  rw [writtenOut, hk, hexp, Decimal.toMagnitude?_negSucc hn (by omega), Nat.mul_assoc,
    hunits, ← Nat.mul_pow]
  exact hone

theorem toMagnitude?_shortestFrom {m : Magnitude} (h : m ≠ .zero) (place : Nat) :
    (m.shortestFrom place).toMagnitude? = some m := by
  induction place with
  | zero => exact toMagnitude?_writtenOut h
  | succ place ih =>
    rw [shortestFrom]
    split
    · rename_i d hd
      exact toMagnitude?_of_onGrid? hd
    · exact ih

/-- **The shortest decimal number reads back.** -/
theorem toMagnitude?_shortest (m : Magnitude) : m.shortest.toMagnitude? = some m := by
  rw [shortest]
  split
  · rename_i h
    rw [h]
    rfl
  · rename_i h
    exact toMagnitude?_shortestFrom h _

end Magnitude

end Reckoner
