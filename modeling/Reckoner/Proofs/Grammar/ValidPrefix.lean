import Reckoner.Proofs.Grammar.Greedy
import Reckoner.Proofs.Grammar.Longest

/-!
# A fault is at the first token that cannot stand

The tokens before a fault can be completed: a missing operand is a number, and what is nested is
closed by brackets. That makes them part of a sentence, so by `Derives.rest_eq_nil` the parser takes
the completion, however it reads it. And what a reader does before a fault depends on the tokens up
to the fault only, so that no tokens after it can mend it.

* **`Stops.completion`**: the tokens before a fault are the start of a sentence.
* **`Stops.lookahead`**: other tokens after the one at fault leave the fault as it is.
* **`parse_fault_at_first_bad_token`**: both for parses, with the index of the fault.
-/

namespace Reckoner

variable {tier : Tier} {depth : Nat} {ts taken rest rest' : List Token} {e : Expr} {fault : Fault}

/-- With depth enough, a parse takes all the tokens. -/
def Accepted (ts : List Token) : Prop :=
  ∃ e limit, ∀ depth, limit ≤ depth → Expr.parseWithin depth ts = .ok ⟨e, []⟩

/-- The accepted tokens are the expressions. -/
theorem accepted_iff : Accepted ts ↔ IsExpression ts := by
  constructor
  · rintro ⟨e, limit, h⟩
    exact ⟨e, (parseWithin_eq_ok_iff.mp (h limit (Nat.le_refl _))).derives_all⟩
  · rintro ⟨e, he⟩
    rcases reads_or_stops (Nat.le_refl (8 * ts.length)) with ⟨e', rest, hr⟩ | ⟨fault, rest, hs⟩
    · obtain rfl := he.rest_eq_nil hr
      exact ⟨e', _, fun depth hle => parseWithin_eq_ok_iff.mpr (hr.mono hle)⟩
    · exact absurd hs he.not_stops

/-! ## Completions -/

/-- A number by itself is a sentence of every tier. -/
theorem exists_number (tier : Tier) : ∃ t e, Derives tier [t] e := by
  have hleaf : ∃ e, Derives .leaf [⟨.number, "1"⟩] e := ⟨_, Derives.number rfl rfl⟩
  obtain ⟨e, hleaf⟩ := hleaf
  have hpower := hleaf.ofLeaf
  cases tier with
  | additive => exact ⟨_, e, hpower.ofPower.ofMultiplicative⟩
  | multiplicative => exact ⟨_, e, hpower.ofPower⟩
  | power => exact ⟨_, e, hpower⟩
  | leaf => exact ⟨_, e, hleaf⟩

/-- **The tokens before a fault are the start of a sentence.** -/
theorem Stops.completion (h : Stops tier depth ts fault rest) :
    ∃ seen more e, ts = seen ++ rest ∧ Derives tier (seen ++ more) e := by
  induction h with
  | first operands _ ih =>
    obtain ⟨seen, more, e, rfl, hd⟩ := ih
    exact ⟨seen, more, e, rfl, hd.pass operands⟩
  | @missing tier left right _ _ _ t l op _ operands first operator _ =>
    obtain ⟨taken, rfl, hl⟩ := first.derives
    obtain ⟨u, r, hr⟩ := exists_number right
    refine ⟨taken ++ [t], [u], .binary l op r, ?_, ?_⟩
    · rw [List.append_assoc, List.singleton_append]
    · rw [List.append_assoc, List.singleton_append]
      exact hl.binary operands operator hr
  | @second tier left right _ _ _ _ t l op _ operands first operator _ _ ih =>
    obtain ⟨taken, rfl, hl⟩ := first.derives
    obtain ⟨seen, more, r, rfl, hr⟩ := ih
    refine ⟨taken ++ t :: seen, more, .binary l op r, ?_, ?_⟩
    · rw [List.append_assoc, List.cons_append]
    · rw [List.append_assoc, List.cons_append]
      exact hl.binary operands operator hr
  | ended | malformed | misplaced =>
    obtain ⟨t, e, hd⟩ := exists_number .leaf
    exact ⟨[], [t], e, rfl, hd⟩
  | @nested _ _ _ t _ kind _ ih =>
    obtain ⟨seen, more, e, rfl, hd⟩ := ih
    rcases kind with kind | kind
    · exact ⟨t :: seen, more, .neg e, rfl, Derives.neg kind hd⟩
    · refine ⟨t :: seen, more ++ [⟨.rightParen, ")"⟩], .group e, rfl, ?_⟩
      have hg : Derives .leaf (t :: ((seen ++ more) ++ [⟨.rightParen, ")"⟩])) (.group e) :=
        Derives.group kind hd rfl
      rwa [List.append_assoc] at hg
  | @unclosed _ _ _ t e opening nested _ =>
    obtain ⟨taken, rfl, hd⟩ := nested.derives
    exact ⟨t :: taken, [⟨.rightParen, ")"⟩], .group e, rfl, Derives.group opening hd rfl⟩

/-- A fault is at one of the tokens that were to be read, or at their end. -/
theorem Stops.length_le (h : Stops tier depth ts fault rest) : rest.length ≤ ts.length := by
  obtain ⟨seen, -, -, rfl, -⟩ := h.completion
  rw [List.length_append]
  exact Nat.le_add_left _ _

/-! ## One token ahead -/

/-- A reading looks one token ahead and sees which operator it is. -/
theorem Reads.lookahead (h : Reads tier depth ts e rest) :
    ∃ taken, ts = taken ++ rest ∧ ∀ rest', nextOperator rest' = nextOperator rest →
      Reads tier depth (taken ++ rest') e rest' := by
  obtain ⟨taken, rfl, -⟩ := h.derives
  exact ⟨taken, rfl, fun rest' hnext => h.followed (Or.inr hnext)⟩

/-- **The tokens after the one at fault do not matter.** -/
theorem Stops.lookahead (h : Stops tier depth ts fault rest) :
    ∃ seen, ts = seen ++ rest ∧ ∀ t ∈ rest.head?, ∀ us,
      Stops tier depth (seen ++ t :: us) fault (t :: us) := by
  induction h with
  | first operands _ ih =>
    obtain ⟨seen, rfl, ih⟩ := ih
    exact ⟨seen, rfl, fun t ht us => Stops.first operands (ih t ht us)⟩
  | @missing _ _ _ _ _ after t _ _ _ operands first operator h =>
    obtain ⟨taken, rfl, hfirst⟩ := first.lookahead
    refine ⟨taken ++ [t], by simp, fun u hu us => ?_⟩
    rw [List.append_assoc, List.singleton_append]
    exact Stops.missing operands (hfirst (t :: u :: us) rfl) operator
      (Reader.expectOperand_fault_congr (congrArg (Option.map _) hu) h)
  | @second _ _ _ _ _ _ rest t _ _ _ operands first operator expected _ ih =>
    obtain ⟨taken, rfl, hfirst⟩ := first.lookahead
    obtain ⟨seen, rfl, ih⟩ := ih
    refine ⟨taken ++ t :: seen, by simp, fun u hu us => ?_⟩
    have hhead : (seen ++ rest).head? = (seen ++ u :: us).head? := by
      rw [List.head?_append, List.head?_append, hu]
      rfl
    rw [List.append_assoc, List.cons_append]
    exact Stops.second operands (hfirst (t :: (seen ++ u :: us)) rfl) operator
      (Reader.expectOperand_ok_congr (congrArg (Option.map _) hhead) expected) (ih u hu us)
  | ended => exact ⟨[], rfl, fun t ht => by cases ht⟩
  | @malformed _ _ t kind text =>
    refine ⟨[], rfl, fun u hu us => ?_⟩
    cases hu
    exact Stops.malformed kind text
  | @misplaced _ _ t kind =>
    refine ⟨[], rfl, fun u hu us => ?_⟩
    cases hu
    exact Stops.misplaced kind
  | @nested _ _ _ t _ kind _ ih =>
    obtain ⟨seen, rfl, ih⟩ := ih
    exact ⟨t :: seen, rfl, fun u hu us => Stops.nested kind (ih u hu us)⟩
  | @unclosed _ _ rest t _ opening nested h =>
    obtain ⟨taken, rfl, hnested⟩ := nested.lookahead
    refine ⟨t :: taken, rfl, fun u hu us => ?_⟩
    obtain ⟨rest, rfl⟩ := List.head?_eq_some_iff.mp hu
    refine Stops.unclosed opening (hnested (u :: us) rfl) fun u' hu' => ?_
    cases hu'
    exact h u hu

/-! ## Parses -/

/-- What stops at some depth is never accepted. -/
theorem Stops.not_accepted (h : Stops .additive depth ts fault rest) : ¬Accepted ts := by
  rintro ⟨e, limit, ha⟩
  exact (parseWithin_eq_ok_iff.mp (ha limit (Nat.le_refl _))).not_stops h

/-- The fault of a parse stays where it is with other tokens after the one at fault, and no depth
makes them an expression. -/
theorem Stops.persists {seen after : List Token} {t : Token}
    (h : Stops .additive Expr.depthLimit (seen ++ t :: after) fault (t :: after))
    (us : List Token) :
    Expr.parse (seen ++ t :: us) = .error (.fault (seen ++ t :: us) seen.length fault) ∧
      ¬Accepted (seen ++ t :: us) := by
  obtain ⟨seen', hseen, hahead⟩ := h.lookahead
  obtain rfl : seen = seen' := List.append_cancel_right hseen
  have hstops := hahead t rfl us
  have hindex : seen.length = (seen ++ t :: us).length - (t :: us).length := by
    rw [List.length_append, Nat.add_sub_cancel]
  exact ⟨parseWithin_eq_fault_iff.mpr ⟨rfl, _, hindex, hstops⟩, hstops.not_accepted⟩

/-- The tokens up to the one at fault, and any other tokens after them. -/
theorem eq_append_of_take_eq {seen us : List Token} {t : Token}
    (h : us.take (seen.length + 1) = seen ++ [t]) :
    us = seen ++ t :: us.drop (seen.length + 1) := by
  calc us = us.take (seen.length + 1) ++ us.drop (seen.length + 1) :=
        (List.take_append_drop _ _).symm
    _ = seen ++ t :: us.drop (seen.length + 1) := by
        rw [h, List.append_assoc, List.singleton_append]

/-- **A fault is at the first token that cannot stand.** When a parse fails with a fault at an
index, the tokens before it can be completed to tokens that are accepted; all tokens that agree up
to the one at fault fail with the same fault at the same index and are never accepted; and the fault
is at the end exactly if the tokens only lack others after them. -/
theorem parse_fault_at_first_bad_token {ts shown : List Token} {i : Nat} {reason : Fault}
    (h : Expr.parse ts = .error (.fault shown i reason)) :
    i ≤ ts.length ∧ (∃ more, Accepted (ts.take i ++ more)) ∧
      (i < ts.length → ∀ us : List Token, us.take (i + 1) = ts.take (i + 1) →
        Expr.parse us = .error (.fault us i reason) ∧ ¬Accepted us) ∧
      (i = ts.length ↔ ∃ more, Accepted (ts ++ more)) := by
  obtain ⟨rfl, rest, hi, hs⟩ := parseWithin_eq_fault_iff.mp h
  obtain ⟨seen, more, e, rfl, hd⟩ := hs.completion
  obtain rfl : i = seen.length := by
    rw [hi, List.length_append, Nat.add_sub_cancel]
  have hmore : Accepted (seen ++ more) := accepted_iff.mpr ⟨e, hd⟩
  have hle : seen.length ≤ (seen ++ rest).length := by simp
  refine ⟨hle, ⟨more, by rwa [List.take_left]⟩, ?_⟩
  cases rest with
  | nil =>
    rw [List.append_nil]
    exact ⟨fun hlt => absurd hlt (Nat.lt_irrefl _), iff_of_true rfl ⟨more, hmore⟩⟩
  | cons t after =>
    have hlt : seen.length < (seen ++ t :: after).length := by simp
    refine ⟨fun _ us hus => ?_, iff_of_false (Nat.ne_of_lt hlt) ?_⟩
    · rw [List.take_length_add_append, List.take_succ_cons, List.take_zero] at hus
      rw [eq_append_of_take_eq hus]
      exact hs.persists _
    · rintro ⟨us, hus⟩
      rw [List.append_assoc, List.cons_append] at hus
      exact (hs.persists _).2 hus

/-- In `( - 2 * 3 ) ^ / 1`, the fault is with the slash, and the tokens before it want a number. -/
theorem parse_fault_at_first_bad_token_slash :
    let seen : List Token := [⟨.leftParen, "("⟩, ⟨.minus, "-"⟩, ⟨.number, "2"⟩, ⟨.multiply, "*"⟩,
      ⟨.number, "3"⟩, ⟨.rightParen, ")"⟩, ⟨.power, "^"⟩]
    let ts := seen ++ [⟨.divide, "/"⟩, ⟨.number, "1"⟩]
    let reason : Fault := .missingOperand .pow (some .divide)
    Expr.parse ts = .error (.fault ts 7 reason) ∧ (∃ more, Accepted (seen ++ more)) ∧
      ∀ us, Expr.parse (seen ++ ⟨.divide, "/"⟩ :: us) =
        .error (.fault (seen ++ ⟨.divide, "/"⟩ :: us) 7 reason) := by
  intro seen ts reason
  have hts : Expr.parse ts = .error (.fault ts 7 reason) := rfl
  obtain ⟨-, hmore, hsame, -⟩ := parse_fault_at_first_bad_token hts
  exact ⟨hts, hmore, fun us =>
    (hsame (by decide) (seen ++ ⟨.divide, "/"⟩ :: us) rfl).1⟩

end Reckoner
