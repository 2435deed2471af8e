import Mathlib.Data.List.Forall2
import Reckoner.Proofs.Grammar.Exchange

/-!
# Two token lists, side by side

`t.StandsFor R u` says that `t` is a token of the kind of `u` and, if that is a number, one that can
be read, with a value that has the relation `R` to the one of `u`; but `u` may be a number that
cannot be read. With tokens that stand for others, one for one, a reader does the same on both lists
step by step, until it stops at a number that cannot be read, if it does.

* `Expr.Like`: trees that differ in their numbers only.
* **`Reads.alike`**, **`Stops.alike`**: the reader of the second list, from that of the first.
* `Derives.not_isRejected`, `Stops.not_isRejected`: a reader takes no number that cannot be read.
-/

namespace Reckoner

/-! ## Tokens and trees that differ in their numbers -/

variable {R : Binary64 → Binary64 → Prop}

namespace Token

/-- A number whose text cannot be read. -/
def IsRejected (t : Token) : Prop := t.kind = .number ∧ Numeral.read? t.text = none

instance (t : Token) : Decidable t.IsRejected := instDecidableAnd

/-- The tokens have one kind, and if they are numbers, they have values with the relation. -/
structure Like (R : Binary64 → Binary64 → Prop) (t u : Token) : Prop where
  kind_eq : t.kind = u.kind
  value : t.kind = .number →
    ∃ a b, Numeral.read? t.text = some a ∧ Numeral.read? u.text = some b ∧ R a b

/-- The tokens have one kind, and if they are numbers, the first has a value, and the second has one
with the relation or none. -/
structure StandsFor (R : Binary64 → Binary64 → Prop) (t u : Token) : Prop where
  kind_eq : t.kind = u.kind
  value : t.kind = .number →
    ∃ a, Numeral.read? t.text = some a ∧ ∀ b, Numeral.read? u.text = some b → R a b

/-- The token, with a text that can be read if it is a number with one that cannot. -/
def mended (t : Token) : Token := if t.IsRejected then { t with text := "1" } else t

variable {t u : Token}

theorem Like.standsFor (h : t.Like R u) : t.StandsFor R u := by
  refine ⟨h.kind_eq, fun hk => ?_⟩
  obtain ⟨a, b, ha, hb, hab⟩ := h.value hk
  refine ⟨a, ha, fun b' hb' => ?_⟩
  cases hb.symm.trans hb'
  exact hab

theorem Like.symm (h : t.Like R u) : u.Like (flip R) t := by
  refine ⟨h.kind_eq.symm, fun hk => ?_⟩
  obtain ⟨a, b, ha, hb, hab⟩ := h.value (h.kind_eq.trans hk)
  exact ⟨b, a, hb, ha, hab⟩

theorem Like.not_isRejected (h : t.Like R u) : ¬u.IsRejected := by
  rintro ⟨hk, hnone⟩
  obtain ⟨a, b, -, hb, -⟩ := h.value (h.kind_eq.trans hk)
  cases hb.symm.trans hnone

theorem not_isRejected_of_kind (h : t.kind ≠ .number) : ¬t.IsRejected := fun hr => h hr.1

theorem mended_standsFor (t : Token) : t.mended.StandsFor Eq t := by
  unfold mended
  split
  · rename_i hr
    refine ⟨rfl, fun _ => ?_⟩
    obtain ⟨one, hone⟩ : ∃ one, Numeral.read? "1" = some one := ⟨_, rfl⟩
    exact ⟨one, hone, fun b hb => by cases hr.2.symm.trans hb⟩
  · rename_i hr
    refine ⟨rfl, fun hk => ?_⟩
    obtain ⟨a, ha⟩ := Option.ne_none_iff_exists'.mp fun hnone => hr ⟨hk, hnone⟩
    exact ⟨a, ha, fun b hb => Option.some.inj (ha.symm.trans hb)⟩

end Token

namespace Expr

/-- The trees differ in their numbers only, and these have the relation. -/
inductive Like (R : Binary64 → Binary64 → Prop) : Expr → Expr → Prop where
  | num {a b : Binary64} (h : R a b) : Like R (num a) (num b)
  | binary {l l' r r' : Expr} (op : Operator) (left : Like R l l') (right : Like R r r') :
    Like R (binary l op r) (binary l' op r')
  | group {e e' : Expr} (inner : Like R e e') : Like R (group e) (group e')
  | neg {e e' : Expr} (inner : Like R e e') : Like R (neg e) (neg e')
  | foreign (typeName : String) : Like R (foreign typeName) (foreign typeName)

/-- Trees with equal numbers are equal. -/
theorem like_eq_iff {e e' : Expr} : e.Like Eq e' ↔ e = e' := by
  constructor
  · intro h
    induction h with
    | num h => rw [h]
    | binary _ _ _ ihl ihr => rw [ihl, ihr]
    | group _ ih | neg _ ih => rw [ih]
    | foreign => rfl
  · rintro rfl
    induction e with
    | num value => exact Like.num rfl
    | binary _ op _ ihl ihr => exact Like.binary op ihl ihr
    | group _ ih => exact Like.group ih
    | neg _ ih => exact Like.neg ih
    | foreign typeName => exact Like.foreign typeName

end Expr

/-! ## What a reader sees of the next token -/

variable {tier left right : Tier} {depth m n : Nat} {ts us rest after : List Token} {t u : Token}
  {e : Expr} {op : Operator} {fault : Fault}

/-- The lists go on with tokens of one kind, or both end. -/
def SameNext (ts us : List Token) : Prop := ts.head?.map (·.kind) = us.head?.map (·.kind)

namespace SameNext

theorem next?_eq (h : SameNext ts us) (operator? : Token.Kind → Option Operator) :
    Reader.next? operator? ts = Reader.next? operator? us := by
  have hnext : ∀ ts, Reader.next? operator? ts = (ts.head?.map (·.kind)).bind operator? := by
    intro ts
    cases ts <;> rfl
  rw [hnext, hnext, h]

theorem not_rightParen (h : SameNext ts us) (hopen : ∀ t ∈ ts.head?, t.kind ≠ .rightParen) :
    ∀ u ∈ us.head?, u.kind ≠ .rightParen := by
  intro u hu hk
  rw [SameNext, Option.mem_def.mp hu, Option.map_some, hk] at h
  obtain ⟨t, ht, htk⟩ := Option.map_eq_some_iff.mp h
  exact hopen t ht htk

end SameNext

/-- Tokens that stand for the others, one for one. -/
def StandFor (R : Binary64 → Binary64 → Prop) : List Token → List Token → Prop :=
  List.Forall₂ (Token.StandsFor R)

theorem StandFor.sameNext (h : StandFor R ts us) : SameNext ts us := by
  cases h with
  | nil => rfl
  | cons h _ => exact congrArg some h.kind_eq

theorem StandFor.cons_left (h : StandFor R (t :: ts) us) :
    ∃ u us', us = u :: us' ∧ t.StandsFor R u ∧ StandFor R ts us' := by
  cases h with
  | cons ht hts => exact ⟨_, _, rfl, ht, hts⟩

theorem StandFor.length_eq (h : StandFor R ts us) : ts.length = us.length :=
  List.Forall₂.length_eq h

/-! ## The reader of the second list -/

/-- A reader stops at a number that cannot be read, with at least so many tokens behind it. -/
def StopsAtRejected (tier : Tier) (depth : Nat) (us : List Token) (n : Nat) : Prop :=
  ∃ u rest, Stops tier depth us (.malformedNumber u.text) (u :: rest) ∧ u.IsRejected ∧
    n ≤ rest.length

namespace StopsAtRejected

theorem mono (h : StopsAtRejected tier depth us n) (hle : m ≤ n) :
    StopsAtRejected tier depth us m := by
  obtain ⟨u, rest, hs, hu, hn⟩ := h
  exact ⟨u, rest, hs, hu, Nat.le_trans hle hn⟩

theorem first (operands : tier.operands? = some (left, right))
    (h : StopsAtRejected left depth us n) : StopsAtRejected tier depth us n := by
  obtain ⟨u, rest, hs, hu⟩ := h
  exact ⟨u, rest, Stops.first operands hs, hu⟩

theorem second (operands : tier.operands? = some (left, right))
    (first : Reads left (depth + tier.cost) us e (t :: after))
    (operator : tier.operator? t.kind = some op)
    (expected : Reader.expectOperand op after = .ok ())
    (h : StopsAtRejected right depth after n) :
    StopsAtRejected tier (depth + tier.cost) us n := by
  obtain ⟨u, rest, hs, hu⟩ := h
  exact ⟨u, rest, Stops.second operands first operator expected hs, hu⟩

theorem nested (kind : t.kind = .minus ∨ t.kind = .leftParen)
    (h : StopsAtRejected .additive depth us n) :
    StopsAtRejected .leaf (depth + 8) (t :: us) n := by
  obtain ⟨u, rest, hs, hu⟩ := h
  exact ⟨u, rest, Stops.nested kind hs, hu⟩

end StopsAtRejected

/-- **What is read on the first list is read on the second**, unless a number that cannot be read is
in the way. -/
theorem Reads.alike (h : Reads tier depth ts e rest) :
    ∀ {us}, StandFor R ts us →
      (∃ e' rest', Reads tier depth us e' rest' ∧ e.Like R e' ∧ StandFor R rest rest') ∨
        StopsAtRejected tier depth us rest.length := by
  induction h with
  | pass operands _ stop ih =>
    intro us hus
    rcases ih hus with ⟨e', rest', hread, he, hrest⟩ | hrejected
    · exact Or.inl ⟨e', rest', Reads.pass operands hread (hrest.sameNext.next?_eq _ ▸ stop), he, hrest⟩
    · exact Or.inr (hrejected.first operands)
  | @binary tier left right depth ts after rest t l r op operands first operator expected second ihl
      ihr =>
    intro us hus
    rcases ihl hus with ⟨l', rest', hfirst, hl, hrest⟩ | hrejected
    · obtain ⟨u, after', rfl, ht, hafter⟩ := hrest.cons_left
      rw [ht.kind_eq] at operator
      have expected' := Reader.expectOperand_ok_congr hafter.sameNext expected
      rcases ihr hafter with ⟨r', rest', hsecond, hr, hrest⟩ | hrejected
      · exact Or.inl ⟨_, rest', Reads.binary operands hfirst operator expected' hsecond,
          Expr.Like.binary op hl hr, hrest⟩
      · exact Or.inr (hrejected.second operands hfirst operator expected')
    · have hlt := second.length_lt
      exact Or.inr ((hrejected.first operands).mono (by rw [List.length_cons]; omega))
  | number kind text =>
    intro us hus
    obtain ⟨u, us, rfl, ht, hrest⟩ := hus.cons_left
    obtain ⟨a, ha, hvalue⟩ := ht.value kind
    cases text.symm.trans ha
    have hu := ht.kind_eq.symm.trans kind
    cases hb : Numeral.read? u.text with
    | some b =>
      exact Or.inl ⟨.num b, us, Reads.number hu hb, Expr.Like.num (hvalue b hb), hrest⟩
    | none =>
      exact Or.inr ⟨u, us, Stops.malformed hu hb, ⟨hu, hb⟩, Nat.le_of_eq hrest.length_eq⟩
  | neg kind _ ih =>
    intro us hus
    obtain ⟨u, us, rfl, ht, hts⟩ := hus.cons_left
    rw [ht.kind_eq] at kind
    rcases ih hts with ⟨e', rest', hread, he, hrest⟩ | hrejected
    · exact Or.inl ⟨_, rest', Reads.neg kind hread, Expr.Like.neg he, hrest⟩
    · exact Or.inr (hrejected.nested (Or.inl kind))
  | group opening _ closing ih =>
    intro us hus
    obtain ⟨u, us, rfl, ht, hts⟩ := hus.cons_left
    rw [ht.kind_eq] at opening
    rcases ih hts with ⟨e', rest', hread, he, hrest⟩ | hrejected
    · obtain ⟨v, rest', rfl, hv, hrest⟩ := hrest.cons_left
      rw [hv.kind_eq] at closing
      exact Or.inl ⟨_, rest', Reads.group opening hread closing, Expr.Like.group he, hrest⟩
    · exact Or.inr ((hrejected.nested (Or.inr opening)).mono (Nat.le_succ _))

/-- **A fault on the first list is one on the second**, unless a number that cannot be read is in the
way. -/
theorem Stops.alike (h : Stops tier depth ts fault rest) :
    ∀ {us}, StandFor R ts us →
      (∃ rest', Stops tier depth us fault rest' ∧ StandFor R rest rest') ∨
        StopsAtRejected tier depth us rest.length := by
  induction h with
  | first operands _ ih =>
    intro us hus
    rcases ih hus with ⟨rest', hstops, hrest⟩ | hrejected
    · exact Or.inl ⟨rest', Stops.first operands hstops, hrest⟩
    · exact Or.inr (hrejected.first operands)
  | missing operands first operator h =>
    intro us hus
    rcases first.alike hus with ⟨l', rest', hfirst, -, hrest⟩ | hrejected
    · obtain ⟨u, after', rfl, ht, hafter⟩ := hrest.cons_left
      rw [ht.kind_eq] at operator
      exact Or.inl ⟨after', Stops.missing operands hfirst operator
        (Reader.expectOperand_fault_congr hafter.sameNext h), hafter⟩
    · exact Or.inr ((hrejected.first operands).mono (Nat.le_succ _))
  | second operands first operator expected h ih =>
    intro us hus
    rcases first.alike hus with ⟨l', rest', hfirst, -, hrest⟩ | hrejected
    · obtain ⟨u, after', rfl, ht, hafter⟩ := hrest.cons_left
      rw [ht.kind_eq] at operator
      have expected' := Reader.expectOperand_ok_congr hafter.sameNext expected
      rcases ih hafter with ⟨rest', hstops, hrest⟩ | hrejected
      · exact Or.inl ⟨rest', Stops.second operands hfirst operator expected' hstops, hrest⟩
      · exact Or.inr (hrejected.second operands hfirst operator expected')
    · exact Or.inr ((hrejected.first operands).mono (Nat.le_succ_of_le h.length_le))
  | ended =>
    intro us hus
    cases hus
    exact Or.inl ⟨[], Stops.ended, List.Forall₂.nil⟩
  | malformed kind text =>
    intro us hus
    obtain ⟨u, us, rfl, ht, -⟩ := hus.cons_left
    obtain ⟨a, ha, -⟩ := ht.value kind
    cases text.symm.trans ha
  | misplaced kind =>
    intro us hus
    obtain ⟨u, us, rfl, ht, -⟩ := hus.cons_left
    rw [ht.kind_eq] at kind ⊢
    exact Or.inl ⟨u :: us, Stops.misplaced kind, hus⟩
  | nested kind _ ih =>
    intro us hus
    obtain ⟨u, us, rfl, ht, hts⟩ := hus.cons_left
    rw [ht.kind_eq] at kind
    rcases ih hts with ⟨rest', hstops, hrest⟩ | hrejected
    · exact Or.inl ⟨rest', Stops.nested kind hstops, hrest⟩
    · exact Or.inr (hrejected.nested kind)
  | unclosed opening nested h =>
    intro us hus
    obtain ⟨u, us, rfl, ht, hts⟩ := hus.cons_left
    rw [ht.kind_eq] at opening
    rcases nested.alike hts with ⟨e', rest', hread, -, hrest⟩ | hrejected
    · exact Or.inl ⟨rest', Stops.unclosed opening hread (hrest.sameNext.not_rightParen h), hrest⟩
    · exact Or.inr (hrejected.nested (Or.inr opening))

/-! ## Tokens that have been taken -/

/-- A sentence has no number that cannot be read. -/
theorem Derives.not_isRejected (h : Derives tier ts e) : ∀ t ∈ ts, ¬t.IsRejected := by
  induction h using Derives.rule_induction with
  | pass _ _ ih => exact ih
  | binary _ _ operator _ ihl ihr =>
    have hne := (Tier.kind_ne_of_operator? operator).1
    rw [List.forall_mem_append, List.forall_mem_cons]
    exact ⟨ihl, Token.not_isRejected_of_kind hne, ihr⟩
  | number _ text =>
    rw [List.forall_mem_singleton]
    rintro ⟨-, hnone⟩
    cases text.symm.trans hnone
  | neg kind _ ih =>
    rw [List.forall_mem_cons]
    exact ⟨Token.not_isRejected_of_kind (by simp [kind]), ih⟩
  | group opening _ closing ih =>
    rw [List.forall_mem_cons, List.forall_mem_append, List.forall_mem_singleton]
    exact ⟨Token.not_isRejected_of_kind (by simp [opening]), ih,
      Token.not_isRejected_of_kind (by simp [closing])⟩

/-- Before a fault, there is no number that cannot be read. -/
theorem Stops.not_isRejected (h : Stops tier depth ts fault rest) :
    ∃ seen, ts = seen ++ rest ∧ ∀ t ∈ seen, ¬t.IsRejected := by
  induction h with
  | first _ _ ih => exact ih
  | @missing _ _ _ _ _ _ t _ _ _ _ first operator _ =>
    obtain ⟨taken, rfl, hd⟩ := first.derives
    refine ⟨taken ++ [t], by simp, ?_⟩
    rw [List.forall_mem_append, List.forall_mem_singleton]
    exact ⟨hd.not_isRejected,
      Token.not_isRejected_of_kind (Tier.kind_ne_of_operator? operator).1⟩
  | @second _ _ _ _ _ _ _ t _ _ _ _ first operator _ _ ih =>
    obtain ⟨taken, rfl, hd⟩ := first.derives
    obtain ⟨seen, rfl, hseen⟩ := ih
    refine ⟨taken ++ t :: seen, by simp, ?_⟩
    rw [List.forall_mem_append, List.forall_mem_cons]
    exact ⟨hd.not_isRejected,
      Token.not_isRejected_of_kind (Tier.kind_ne_of_operator? operator).1, hseen⟩
  | ended | malformed | misplaced => exact ⟨[], rfl, fun t ht => absurd ht List.not_mem_nil⟩
  | @nested _ _ _ t _ kind _ ih =>
    obtain ⟨seen, rfl, hseen⟩ := ih
    have ht : t.kind ≠ .number := by rcases kind with kind | kind <;> simp [kind]
    exact ⟨t :: seen, rfl, List.forall_mem_cons.mpr ⟨Token.not_isRejected_of_kind ht, hseen⟩⟩
  | @unclosed _ _ _ t _ opening nested _ =>
    obtain ⟨taken, rfl, hd⟩ := nested.derives
    have ht : t.kind ≠ .number := by simp [opening]
    exact ⟨t :: taken, rfl,
      List.forall_mem_cons.mpr ⟨Token.not_isRejected_of_kind ht, hd.not_isRejected⟩⟩

end Reckoner
