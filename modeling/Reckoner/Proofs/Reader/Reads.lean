import Reckoner.Proofs.Reader.Tiers

/-!
# Readings

`Reads tier depth ts e rest` says by rules that the reader of a tier reads the tree `e` from the
tokens `ts` and leaves `rest`, and `Stops tier depth ts fault rest` that it stops with a fault at
`rest`. There are no readers in the rules: a reading is a tree of smaller readings, and its depth
only has to suffice.

* **`reader_eq_ok_iff`**, **`reader_eq_fault_iff`**: the rules say exactly what the readers do.
* `Reads.mono`, `Stops.mono`: more depth changes neither a reading nor a fault.
* `reads_or_stops`: eight for each token is depth enough to come to one of the two.
-/

namespace Reckoner

/-- The reader of the tier, with that depth left, reads the tree and leaves the last tokens. -/
inductive Reads : Tier → Nat → List Token → Expr → List Token → Prop where
  | pass {tier left right : Tier} {depth : Nat} {ts rest : List Token} {e : Expr}
      (operands : tier.operands? = some (left, right)) (operand : Reads left depth ts e rest)
      (stop : Reader.next? tier.operator? rest = none) : Reads tier depth ts e rest
  | binary {tier left right : Tier} {depth : Nat} {ts after rest : List Token} {t : Token}
      {l r : Expr} {op : Operator} (operands : tier.operands? = some (left, right))
      (first : Reads left (depth + tier.cost) ts l (t :: after))
      (operator : tier.operator? t.kind = some op)
      (expected : Reader.expectOperand op after = .ok ())
      (second : Reads right depth after r rest) :
      Reads tier (depth + tier.cost) ts (.binary l op r) rest
  | number {depth : Nat} {rest : List Token} {t : Token} {value : Binary64}
      (kind : t.kind = .number) (text : Numeral.read? t.text = some value) :
      Reads .leaf depth (t :: rest) (.num value) rest
  | neg {depth : Nat} {ts rest : List Token} {t : Token} {e : Expr}
      (kind : t.kind = .minus) (nested : Reads .additive depth ts e rest) :
      Reads .leaf (depth + 8) (t :: ts) (.neg e) rest
  | group {depth : Nat} {ts rest : List Token} {t u : Token} {e : Expr}
      (opening : t.kind = .leftParen) (nested : Reads .additive depth ts e (u :: rest))
      (closing : u.kind = .rightParen) : Reads .leaf (depth + 8) (t :: ts) (.group e) rest

/-- The reader of the tier, with that depth left, stops with the fault at the last tokens. -/
inductive Stops : Tier → Nat → List Token → Fault → List Token → Prop where
  | first {tier left right : Tier} {depth : Nat} {ts rest : List Token} {fault : Fault}
      (operands : tier.operands? = some (left, right)) (h : Stops left depth ts fault rest) :
      Stops tier depth ts fault rest
  | missing {tier left right : Tier} {depth : Nat} {ts after : List Token} {t : Token} {l : Expr}
      {op : Operator} {fault : Fault} (operands : tier.operands? = some (left, right))
      (first : Reads left depth ts l (t :: after)) (operator : tier.operator? t.kind = some op)
      (h : Reader.expectOperand op after = .error (.fault fault after)) :
      Stops tier depth ts fault after
  | second {tier left right : Tier} {depth : Nat} {ts after rest : List Token} {t : Token}
      {l : Expr} {op : Operator} {fault : Fault} (operands : tier.operands? = some (left, right))
      (first : Reads left (depth + tier.cost) ts l (t :: after))
      (operator : tier.operator? t.kind = some op)
      (expected : Reader.expectOperand op after = .ok ())
      (h : Stops right depth after fault rest) : Stops tier (depth + tier.cost) ts fault rest
  | ended {depth : Nat} : Stops .leaf depth [] (.operandExpected none) []
  | malformed {depth : Nat} {rest : List Token} {t : Token} (kind : t.kind = .number)
      (text : Numeral.read? t.text = none) :
      Stops .leaf depth (t :: rest) (.malformedNumber t.text) (t :: rest)
  | misplaced {depth : Nat} {rest : List Token} {t : Token}
      (kind : Reader.startsOperand t.kind = false) :
      Stops .leaf depth (t :: rest) (.operandExpected (some t.kind)) (t :: rest)
  | nested {depth : Nat} {ts rest : List Token} {t : Token} {fault : Fault}
      (kind : t.kind = .minus ∨ t.kind = .leftParen) (h : Stops .additive depth ts fault rest) :
      Stops .leaf (depth + 8) (t :: ts) fault rest
  | unclosed {depth : Nat} {ts rest : List Token} {t : Token} {e : Expr}
      (opening : t.kind = .leftParen) (nested : Reads .additive depth ts e rest)
      (h : ∀ u ∈ rest.head?, u.kind ≠ .rightParen) :
      Stops .leaf (depth + 8) (t :: ts) .unclosedBracket rest

variable {tier left right : Tier} {depth depth' : Nat} {ts rest rest' : List Token} {e e' : Expr}
  {fault fault' : Fault}

/-! ## The rules say what the readers do -/

theorem Reads.reader_eq (h : Reads tier depth ts e rest) :
    tier.reader depth ts = .ok (e, rest) := by
  induction h with
  | pass operands _ stop ih =>
    rw [Tier.reader_of_operands operands]
    exact Reader.tier_of_next?_eq_none ih stop
  | binary operands _ operator expected _ ihl ihr =>
    rw [Tier.reader_of_operands operands, Reader.tier_of_operator ihl operator, expected,
      Reader.deeper_add]
    simp only [bind, Except.bind, ihr]
    rfl
  | number kind text => exact Reader.leaf_number kind text
  | neg kind _ ih =>
    rw [Tier.reader_leaf, Reader.leaf_minus kind, Reader.deeper_add]
    simp only [bind, Except.bind, ih]
    rfl
  | group opening _ closing ih =>
    rw [Tier.reader_leaf, Reader.leaf_leftParen opening, Reader.deeper_add]
    simp only [bind, Except.bind, ih]
    exact Reader.closeBracket_of_rightParen closing

theorem Stops.reader_eq (h : Stops tier depth ts fault rest) :
    tier.reader depth ts = .error (.fault fault rest) := by
  induction h with
  | first operands _ ih =>
    rw [Tier.reader_of_operands operands]
    exact Reader.tier_of_error ih
  | missing operands first operator h =>
    rw [Tier.reader_of_operands operands, Reader.tier_of_operator first.reader_eq operator, h]
    rfl
  | second operands first operator expected _ ih =>
    rw [Tier.reader_of_operands operands, Reader.tier_of_operator first.reader_eq operator,
      expected, Reader.deeper_add]
    simp only [bind, Except.bind, ih]
  | ended => rfl
  | malformed kind text => exact Reader.leaf_malformed kind text
  | misplaced kind => exact Reader.leaf_misplaced kind
  | nested kind _ ih =>
    rw [Tier.reader_leaf]
    rcases kind with kind | kind
    · rw [Reader.leaf_minus kind, Reader.deeper_add]
      simp only [bind, Except.bind, ih]
    · rw [Reader.leaf_leftParen kind, Reader.deeper_add]
      simp only [bind, Except.bind, ih]
  | unclosed opening nested h =>
    rw [Tier.reader_leaf, Reader.leaf_leftParen opening, Reader.deeper_add]
    simp only [bind, Except.bind, nested.reader_eq]
    exact Reader.closeBracket_of_open h

/-- Every reading takes a token. -/
theorem Reads.length_lt (h : Reads tier depth ts e rest) : rest.length < ts.length := by
  induction h with
  | pass _ _ _ ih => exact ih
  | binary _ _ _ _ _ ihl ihr =>
    rw [List.length_cons] at ihl
    omega
  | number => exact Nat.lt_succ_self _
  | neg _ _ ih =>
    rw [List.length_cons]
    omega
  | group _ _ _ ih =>
    rw [List.length_cons] at ih ⊢
    omega

/-- What the rules say of an answer. Only with less than eight for each token can a reader find that
it lacks depth. -/
def Answers (tier : Tier) (depth : Nat) (ts : List Token) :
    Except Halt (Expr × List Token) → Prop
  | .ok (e, rest) => Reads tier depth ts e rest
  | .error (.fault fault rest) => Stops tier depth ts fault rest
  | .error .tooDeep => depth < 8 * ts.length

/-- What follows a reading one level deeper decides the answer, unless the deeper reading fails. -/
theorem answers_nested {t : Token} (kind : t.kind = .minus ∨ t.kind = .leftParen)
    (ih : ∀ d, depth = d + 8 → Answers .additive d ts (Tier.additive.reader d ts))
    (next : Expr → Reader)
    (hnext : ∀ d e rest, depth = d + 8 → Reads .additive d ts e rest →
      Answers .leaf depth (t :: ts) (next e rest)) :
    Answers .leaf depth (t :: ts)
      (Reader.deeper 8 Tier.additive.reader depth ts >>= fun p => next p.1 p.2) := by
  rcases Reader.deeper_cases 8 Tier.additive.reader depth with ⟨hd, h⟩ | ⟨d, hd, h⟩
  · rw [h]
    change depth < 8 * (ts.length + 1)
    omega
  · have ih := ih d hd
    rw [h, hd]
    rcases hr : Tier.additive.reader d ts with (⟨fault, rest⟩ | _) | ⟨e, rest⟩
    · rw [hr] at ih
      exact Stops.nested kind ih
    · rw [hr] at ih
      change d < 8 * ts.length at ih
      change d + 8 < 8 * (ts.length + 1)
      omega
    · rw [hr] at ih
      exact hd ▸ hnext d e rest hd ih

/-- The answer of a leaf, from the answers to what it nests. -/
theorem answers_leaf
    (ih : ∀ d, depth = d + 8 → ∀ ts, Answers .additive d ts (Tier.additive.reader d ts))
    (ts : List Token) : Answers .leaf depth ts (Tier.leaf.reader depth ts) := by
  rw [Tier.reader_leaf]
  cases ts with
  | nil => exact Stops.ended
  | cons t ts =>
    by_cases hs : Reader.startsOperand t.kind = true
    · rcases Reader.startsOperand_iff.mp hs with hk | hk | hk
      · cases hv : Numeral.read? t.text with
        | none =>
          rw [Reader.leaf_malformed hk hv]
          exact Stops.malformed hk hv
        | some value =>
          rw [Reader.leaf_number hk hv]
          exact Reads.number hk hv
      · rw [Reader.leaf_minus hk]
        refine answers_nested (Or.inl hk) (fun d hd => ih d hd ts)
          (fun e rest => .ok (.neg e, rest)) ?_
        rintro d e rest rfl h
        exact Reads.neg hk h
      · rw [Reader.leaf_leftParen hk]
        refine answers_nested (Or.inr hk) (fun d hd => ih d hd ts) Reader.closeBracket ?_
        rintro d e rest rfl h
        rcases Reader.closed_or_open rest with ⟨u, rest, rfl, hu⟩ | hu
        · rw [Reader.closeBracket_of_rightParen hu]
          exact Reads.group hk h hu
        · rw [Reader.closeBracket_of_open hu]
          exact Stops.unclosed hk h hu
    · rw [Bool.not_eq_true] at hs
      rw [Reader.leaf_misplaced hs]
      exact Stops.misplaced hs

/-- The answer of a tier with operators, from the answers to its operands. -/
theorem answers_operands (operands : tier.operands? = some (left, right))
    (ihl : ∀ ts, Answers left depth ts (left.reader depth ts))
    (ihr : ∀ d, depth = d + tier.cost → ∀ ts, Answers right d ts (right.reader d ts))
    (ts : List Token) : Answers tier depth ts (tier.reader depth ts) := by
  have ihl := ihl ts
  have hcost : tier.cost ≤ 2 := by cases tier <;> decide
  rw [Tier.reader_of_operands operands]
  rcases hl : left.reader depth ts with (⟨fault, rest⟩ | _) | ⟨l, rest⟩
  · rw [hl] at ihl
    rw [Reader.tier_of_error hl]
    exact Stops.first operands ihl
  · rw [hl] at ihl
    rw [Reader.tier_of_error hl]
    exact ihl
  · rw [hl] at ihl
    have first : Reads left depth ts l rest := ihl
    cases hn : Reader.next? tier.operator? rest with
    | none =>
      rw [Reader.tier_of_next?_eq_none hl hn]
      exact Reads.pass operands first hn
    | some op =>
      obtain ⟨t, ht, operator⟩ := Option.bind_eq_some_iff.mp hn
      obtain ⟨after, rfl⟩ := List.head?_eq_some_iff.mp ht
      have hlt := first.length_lt
      rw [Reader.tier_of_operator hl operator]
      rcases Reader.expectOperand_cases op after with expected | ⟨fault, missing⟩
      · rw [expected]
        rcases Reader.deeper_cases tier.cost right.reader depth with ⟨hd, h⟩ | ⟨d, rfl, h⟩
        · rw [h]
          change depth < 8 * ts.length
          omega
        · have ihr := ihr d rfl after
          rw [h]
          rcases hr : right.reader d after with (⟨fault, rest⟩ | _) | ⟨r, rest⟩
          · rw [hr] at ihr
            exact Stops.second operands first operator expected ihr
          · rw [hr] at ihr
            change d < 8 * after.length at ihr
            change d + tier.cost < 8 * ts.length
            rw [List.length_cons] at hlt
            omega
          · rw [hr] at ihr
            exact Reads.binary operands first operator expected ihr
      · rw [missing]
        exact Stops.missing operands first operator missing

theorem answers_reader (tier : Tier) (depth : Nat) :
    ∀ ts, Answers tier depth ts (tier.reader depth ts) := by
  induction tier, depth using Tier.depth_induction with
  | leaf depth ih => exact answers_leaf ih
  | operands tier left right depth operands ihl ihr => exact answers_operands operands ihl ihr

/-- **The rules of reading say exactly what the readers read.** -/
theorem reader_eq_ok_iff : tier.reader depth ts = .ok (e, rest) ↔ Reads tier depth ts e rest := by
  constructor
  · intro h
    have := answers_reader tier depth ts
    rwa [h] at this
  · exact Reads.reader_eq

/-- **The rules of stopping say exactly with which faults the readers stop.** -/
theorem reader_eq_fault_iff :
    tier.reader depth ts = .error (.fault fault rest) ↔ Stops tier depth ts fault rest := by
  constructor
  · intro h
    have := answers_reader tier depth ts
    rwa [h] at this
  · exact Stops.reader_eq

/-- Eight for each token is depth enough for a reading or a fault. -/
theorem reads_or_stops (h : 8 * ts.length ≤ depth) :
    (∃ e rest, Reads tier depth ts e rest) ∨ ∃ fault rest, Stops tier depth ts fault rest := by
  have ha := answers_reader tier depth ts
  rcases hr : tier.reader depth ts with (⟨fault, rest⟩ | _) | ⟨e, rest⟩ <;> rw [hr] at ha
  · exact Or.inr ⟨fault, rest, ha⟩
  · exact absurd (Nat.lt_of_lt_of_le ha h) (Nat.lt_irrefl _)
  · exact Or.inl ⟨e, rest, ha⟩

/-! ## One answer for all depths -/

theorem exists_add_of_add_le {a cost n : Nat} (h : a + cost ≤ n) : ∃ d, n = d + cost ∧ a ≤ d :=
  ⟨n - cost, by omega, by omega⟩

theorem Reads.mono (h : Reads tier depth ts e rest) (hle : depth ≤ depth') :
    Reads tier depth' ts e rest := by
  induction h generalizing depth' with
  | pass operands _ stop ih => exact Reads.pass operands (ih hle) stop
  | binary operands _ operator expected _ ihl ihr =>
    obtain ⟨d, rfl, hd⟩ := exists_add_of_add_le hle
    exact Reads.binary operands (ihl hle) operator expected (ihr hd)
  | number kind text => exact Reads.number kind text
  | neg kind _ ih =>
    obtain ⟨d, rfl, hd⟩ := exists_add_of_add_le hle
    exact Reads.neg kind (ih hd)
  | group opening _ closing ih =>
    obtain ⟨d, rfl, hd⟩ := exists_add_of_add_le hle
    exact Reads.group opening (ih hd) closing

theorem Stops.mono (h : Stops tier depth ts fault rest) (hle : depth ≤ depth') :
    Stops tier depth' ts fault rest := by
  induction h generalizing depth' with
  | first operands _ ih => exact Stops.first operands (ih hle)
  | missing operands first operator h => exact Stops.missing operands (first.mono hle) operator h
  | second operands first operator expected _ ih =>
    obtain ⟨d, rfl, hd⟩ := exists_add_of_add_le hle
    exact Stops.second operands (first.mono hle) operator expected (ih hd)
  | ended => exact Stops.ended
  | malformed kind text => exact Stops.malformed kind text
  | misplaced kind => exact Stops.misplaced kind
  | nested kind _ ih =>
    obtain ⟨d, rfl, hd⟩ := exists_add_of_add_le hle
    exact Stops.nested kind (ih hd)
  | unclosed opening nested h =>
    obtain ⟨d, rfl, hd⟩ := exists_add_of_add_le hle
    exact Stops.unclosed opening (nested.mono hd) h

/-- A tier reads one tree at most from the tokens, at whatever depths. -/
theorem Reads.unique (h : Reads tier depth ts e rest) (h' : Reads tier depth' ts e' rest') :
    e = e' ∧ rest = rest' := by
  have h1 := (h.mono (Nat.le_max_left depth depth')).reader_eq
  have h2 := (h'.mono (Nat.le_max_right depth depth')).reader_eq
  rw [h1] at h2
  cases h2
  exact ⟨rfl, rfl⟩

/-- A tier stops with one fault at most, at one place, at whatever depths. -/
theorem Stops.unique (h : Stops tier depth ts fault rest) (h' : Stops tier depth' ts fault' rest') :
    fault = fault' ∧ rest = rest' := by
  have h1 := (h.mono (Nat.le_max_left depth depth')).reader_eq
  have h2 := (h'.mono (Nat.le_max_right depth depth')).reader_eq
  rw [h1] at h2
  cases h2
  exact ⟨rfl, rfl⟩

/-- What is read is no fault, at whatever depths. -/
theorem Reads.not_stops (h : Reads tier depth ts e rest) :
    ¬Stops tier depth' ts fault rest' := by
  intro h'
  have h1 := (h.mono (Nat.le_max_left depth depth')).reader_eq
  have h2 := (h'.mono (Nat.le_max_right depth depth')).reader_eq
  rw [h1] at h2
  cases h2

/-! ## Leaves, by their first token -/

section Leaves

variable {t : Token}

theorem Reads.of_number (kind : t.kind = .number) (h : Reads .leaf depth (t :: ts) e rest) :
    rest = ts ∧ ∃ value, Numeral.read? t.text = some value ∧ e = .num value := by
  cases h with
  | pass operands | binary operands => cases operands
  | number _ text => exact ⟨rfl, _, text, rfl⟩
  | neg kind' | group kind' => cases kind.symm.trans kind'

theorem Reads.of_minus (kind : t.kind = .minus) (h : Reads .leaf depth (t :: ts) e rest) :
    ∃ d inner, depth = d + 8 ∧ Reads .additive d ts inner rest ∧ e = .neg inner := by
  cases h with
  | pass operands | binary operands => cases operands
  | neg _ nested => exact ⟨_, _, rfl, nested, rfl⟩
  | number kind' | group kind' => cases kind.symm.trans kind'

theorem Reads.of_leftParen (kind : t.kind = .leftParen) (h : Reads .leaf depth (t :: ts) e rest) :
    ∃ d inner u, depth = d + 8 ∧ Reads .additive d ts inner (u :: rest) ∧
      u.kind = .rightParen ∧ e = .group inner := by
  cases h with
  | pass operands | binary operands => cases operands
  | group _ nested closing => exact ⟨_, _, _, rfl, nested, closing, rfl⟩
  | number kind' | neg kind' => cases kind.symm.trans kind'

theorem Stops.of_number (kind : t.kind = .number) (h : Stops .leaf depth (t :: ts) fault rest) :
    Numeral.read? t.text = none ∧ fault = .malformedNumber t.text ∧ rest = t :: ts := by
  cases h with
  | first operands | missing operands | second operands => cases operands
  | malformed _ text => exact ⟨text, rfl, rfl⟩
  | misplaced kind' =>
    rw [kind] at kind'
    cases kind'
  | nested kind' => rcases kind' with kind' | kind' <;> cases kind.symm.trans kind'
  | unclosed kind' => cases kind.symm.trans kind'

theorem Stops.of_minus (kind : t.kind = .minus) (h : Stops .leaf depth (t :: ts) fault rest) :
    ∃ d, depth = d + 8 ∧ Stops .additive d ts fault rest := by
  cases h with
  | first operands | missing operands | second operands => cases operands
  | malformed kind' => cases kind.symm.trans kind'
  | misplaced kind' =>
    rw [kind] at kind'
    cases kind'
  | nested _ h => exact ⟨_, rfl, h⟩
  | unclosed kind' => cases kind.symm.trans kind'

theorem Stops.of_leftParen (kind : t.kind = .leftParen)
    (h : Stops .leaf depth (t :: ts) fault rest) :
    ∃ d, depth = d + 8 ∧ (Stops .additive d ts fault rest ∨
      fault = .unclosedBracket ∧ (∀ u ∈ rest.head?, u.kind ≠ .rightParen) ∧
        ∃ inner, Reads .additive d ts inner rest) := by
  cases h with
  | first operands | missing operands | second operands => cases operands
  | malformed kind' => cases kind.symm.trans kind'
  | misplaced kind' =>
    rw [kind] at kind'
    cases kind'
  | nested _ h => exact ⟨_, rfl, Or.inl h⟩
  | unclosed _ nested h => exact ⟨_, rfl, Or.inr ⟨rfl, h, _, nested⟩⟩

end Leaves

/-! ## Parses -/

/-- A parse gives the tree that the upper tier reads. -/
theorem parseWithin_eq_ok_iff {p : Parsed} :
    Expr.parseWithin depth ts = .ok p ↔ Reads .additive depth ts p.expr p.ignored := by
  rw [← reader_eq_ok_iff]
  change _ ↔ Reader.expression depth ts = _
  unfold Expr.parseWithin
  rcases Reader.expression depth ts with (⟨fault, rest⟩ | _) | ⟨e, rest⟩
  · simp
  · simp
  · obtain ⟨expr, ignored⟩ := p
    simp

/-- A parse fails with the fault with which the upper tier stops, at the index of its place. -/
theorem parseWithin_eq_fault_iff {shown : List Token} {i : Nat} :
    Expr.parseWithin depth ts = .error (.fault shown i fault) ↔
      shown = ts ∧ ∃ rest, i = ts.length - rest.length ∧ Stops .additive depth ts fault rest := by
  simp only [← reader_eq_fault_iff]
  change _ ↔ shown = ts ∧ ∃ rest, _ ∧ Reader.expression depth ts = _
  unfold Expr.parseWithin
  rcases Reader.expression depth ts with (⟨fault', rest⟩ | _) | ⟨e, rest⟩
  · simp only [Except.error.injEq, ParseError.fault.injEq, Halt.fault.injEq]
    constructor
    · rintro ⟨rfl, rfl, rfl⟩
      exact ⟨rfl, rest, rfl, rfl, rfl⟩
    · rintro ⟨rfl, rest', rfl, rfl, rfl⟩
      exact ⟨rfl, rfl, rfl⟩
  · simp
  · simp

/-- A parse that does not go too deep gives a tree or a fault. -/
theorem reads_or_stops_of_parseWithin
    (h : Expr.parseWithin depth ts ≠ .error (.nestedTooDeeply ts)) :
    (∃ e rest, Reads .additive depth ts e rest) ∨
      ∃ fault rest, Stops .additive depth ts fault rest := by
  have ha := answers_reader .additive depth ts
  change Answers .additive depth ts (Reader.expression depth ts) at ha
  unfold Expr.parseWithin at h
  rcases hr : Reader.expression depth ts with (⟨fault, rest⟩ | _) | ⟨e, rest⟩ <;>
    rw [hr] at h ha
  · exact Or.inr ⟨fault, rest, ha⟩
  · exact absurd rfl h
  · exact Or.inl ⟨e, rest, ha⟩

/-- What can be read at some depth is the answer of a parse, unless that goes too deep. -/
theorem Reads.parseWithin_eq (h : Reads .additive depth' ts e rest)
    (hdeep : Expr.parseWithin depth ts ≠ .error (.nestedTooDeeply ts)) :
    Expr.parseWithin depth ts = .ok ⟨e, rest⟩ := by
  rcases reads_or_stops_of_parseWithin hdeep with ⟨e', rest', hr⟩ | ⟨fault, rest', hs⟩
  · obtain ⟨rfl, rfl⟩ := h.unique hr
    exact parseWithin_eq_ok_iff.mpr hr
  · exact absurd hs h.not_stops

theorem Stops.parseWithin_eq (h : Stops .additive depth' ts fault rest)
    (hdeep : Expr.parseWithin depth ts ≠ .error (.nestedTooDeeply ts)) :
    Expr.parseWithin depth ts = .error (.fault ts (ts.length - rest.length) fault) := by
  rcases reads_or_stops_of_parseWithin hdeep with ⟨e', rest', hr⟩ | ⟨fault', rest', hs⟩
  · exact absurd h hr.not_stops
  · obtain ⟨rfl, rfl⟩ := h.unique hs
    exact parseWithin_eq_fault_iff.mpr ⟨rfl, _, rfl, hs⟩

/-- Few tokens never go too deep. -/
theorem parseWithin_ne_nestedTooDeeply (h : 8 * ts.length ≤ depth) (shown : List Token) :
    Expr.parseWithin depth ts ≠ .error (.nestedTooDeeply shown) := by
  intro hp
  have ha := answers_reader .additive depth ts
  change Answers .additive depth ts (Reader.expression depth ts) at ha
  unfold Expr.parseWithin at hp
  rcases hr : Reader.expression depth ts with (⟨fault, rest⟩ | _) | ⟨e, rest⟩ <;>
    rw [hr] at hp ha
  · cases hp
  · exact absurd (Nat.lt_of_lt_of_le ha h) (Nat.lt_irrefl _)
  · cases hp

end Reckoner
