import Reckoner.Proofs.Expr.Enclosed

/-!
# A fault is decided by its neighbours

What may stand at a place is seen on the tokens directly before it, their `lead`. Behind an operand
there is a fault only if a bracket is to be closed and is not; behind a binary operator its right
operand is missing, and where an expression opens, any operand is. A minus is a binary operator
behind an operand, and opens an expression elsewhere. So the lead says which complaint it is,
however deep in brackets and operands the reader is that makes it.

* `StartsBehind`: the places where readers start, on their way through the tokens.
* **`Stops.hasNeighbours`**: the fault of a reader, by the tokens before it and the next one.
* **`parse_fault_by_neighbours`**: the fault of a parse.
-/

namespace Reckoner

/-! ## What stands before a place -/

/-- What the tokens before a place lead to. -/
inductive Lead where
  | operand
  | operator (op : Operator)
  | opening
deriving DecidableEq

/-- The tokens end with a number or a closing bracket. -/
def endsOperand (seen : List Token) : Bool :=
  seen.getLast?.any fun t => t.kind = .number || t.kind = .rightParen

/-- What the tokens lead to, by the last of them, and for a minus by the one before. -/
def lead (seen : List Token) : Lead :=
  match seen.getLast? with
  | none => .opening
  | some t =>
    match t.kind with
    | .number | .rightParen => .operand
    | .plus => .operator .add
    | .minus => if endsOperand seen.dropLast then .operator .sub else .opening
    | .multiply => .operator .mul
    | .divide => .operator .div
    | .modulo => .operator .mod
    | .power => .operator .pow
    | .leftParen => .opening

/-- The number of brackets that are opened. -/
def openings (ts : List Token) : Nat := ts.countP fun t => t.kind = .leftParen

/-- The number of brackets that are closed. -/
def closings (ts : List Token) : Nat := ts.countP fun t => t.kind = .rightParen

section Counts

variable (t : Token) (ts us : List Token)

@[simp] theorem openings_nil : openings [] = 0 := rfl

@[simp] theorem closings_nil : closings [] = 0 := rfl

@[simp] theorem openings_cons :
    openings (t :: ts) = openings ts + if t.kind = .leftParen then 1 else 0 := by
  simp [openings, List.countP_cons]

@[simp] theorem closings_cons :
    closings (t :: ts) = closings ts + if t.kind = .rightParen then 1 else 0 := by
  simp [closings, List.countP_cons]

@[simp] theorem openings_append : openings (ts ++ us) = openings ts + openings us :=
  List.countP_append

@[simp] theorem closings_append : closings (ts ++ us) = closings ts + closings us :=
  List.countP_append

end Counts

variable {tier : Tier} {depth : Nat} {ts seen before taken after rest : List Token} {t : Token}
  {e : Expr} {op : Operator} {fault : Fault}

theorem endsOperand_concat :
    endsOperand (seen ++ [t]) = true ↔ t.kind = .number ∨ t.kind = .rightParen := by
  simp [endsOperand]

theorem lead_operand (hend : endsOperand seen = true) : lead seen = .operand := by
  obtain ⟨t, ht, hk⟩ := Option.any_eq_true _ _ |>.mp hend
  simp only [Bool.or_eq_true, decide_eq_true_eq] at hk
  rcases hk with hk | hk <;> simp only [lead, Option.mem_def.mp ht, hk]

/-- An operator behind an operand is a binary one. -/
theorem lead_operator (hend : endsOperand seen = true) (h : Operator.ofKind? t.kind = some op) :
    lead (seen ++ [t]) = .operator op := by
  simp only [lead, List.getLast?_concat, List.dropLast_concat, hend, if_true]
  cases hk : t.kind <;> rw [hk] at h <;> cases h <;> rfl

/-- An opening bracket, and a minus that is not behind an operand, open an expression. -/
theorem lead_opening (hend : endsOperand seen = false)
    (h : t.kind = .minus ∨ t.kind = .leftParen) : lead (seen ++ [t]) = .opening := by
  rcases h with h | h <;> simp [lead, h, hend]

/-! ## Sentences -/

/-- A sentence ends with an operand, whatever stands before it. -/
theorem Derives.endsOperand_append (h : Derives tier ts e) (before : List Token) :
    endsOperand (before ++ ts) = true := by
  induction h using Derives.rule_induction generalizing before with
  | pass _ _ ih => exact ih before
  | @binary _ _ _ ls rs _ _ t _ _ _ _ _ _ ihr =>
    have := ihr (before ++ ls ++ [t])
    rwa [List.append_assoc, List.append_assoc, List.singleton_append] at this
  | number kind _ => exact endsOperand_concat.mpr (Or.inl kind)
  | @neg t ts _ _ _ ih =>
    have := ih (before ++ [t])
    rwa [List.append_assoc, List.singleton_append] at this
  | @group t u ts _ _ _ closing _ =>
    have : endsOperand (before ++ t :: ts ++ [u]) = true :=
      endsOperand_concat.mpr (Or.inr closing)
    rwa [List.append_assoc, List.cons_append] at this

/-- An operator is neither a bracket nor a number. -/
theorem Operator.kind_ne_of_ofKind? (h : ofKind? t.kind = some op) :
    t.kind ≠ .number ∧ t.kind ≠ .leftParen ∧ t.kind ≠ .rightParen := by
  refine ⟨?_, ?_, ?_⟩ <;> intro hk <;> rw [hk] at h <;> cases h

/-- A sentence closes the brackets that it opens. -/
theorem Derives.closings_eq (h : Derives tier ts e) : closings ts = openings ts := by
  induction h using Derives.rule_induction with
  | pass _ _ ih => exact ih
  | binary _ _ operator _ ihl ihr =>
    obtain ⟨-, hleft, hright⟩ :=
      Operator.kind_ne_of_ofKind? (Tier.operator?_eq_some_iff.mp operator).1
    simp [hleft, hright, ihl, ihr]
  | number kind _ => simp [kind]
  | neg kind _ ih => simp [kind, ih]
  | group opening _ closing ih => simp [opening, closing, ih]

/-! ## Where readers start -/

theorem Reader.exists_of_expectOperand (h : Reader.expectOperand op ts = .ok ()) :
    ∃ t ∈ ts.head?, Reader.startsOperand t.kind = true := by
  rw [Reader.expectOperand_eq, Option.any_map] at h
  split at h
  · rename_i hany
    exact Option.any_eq_true _ _ |>.mp hany
  · cases h

theorem Reader.missing_of_expectOperand
    (h : Reader.expectOperand op ts = .error (.fault fault rest)) :
    fault = .missingOperand op (ts.head?.map (·.kind)) ∧
      ∀ t ∈ ts.head?, Reader.startsOperand t.kind = false := by
  rw [Reader.expectOperand_eq, Option.any_map] at h
  split at h
  · cases h
  · rename_i hany
    cases h
    exact ⟨rfl, Option.any_eq_false _ _ |>.mp (Bool.eq_false_iff.mpr hany)⟩

/-- A reader starts on the tokens `ts`, behind others: where an expression opens, or at a right
operand, which has been looked for. No more brackets are closed there than are opened. -/
structure StartsBehind (before ts : List Token) : Prop where
  lead_eq : lead before = .opening ∨
    ∃ op, lead before = .operator op ∧ Reader.expectOperand op ts = .ok ()
  endsOperand_eq : endsOperand before = false
  closings_le : closings before ≤ openings before

namespace StartsBehind

theorem nil (ts : List Token) : StartsBehind [] ts := ⟨Or.inl rfl, rfl, Nat.le_refl 0⟩

/-- Behind a left operand and an operator, at the right operand. -/
theorem second (h : StartsBehind before ts) (hd : Derives tier taken e)
    (operator : Operator.ofKind? t.kind = some op)
    (expected : Reader.expectOperand op after = .ok ()) :
    StartsBehind (before ++ taken ++ [t]) after := by
  obtain ⟨hnumber, hleft, hright⟩ := Operator.kind_ne_of_ofKind? operator
  refine ⟨Or.inr ⟨op, lead_operator (hd.endsOperand_append before) operator, expected⟩, ?_, ?_⟩
  · simp [endsOperand, hnumber, hright]
  · simpa [hleft, hright, hd.closings_eq] using h.closings_le

/-- Behind an opening bracket or a minus, at an expression. -/
theorem nested (h : StartsBehind before (t :: ts)) (ht : t.kind = .minus ∨ t.kind = .leftParen) :
    StartsBehind (before ++ [t]) ts := by
  have hle := h.closings_le
  refine ⟨Or.inl (lead_opening h.endsOperand_eq ht), ?_, ?_⟩
  · rcases ht with ht | ht <;> simp [endsOperand, ht]
  · rcases ht with ht | ht <;> simp [ht] <;> omega

/-- Where no operand comes, an expression opens, since a right operand has been looked for. -/
theorem lead_opening (h : StartsBehind before ts)
    (hnone : ∀ t ∈ ts.head?, Reader.startsOperand t.kind = false) : lead before = .opening := by
  rcases h.lead_eq with hlead | ⟨op, -, expected⟩
  · exact hlead
  · obtain ⟨t, ht, hs⟩ := Reader.exists_of_expectOperand expected
    cases hs.symm.trans (hnone t ht)

end StartsBehind

/-! ## Faults -/

namespace Fault

/-- The fault at a place where an operand has to come: a number that cannot be read, or a complaint
about what comes instead of an operand. -/
def IsForOperand (complaint : Option Token.Kind → Fault) (next : Option Token) (fault : Fault) :
    Prop :=
  (∃ t, next = some t ∧ t.kind = .number ∧ Numeral.read? t.text = none ∧
      fault = .malformedNumber t.text) ∨
    (fault = complaint (next.map (·.kind)) ∧ ∀ t ∈ next, Reader.startsOperand t.kind = false)

/-- The fault at a place, by the tokens before it and the next one. -/
def HasNeighbours (seen : List Token) (next : Option Token) (fault : Fault) : Prop :=
  match lead seen with
  | .operand =>
    fault = .unclosedBracket ∧ closings seen < openings seen ∧ ∀ t ∈ next, t.kind ≠ .rightParen
  | .operator op => fault.IsForOperand (.missingOperand op) next
  | .opening => fault.IsForOperand .operandExpected next

end Fault

/-- **The fault of a reader has its neighbours**, for a reader that starts behind other tokens. -/
theorem Stops.hasNeighbours (h : Stops tier depth ts fault rest) :
    ∀ {before}, StartsBehind before ts →
      ∃ seen, ts = seen ++ rest ∧ fault.HasNeighbours (before ++ seen) rest.head? := by
  induction h with
  | first operands _ ih => exact ih
  | @missing tier _ _ _ _ after t l op fault operands first operator h =>
    intro before hb
    obtain ⟨taken, rfl, hl⟩ := first.derives
    have hop := (Tier.operator?_eq_some_iff.mp operator).1
    refine ⟨taken ++ [t], by simp, ?_⟩
    rw [← List.append_assoc, Fault.HasNeighbours, lead_operator (hl.endsOperand_append before) hop]
    exact Or.inr (Reader.missing_of_expectOperand h)
  | @second _ _ _ _ _ after rest t _ _ _ operands first operator expected _ ih =>
    intro before hb
    obtain ⟨taken, rfl, hl⟩ := first.derives
    have hop := (Tier.operator?_eq_some_iff.mp operator).1
    obtain ⟨seen, rfl, hseen⟩ := ih (hb.second hl hop expected)
    refine ⟨taken ++ t :: seen, by simp, ?_⟩
    simpa using hseen
  | ended =>
    intro before hb
    have hnone : ∀ t ∈ ([] : List Token).head?, Reader.startsOperand t.kind = false :=
      fun t ht => by cases ht
    refine ⟨[], rfl, ?_⟩
    rw [List.append_nil, Fault.HasNeighbours, hb.lead_opening hnone]
    exact Or.inr ⟨rfl, hnone⟩
  | @malformed _ rest t kind text =>
    intro before hb
    have hfault : ∀ complaint, (Fault.malformedNumber t.text).IsForOperand complaint (some t) :=
      fun complaint => Or.inl ⟨t, rfl, kind, text, rfl⟩
    refine ⟨[], rfl, ?_⟩
    rw [List.append_nil, Fault.HasNeighbours]
    rcases hb.lead_eq with hlead | ⟨op, hlead, -⟩ <;> rw [hlead] <;> exact hfault _
  | @misplaced _ rest t kind =>
    intro before hb
    have hnone : ∀ u ∈ (t :: rest).head?, Reader.startsOperand u.kind = false := by
      rintro u ⟨⟩
      exact kind
    refine ⟨[], rfl, ?_⟩
    rw [List.append_nil, Fault.HasNeighbours, hb.lead_opening hnone]
    exact Or.inr ⟨rfl, hnone⟩
  | @nested _ _ _ t _ kind _ ih =>
    intro before hb
    obtain ⟨seen, rfl, hseen⟩ := ih (hb.nested kind)
    exact ⟨t :: seen, rfl, by simpa using hseen⟩
  | @unclosed _ _ rest t _ opening nested h =>
    intro before hb
    obtain ⟨taken, rfl, hd⟩ := nested.derives
    refine ⟨t :: taken, rfl, ?_⟩
    have hend := hd.endsOperand_append (before ++ [t])
    rw [List.append_assoc, List.singleton_append] at hend
    rw [Fault.HasNeighbours, lead_operand hend]
    have hle := hb.closings_le
    refine ⟨rfl, ?_, h⟩
    simp [opening, hd.closings_eq]
    omega

/-- **A fault is decided by its neighbours.** Say that a parse fails with a fault at an index. Behind
a number or a closing bracket, a bracket is unclosed: more are opened before the index than closed,
and none is closed at it. Behind a binary operator, its operand is missing, and everywhere else, at
the start and behind an opening bracket or a unary minus, an operand is expected: there is a number
at the index that cannot be read, or the end or a kind that no operand starts with. -/
theorem parse_fault_by_neighbours {shown : List Token} {i : Nat} {reason : Fault}
    (h : Expr.parse ts = .error (.fault shown i reason)) :
    i ≤ ts.length ∧
      (lead (ts.take i) = .operand →
        reason = .unclosedBracket ∧ closings (ts.take i) < openings (ts.take i) ∧
          ∀ t ∈ ts[i]?, t.kind ≠ .rightParen) ∧
      (∀ op, lead (ts.take i) = .operator op → reason.IsForOperand (.missingOperand op) ts[i]?) ∧
      (lead (ts.take i) = .opening → reason.IsForOperand .operandExpected ts[i]?) := by
  obtain ⟨rfl, -⟩ := parseWithin_eq_fault_iff.mp h
  obtain ⟨hle, hs⟩ := stops_of_parse h
  obtain ⟨seen, hts, hseen⟩ := hs.hasNeighbours (StartsBehind.nil shown)
  obtain rfl : shown.take i = seen :=
    List.append_cancel_right ((List.take_append_drop i shown).trans hts)
  rw [List.nil_append, List.head?_drop, Fault.HasNeighbours] at hseen
  refine ⟨hle, fun hlead => ?_, fun op hlead => ?_, fun hlead => ?_⟩ <;>
    rwa [hlead] at hseen

/-- In `( 2 - * 1`, the minus is behind a number and lacks its operand. In `2 * - * 1` it opens an
expression. -/
theorem parse_fault_by_neighbours_minus :
    let binary : List Token := [⟨.leftParen, "("⟩, ⟨.number, "2"⟩, ⟨.minus, "-"⟩, ⟨.multiply, "*"⟩,
      ⟨.number, "1"⟩]
    let unary : List Token := [⟨.number, "2"⟩, ⟨.multiply, "*"⟩, ⟨.minus, "-"⟩, ⟨.multiply, "*"⟩,
      ⟨.number, "1"⟩]
    (∃ reason, Expr.parse binary = .error (.fault binary 3 reason) ∧
        reason.IsForOperand (.missingOperand .sub) binary[3]?) ∧
      ∃ reason, Expr.parse unary = .error (.fault unary 3 reason) ∧
        reason.IsForOperand .operandExpected unary[3]? := by
  intro binary unary
  obtain ⟨r, hbinary⟩ : ∃ r, Expr.parse binary = .error (.fault binary 3 r) := ⟨_, rfl⟩
  obtain ⟨s, hunary⟩ : ∃ s, Expr.parse unary = .error (.fault unary 3 s) := ⟨_, rfl⟩
  obtain ⟨-, -, hoperator, -⟩ := parse_fault_by_neighbours hbinary
  obtain ⟨-, -, -, hopening⟩ := parse_fault_by_neighbours hunary
  exact ⟨⟨r, hbinary, hoperator .sub rfl⟩, s, hunary, hopening rfl⟩

end Reckoner
