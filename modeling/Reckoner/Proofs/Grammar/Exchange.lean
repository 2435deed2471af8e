import Reckoner.Proofs.Grammar.ValidPrefix

/-!
# A leaf in the place of a number

Where a reader takes a number it could take any other leaf: it goes on in the same way with the
tokens after it. `g` are the tokens of a leaf that is read as `new` before the tokens `s`, and `n`
is a number token; a reader on `p ++ g ++ s` does what it does on `p ++ n :: s`, with `new` in the
tree where the number was.

* `Expr.replaceNumber`: a tree with another one in the place of a number.
* **`Reads.exchange`**: what is read past the number is read past the leaf.
* `Reads.before_exchange`: what is read before the number is read before the leaf.
* **`Stops.exchange`**: a reader stops with the same fault, at the same tokens.
-/

namespace Reckoner

/-! ## Replacing a number in a tree -/

namespace Expr

/-- The tree with `new` in the place of the number that is the token at `index`; `start` is the
index of the first token of the tree. Without such a number, the tree itself. -/
def replaceNumber : Expr → Nat → Expr → Nat → Expr
  | num value, index, new, start => if start = index then new else num value
  | binary l op r, index, new, start =>
    binary (l.replaceNumber index new start) op (r.replaceNumber index new (start + l.width + 1))
  | group inner, index, new, start => group (inner.replaceNumber index new (start + 1))
  | neg inner, index, new, start => neg (inner.replaceNumber index new (start + 1))
  | foreign typeName, _, _, _ => foreign typeName

theorem replaceNumber_of_lt {index start : Nat} (h : index < start) (e new : Expr) :
    e.replaceNumber index new start = e := by
  induction e generalizing start with
  | num value => exact if_neg (Nat.ne_of_gt h)
  | binary l op r ihl ihr => rw [replaceNumber, ihl h, ihr (by omega)]
  | group inner ih => rw [replaceNumber, ih (Nat.lt_succ_of_lt h)]
  | neg inner ih => rw [replaceNumber, ih (Nat.lt_succ_of_lt h)]
  | foreign => rfl

theorem replaceNumber_of_le {index start : Nat} {e : Expr} (h : start + e.width ≤ index)
    (new : Expr) : e.replaceNumber index new start = e := by
  induction e generalizing start with
  | num value => exact if_neg (by rw [width] at h; omega)
  | binary l op r ihl ihr =>
    rw [width] at h
    rw [replaceNumber, ihl (by omega), ihr (by omega)]
  | group inner ih | neg inner ih =>
    rw [width] at h
    rw [replaceNumber, ih (by omega)]
  | foreign => rfl

end Expr

variable {tier : Tier} {depth limit : Nat} {p s g ts us rest : List Token} {n t : Token}
  {e new : Expr} {op : Operator} {fault : Fault} {value : Binary64}

/-! ## Before and past the number -/

/-- What ends before the number still has it ahead. -/
theorem exists_append_of_length_lt (h : p ++ n :: s = us ++ rest) (hlt : s.length < rest.length) :
    ∃ p', p = us ++ p' ∧ rest = p' ++ n :: s := by
  rcases List.append_eq_append_iff.mp h with ⟨x, rfl, hx⟩ | ⟨p', rfl, rfl⟩
  · have hlength := congrArg List.length hx
    rw [List.length_cons, List.length_append] at hlength
    obtain rfl : x = [] := List.length_eq_zero_iff.mp (by omega)
    exact ⟨[], by simp, hx.symm⟩
  · exact ⟨p', rfl, rfl⟩

/-- A token that is not the number comes before it. -/
theorem exists_cons_of_ne (ht : t ≠ n) (h : t :: ts = p ++ n :: s) :
    ∃ p', p = t :: p' ∧ ts = p' ++ n :: s := by
  cases p with
  | nil => exact absurd (List.cons.inj h).1 ht
  | cons u p =>
    obtain ⟨rfl, rfl⟩ := List.cons.inj h
    exact ⟨p, rfl, rfl⟩

theorem ne_of_kind (hn : n.kind = .number) (ht : t.kind ≠ .number) : t ≠ n := by
  rintro rfl
  exact ht hn

/-- A tree has as many tokens as were taken for it. -/
theorem Reads.width_add_length (h : Reads tier depth ts e rest) :
    e.width + rest.length = ts.length := by
  obtain ⟨taken, rfl, hd⟩ := h.derives
  rw [hd.width_eq, List.length_append]

theorem Reads.expectOperand (h : Reads tier depth ts e rest) (op : Operator) :
    Reader.expectOperand op ts = .ok () := by
  obtain ⟨taken, rfl, hd⟩ := h.derives
  exact hd.expectOperand op rest

/-- What is read does not start with a closing bracket. -/
theorem Reads.kind_ne_rightParen (h : Reads tier depth ts e rest) :
    ∀ t ∈ ts.head?, t.kind ≠ .rightParen := by
  obtain ⟨taken, rfl, hd⟩ := h.derives
  obtain ⟨u, after, rfl, hu⟩ := hd.exists_cons
  rintro t ht hkind
  cases ht
  rw [hkind] at hu
  cases hu

/-- **What is read before the number** is read before the leaf, if that is not taken for an
operator. -/
theorem Reads.before_exchange (h : Reads tier depth (p ++ n :: s) e rest)
    (hlt : s.length < rest.length) (hnext : rest = n :: s → nextOperator (g ++ s) = none) :
    ∃ p', rest = p' ++ n :: s ∧ Reads tier depth (p ++ (g ++ s)) e (p' ++ (g ++ s)) := by
  obtain ⟨taken, htaken, -⟩ := h.derives
  obtain ⟨p', rfl, rfl⟩ := exists_append_of_length_lt htaken hlt
  refine ⟨p', rfl, ?_⟩
  rw [List.append_assoc] at h ⊢
  refine h.followed ?_
  cases p' with
  | nil => exact Or.inl (hnext rfl)
  | cons u p' => exact Or.inr rfl

/-- An operator before the number stays where it is. -/
theorem Reads.operator_before {tier' : Tier} (hn : n.kind = .number)
    (h : Reads tier depth (p ++ n :: s) e (t :: rest)) (operator : tier'.operator? t.kind = some op)
    (hlt : s.length < (t :: rest).length) :
    ∃ p', rest = p' ++ n :: s ∧ p'.length < p.length ∧
      Reads tier depth (p ++ (g ++ s)) e (t :: (p' ++ (g ++ s))) := by
  have hne := ne_of_kind hn (Tier.kind_ne_of_operator? operator).1
  obtain ⟨p', hp', hread⟩ := h.before_exchange (g := g) hlt fun heq =>
    absurd (List.cons.inj heq).1 hne
  obtain ⟨p', rfl, rfl⟩ := exists_cons_of_ne hne hp'
  have hlength := h.length_lt
  rw [List.length_cons, List.length_append, List.length_append] at hlength
  exact ⟨p', rfl, by omega, hread⟩

/-- **What is read past the number** is read past the leaf. -/
theorem Reads.exchange (hn : n.kind = .number) (hg : Reads .leaf limit (g ++ s) new s)
    (h : Reads tier depth ts e rest) :
    ∀ {p} start, ts = p ++ n :: s → rest.length ≤ s.length →
      ∃ d, Reads tier d (p ++ (g ++ s)) (e.replaceNumber (start + p.length) new start) rest := by
  induction h with
  | pass operands _ stop ih =>
    intro p start hts hle
    obtain ⟨d, hread⟩ := ih start hts hle
    exact ⟨d, Reads.pass operands hread stop⟩
  | @binary tier left right depth ts after rest t l r op operands first operator expected second ihl
      ihr =>
    rintro p start rfl hle
    have hwidth := first.width_add_length
    rw [List.length_append, List.length_cons, List.length_cons] at hwidth
    rw [Expr.replaceNumber]
    rcases Nat.lt_or_ge s.length (t :: after).length with hlt | hin
    · -- The number is in the right operand.
      obtain ⟨p', rfl, -, hfirst⟩ := first.operator_before (g := g) hn operator hlt
      obtain ⟨d, hsecond⟩ := ihr (start + l.width + 1) rfl hle
      rw [List.length_append, List.length_cons] at hwidth
      have hindex : start + l.width + 1 + p'.length = start + p.length := by omega
      rw [hindex] at hsecond
      rw [Expr.replaceNumber_of_le (e := l) (by omega)]
      exact ⟨max depth d + tier.cost, Reads.binary operands
        (hfirst.mono (Nat.add_le_add_right (Nat.le_max_left ..) _)) operator
        (hsecond.expectOperand op) (hsecond.mono (Nat.le_max_right ..))⟩
    · -- The number is in the left operand.
      obtain ⟨d, hfirst⟩ := ihl start rfl hin
      rw [List.length_cons] at hin
      rw [Expr.replaceNumber_of_lt (by omega) r]
      exact ⟨max d depth + tier.cost, Reads.binary operands
        (hfirst.mono (Nat.le_add_right_of_le (Nat.le_max_left ..))) operator expected
        (second.mono (Nat.le_max_right ..))⟩
  | @number depth rest t value kind text =>
    intro p start hts hle
    cases p with
    | nil =>
      obtain ⟨-, rfl⟩ := List.cons.inj hts
      exact ⟨limit, by rwa [Expr.replaceNumber, List.length_nil, Nat.add_zero, if_pos rfl]⟩
    | cons u p =>
      rw [List.cons_append] at hts
      obtain ⟨-, rfl⟩ := List.cons.inj hts
      rw [List.length_append, List.length_cons] at hle
      omega
  | @neg depth ts rest t e kind nested ih =>
    intro p start hts hle
    obtain ⟨p, rfl, rfl⟩ := exists_cons_of_ne (ne_of_kind hn (by simp [kind])) hts
    obtain ⟨d, hread⟩ := ih (start + 1) rfl hle
    rw [Nat.add_right_comm, Nat.add_assoc] at hread
    exact ⟨d + 8, Reads.neg kind hread⟩
  | @group depth ts rest t u e opening nested closing ih =>
    intro p start hts hle
    obtain ⟨p, rfl, rfl⟩ := exists_cons_of_ne (ne_of_kind hn (by simp [opening])) hts
    -- The closing bracket is not the number, so what it closes ends behind that.
    have hin : (u :: rest).length ≤ s.length := by
      refine Nat.le_of_not_lt fun hlt => ?_
      obtain ⟨taken, htaken, -⟩ := nested.derives
      obtain ⟨p', -, hp'⟩ := exists_append_of_length_lt htaken hlt
      obtain ⟨p', -, rfl⟩ := exists_cons_of_ne (ne_of_kind hn (by simp [closing])) hp'
      rw [List.length_append, List.length_cons] at hle
      omega
    obtain ⟨d, hread⟩ := ih (start + 1) rfl hin
    rw [Nat.add_right_comm, Nat.add_assoc] at hread
    exact ⟨d + 8, Reads.group opening hread closing⟩

/-! ## Faults -/

/-- The tokens that are left on the list with the number and on the one with the leaf: the same
behind it, and else those up to it and what comes from there. -/
inductive Exchange (n : Token) (g s : List Token) : List Token → List Token → Prop where
  | behind {rest : List Token} (h : rest.length ≤ s.length) : Exchange n g s rest rest
  | ahead (p : List Token) : Exchange n g s (p ++ n :: s) (p ++ (g ++ s))

/-- Whether an operand may come next does not depend on which leaf it is. -/
theorem expectOperand_exchange (hg : Reads .leaf limit (g ++ s) new s)
    (h : Reader.expectOperand op (p ++ n :: s) = .ok ()) :
    Reader.expectOperand op (p ++ (g ++ s)) = .ok () := by
  cases p with
  | nil => exact hg.expectOperand op
  | cons u p =>
    refine Reader.expectOperand_ok_congr ?_ h
    rfl

theorem expectOperand_fault_exchange (hn : n.kind = .number)
    (h : Reader.expectOperand op (p ++ n :: s) = .error (.fault fault (p ++ n :: s))) :
    Reader.expectOperand op (p ++ (g ++ s)) = .error (.fault fault (p ++ (g ++ s))) := by
  cases p with
  | nil =>
    have hok : Reader.expectOperand op ([] ++ n :: s) = .ok () := by
      rw [Reader.expectOperand_eq]
      exact if_pos (Reader.startsOperand_iff.mpr (Or.inl hn))
    cases hok.symm.trans h
  | cons u p =>
    refine Reader.expectOperand_fault_congr ?_ h
    rfl

/-- **A reader stops with the same fault**, if the leaf is not taken for an operator. -/
theorem Stops.exchange (hn : n.kind = .number) (hv : Numeral.read? n.text = some value)
    (hg : Reads .leaf limit (g ++ s) new s) (h : Stops tier depth ts fault rest) :
    ∀ {p}, ts = p ++ n :: s → (p ≠ [] → nextOperator (g ++ s) = none) →
      ∃ d rest', Stops tier d (p ++ (g ++ s)) fault rest' ∧ Exchange n g s rest rest' := by
  induction h with
  | first operands _ ih =>
    intro p hts hnext
    obtain ⟨d, rest', hstops, hrest⟩ := ih hts hnext
    exact ⟨d, rest', Stops.first operands hstops, hrest⟩
  | @missing tier left right depth ts after t l op fault operands first operator h =>
    rintro p rfl -
    rcases Nat.lt_or_ge s.length (t :: after).length with hlt | hin
    · obtain ⟨p', rfl, -, hfirst⟩ := first.operator_before (g := g) hn operator hlt
      exact ⟨depth, _, Stops.missing operands hfirst operator (expectOperand_fault_exchange hn h),
        Exchange.ahead p'⟩
    · obtain ⟨d, hfirst⟩ := Reads.exchange hn hg first 0 rfl hin
      exact ⟨d, after, Stops.missing operands hfirst operator h,
        Exchange.behind (Nat.le_of_succ_le hin)⟩
  | @second tier left right depth ts after rest t l op fault operands first operator expected h
      ih =>
    rintro p rfl hnext
    rcases Nat.lt_or_ge s.length (t :: after).length with hlt | hin
    · obtain ⟨p', rfl, hp', hfirst⟩ := first.operator_before (g := g) hn operator hlt
      have hne : p ≠ [] := List.ne_nil_of_length_pos (Nat.zero_lt_of_lt hp')
      obtain ⟨d, rest', hsecond, hrest⟩ := ih rfl fun _ => hnext hne
      exact ⟨max depth d + tier.cost, rest', Stops.second operands
        (hfirst.mono (Nat.add_le_add_right (Nat.le_max_left ..) _)) operator
        (expectOperand_exchange hg expected) (hsecond.mono (Nat.le_max_right ..)), hrest⟩
    · obtain ⟨d, hfirst⟩ := Reads.exchange hn hg first 0 rfl hin
      exact ⟨max d depth + tier.cost, rest, Stops.second operands
        (hfirst.mono (Nat.le_add_right_of_le (Nat.le_max_left ..))) operator expected
        (h.mono (Nat.le_max_right ..)),
        Exchange.behind (Nat.le_trans h.length_le (Nat.le_of_succ_le hin))⟩
  | ended =>
    intro p hts
    cases p <;> cases hts
  | @malformed depth rest t kind text =>
    intro p hts _
    have hne : t ≠ n := by
      rintro rfl
      cases text.symm.trans hv
    obtain ⟨p, rfl, rfl⟩ := exists_cons_of_ne hne hts
    exact ⟨0, _, Stops.malformed kind text, Exchange.ahead (t :: p)⟩
  | @misplaced depth rest t kind =>
    intro p hts _
    have hkind : t.kind ≠ .number := fun h => by simp [h, Reader.startsOperand] at kind
    obtain ⟨p, rfl, rfl⟩ := exists_cons_of_ne (ne_of_kind hn hkind) hts
    exact ⟨0, _, Stops.misplaced kind, Exchange.ahead (t :: p)⟩
  | @nested depth ts rest t fault kind h ih =>
    intro p hts hnext
    have hkind : t.kind ≠ .number := by rcases kind with kind | kind <;> simp [kind]
    obtain ⟨p, rfl, rfl⟩ := exists_cons_of_ne (ne_of_kind hn hkind) hts
    obtain ⟨d, rest', hstops, hrest⟩ := ih rfl fun _ => hnext (List.cons_ne_nil t p)
    exact ⟨d + 8, rest', Stops.nested kind hstops, hrest⟩
  | @unclosed depth ts rest t e opening nested h =>
    intro p hts hnext
    obtain ⟨p, rfl, rfl⟩ := exists_cons_of_ne (ne_of_kind hn (by simp [opening])) hts
    rcases Nat.lt_or_ge s.length rest.length with hlt | hin
    · obtain ⟨p', rfl, hread⟩ := nested.before_exchange hlt fun _ => hnext (List.cons_ne_nil t p)
      refine ⟨depth + 8, _, Stops.unclosed opening hread fun v hv => ?_, Exchange.ahead p'⟩
      cases p' with
      | nil => exact hg.kind_ne_rightParen v hv
      | cons w p' => exact h v hv
    · obtain ⟨d, hread⟩ := Reads.exchange hn hg nested 0 rfl hin
      exact ⟨d + 8, rest, Stops.unclosed opening hread h, Exchange.behind hin⟩

/-! ## Parses -/

/-- Behind the number, an index is further on by as many tokens as the leaf has more than one. -/
theorem Exchange.index_eq {rest' : List Token} (h : Exchange n g s rest rest') (hg : g ≠ [])
    (p : List Token) :
    (p ++ (g ++ s)).length - rest'.length =
      if (p ++ n :: s).length - rest.length ≤ p.length then (p ++ n :: s).length - rest.length
      else (p ++ n :: s).length - rest.length + (g.length - 1) := by
  have hpos := List.length_pos_iff.mpr hg
  simp only [List.length_append, List.length_cons]
  cases h with
  | behind h => split <;> omega
  | ahead q =>
    simp only [List.length_append, List.length_cons]
    split <;> omega

/-- What a reading leaves, by its index. -/
theorem Reads.rest_eq_drop (h : Reads tier depth ts e rest) :
    rest = ts.drop (ts.length - rest.length) := by
  obtain ⟨taken, rfl, -⟩ := h.derives
  rw [List.length_append, Nat.add_sub_cancel, List.drop_left]

/-- A reading that takes the number has the leaf in its tree, and one that ends before it the same
tree. -/
theorem Reads.exchange_all (hn : n.kind = .number) (hg : Reads .leaf limit (g ++ s) new s)
    (hnext : p ≠ [] → nextOperator (g ++ s) = none) (h : Reads tier depth (p ++ n :: s) e rest) :
    ∃ d rest', Reads tier d (p ++ (g ++ s))
        (if (p ++ n :: s).length - rest.length ≤ p.length then e
          else e.replaceNumber p.length new 0) rest' ∧ Exchange n g s rest rest' := by
  have hlength : (p ++ n :: s).length = p.length + (s.length + 1) := by
    rw [List.length_append, List.length_cons]
  rcases Nat.lt_or_ge s.length rest.length with hlt | hin
  · have hp : rest = n :: s → nextOperator (g ++ s) = none := by
      refine fun heq => hnext ?_
      rintro rfl
      exact absurd h.length_lt (heq ▸ Nat.lt_irrefl _)
    obtain ⟨p', rfl, hread⟩ := h.before_exchange hlt hp
    rw [if_pos (by omega)]
    exact ⟨depth, _, hread, Exchange.ahead p'⟩
  · obtain ⟨d, hread⟩ := Reads.exchange hn hg h 0 rfl hin
    rw [if_neg (by omega)]
    rw [Nat.zero_add] at hread
    exact ⟨d, rest, hread, Exchange.behind hin⟩

/-- **A parse with a leaf in the place of a number** has the same outcome: a tree with the leaf in
it if the number was taken, or the same fault, and indexes behind the number are further on. -/
theorem parse_exchange (hn : n.kind = .number) (hv : Numeral.read? n.text = some value)
    (hg : Reads .leaf limit (g ++ s) new s) (hnext : p ≠ [] → nextOperator (g ++ s) = none)
    (hnumber : Expr.parse (p ++ n :: s) ≠ .error (.nestedTooDeeply (p ++ n :: s)))
    (hleaf : Expr.parse (p ++ (g ++ s)) ≠ .error (.nestedTooDeeply (p ++ (g ++ s)))) :
    (∃ e i, i ≤ (p ++ n :: s).length ∧
        Expr.parse (p ++ n :: s) = .ok ⟨e, (p ++ n :: s).drop i⟩ ∧
        Expr.parse (p ++ (g ++ s)) =
          .ok ⟨if i ≤ p.length then e else e.replaceNumber p.length new 0,
            (p ++ (g ++ s)).drop (if i ≤ p.length then i else i + (g.length - 1))⟩) ∨
      ∃ fault i, Expr.parse (p ++ n :: s) = .error (.fault (p ++ n :: s) i fault) ∧
        Expr.parse (p ++ (g ++ s)) =
          .error (.fault (p ++ (g ++ s)) (if i ≤ p.length then i else i + (g.length - 1))
            fault) := by
  have hne : g ≠ [] := by
    rintro rfl
    exact absurd hg.length_lt (Nat.lt_irrefl _)
  rcases reads_or_stops_of_parseWithin hnumber with ⟨e, rest, hr⟩ | ⟨fault, rest, hs⟩
  · refine Or.inl ⟨e, (p ++ n :: s).length - rest.length, Nat.sub_le _ _, ?_, ?_⟩
    · rw [← hr.rest_eq_drop]
      exact parseWithin_eq_ok_iff.mpr hr
    · obtain ⟨d, rest', hread, hrest⟩ := Reads.exchange_all hn hg hnext hr
      rw [← hrest.index_eq hne p, ← hread.rest_eq_drop]
      exact hread.parseWithin_eq hleaf
  · obtain ⟨d, rest', hstops, hrest⟩ := Stops.exchange hn hv hg hs rfl hnext
    refine Or.inr ⟨fault, _, parseWithin_eq_fault_iff.mpr ⟨rfl, rest, rfl, hs⟩, ?_⟩
    rw [← hrest.index_eq hne p]
    exact hstops.parseWithin_eq hleaf

end Reckoner
