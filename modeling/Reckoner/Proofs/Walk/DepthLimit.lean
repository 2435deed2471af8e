import Reckoner.Expr.Walk
import Reckoner.Proofs.Grammar.ValidPrefix

/-!
# The limit on depth is transparent

The walk without a limit notes the greatest depth on its way. Cut off at a limit, `Walk.within`, it
is a reader that has the limit as its depth: each combinator of walks, cut off, is the combinator of
readers. So a limit decides whether there is an answer, and never which.

* `follows_tier`, `follows_leaf`: the combinators, one by one.
* **`ofTokens_within`**: the walk cut off at a limit is the reader of expressions.
* `peak_eq_nesting`: the greatest depth on the way to a tree is the nesting of the tree.
* **`parseWithin_transparent`**: a parse within a limit goes too deep exactly if the walk goes
  deeper than the limit, and else its answer is that of the walk.
-/

namespace Reckoner

namespace Walk

variable {α β : Type} {depth limit : Nat} {ts us rest : List Token}

/-! ## Walks cut off -/

/-- How a walk ends, as readers say it. -/
def ending : Except (Fault × List Token) α → Except Halt α
  | .ok a => .ok a
  | .error (reason, rest) => .error (.fault reason rest)

/-- How a walk ends that is not let deeper than the limit. -/
def within (limit : Nat) (w : Walk α) : Except Halt α :=
  if w.peak ≤ limit then ending w.result else .error .tooDeep

theorem within_of_le {w : Walk α} (h : w.peak ≤ limit) : w.within limit = ending w.result :=
  if_pos h

theorem within_of_lt {w : Walk α} (h : limit < w.peak) : w.within limit = .error .tooDeep :=
  if_neg (Nat.not_le.mpr h)

/-- One walk after another is cut off where the first is, or else where the second is. -/
theorem within_andThen (w : Walk α) (next : α → Walk β) :
    (w.andThen next).within limit = w.within limit >>= fun a => (next a).within limit := by
  obtain ⟨peak, e | a⟩ := w
  · rcases Nat.lt_or_ge limit peak with h | h
    · rw [within_of_lt (w := ⟨peak, _⟩) h]
      exact within_of_lt h
    · rw [within_of_le (w := ⟨peak, _⟩) h]
      exact within_of_le h
  · rcases Nat.lt_or_ge limit peak with h | h
    · rw [within_of_lt (w := ⟨peak, _⟩) h]
      exact within_of_lt (Nat.lt_of_lt_of_le h (Nat.le_max_left _ _))
    · rw [within_of_le (w := ⟨peak, _⟩) h]
      change (if max peak (next a).peak ≤ limit then _ else _) = (next a).within limit
      simp only [Nat.max_le, h, true_and]
      rfl

/-! ## Parts and readers -/

/-- On the tokens, the part of a walk is the reader: from any depth and cut off at any limit, it
does what the reader does with the rest of the limit. -/
def Follows (part : Part) (reader : Nat → Reader) (ts : List Token) : Prop :=
  ∀ depth limit, (part depth ts).within limit = Reader.deeper depth reader limit ts

section Deeper

variable {reader : Nat → Reader}

theorem deeper_of_lt (h : limit < depth) : Reader.deeper depth reader limit = Reader.tooDeep :=
  if_neg (Nat.not_le.mpr h)

theorem deeper_of_le (h : depth ≤ limit) :
    Reader.deeper depth reader limit = reader (limit - depth) := if_pos h

/-- A cost on top of a depth is a cost of what that depth leaves. -/
theorem deeper_add (cost : Nat) (h : depth ≤ limit) :
    Reader.deeper (depth + cost) reader limit = Reader.deeper cost reader (limit - depth) := by
  obtain ⟨d, rfl⟩ := Nat.exists_eq_add_of_le' h
  rw [Nat.add_sub_cancel]
  rcases Nat.lt_or_ge d cost with hlt | hle
  · rw [deeper_of_lt hlt, deeper_of_lt (by omega)]
  · rw [deeper_of_le hle, deeper_of_le (by omega), Nat.add_comm depth, Nat.add_sub_add_right]

end Deeper

theorem within_ofResult_of_le (h : depth ≤ limit) (result : Except (Fault × List Token) α) :
    (ofResult depth result).within limit = ending result := within_of_le h

/-- A walk that stays where it is follows a reader with one answer at every depth. -/
theorem within_ofResult {reader : Nat → Reader} {result : Except (Fault × List Token) _}
    (h : ∀ d, reader d ts = ending result) :
    (ofResult depth result).within limit = Reader.deeper depth reader limit ts := by
  rcases Nat.lt_or_ge limit depth with hlt | hle
  · rw [deeper_of_lt hlt]
    exact within_of_lt hlt
  · rw [deeper_of_le hle, h]
    exact within_of_le hle

/-- The walk and the readers ask for an operand alike. -/
theorem expectOperand_eq_operandFault? (op : Operator) (ts : List Token) :
    Reader.expectOperand op ts =
      match operandFault? op ts with
      | none => .ok ()
      | some fault => .error (.fault fault ts) := by
  cases ts with
  | nil => rfl
  | cons t ts =>
    by_cases h : Reader.startsOperand t.kind = true
    · simp only [Reader.expectOperand, operandFault?, if_pos h]
    · simp only [Reader.expectOperand, operandFault?, if_neg h]

variable {tier left right : Tier} {leftPart rightPart nested : Part}

/-- A tier follows its reader if its operands do, the right one on the tokens that the left one and
an operator leave. -/
theorem follows_tier (operands : tier.operands? = some (left, right))
    (hl : Follows leftPart left.reader ts)
    (hr : ∀ after, after.length < ts.length → Follows rightPart right.reader after) :
    Follows (Walk.tier tier.operator? tier.cost leftPart rightPart) tier.reader ts := by
  intro depth limit
  unfold Walk.tier
  rw [within_andThen, hl depth limit]
  rcases Nat.lt_or_ge limit depth with hlt | hle
  · rw [deeper_of_lt hlt, deeper_of_lt hlt]
    rfl
  rw [deeper_of_le hle, deeper_of_le hle, Tier.reader_of_operands operands]
  rcases hread : left.reader (limit - depth) ts with halt | ⟨l, rest⟩
  · rw [Reader.tier_of_error hread]
    rfl
  have hlength := (reader_eq_ok_iff.mp hread).length_lt
  cases rest with
  | nil =>
    rw [Reader.tier_of_next?_eq_none hread rfl]
    exact within_ofResult_of_le hle _
  | cons t after =>
    have hafter : after.length < ts.length := Nat.lt_of_succ_lt hlength
    simp only [bind, Except.bind]
    cases hop : tier.operator? t.kind with
    | none =>
      have hnext : Reader.next? tier.operator? (t :: after) = none := hop
      rw [Reader.tier_of_next?_eq_none hread hnext]
      exact within_ofResult_of_le hle _
    | some op =>
      rw [Reader.tier_of_operator hread hop, expectOperand_eq_operandFault?]
      cases hfault : operandFault? op after with
      | some fault =>
        simp only [hfault]
        exact within_ofResult_of_le hle _
      | none =>
        simp only [hfault]
        rw [within_andThen, hr after hafter, deeper_add tier.cost hle]
        rcases Reader.deeper tier.cost right.reader (limit - depth) after with halt | ⟨r, rest⟩
        · rfl
        · exact within_ofResult_of_le hle _

/-- A walk that nests another follows a reader that nests the reader of the other. -/
theorem within_nested {reader : Nat → Reader} {next : Expr × List Token → Walk (Expr × List Token)}
    {t : Token} (hnested : Follows nested Tier.additive.reader ts) (after : Expr → Reader)
    (h : ∀ d, reader d (t :: ts) =
      Reader.deeper 8 Tier.additive.reader d ts >>= fun p => after p.1 p.2)
    (hnext : ∀ p, depth ≤ limit → (next p).within limit = after p.1 p.2) :
    ((nested (depth + 8) ts).andThen next).within limit =
      Reader.deeper depth reader limit (t :: ts) := by
  rw [within_andThen, hnested]
  rcases Nat.lt_or_ge limit depth with hlt | hle
  · rw [deeper_of_lt hlt, deeper_of_lt (by omega)]
    rfl
  · rw [deeper_of_le hle, h, deeper_add 8 hle]
    exact congrArg _ (funext fun p => hnext p hle)

theorem leaf_misplaced {t : Token} (hk : Reader.startsOperand t.kind = false) :
    Walk.leaf nested depth (t :: ts) =
      ofResult depth (.error (.operandExpected (some t.kind), t :: ts)) := by
  cases h : t.kind <;> simp_all [Walk.leaf, Reader.startsOperand]

/-- A leaf follows its reader if what it nests does. -/
theorem follows_leaf
    (h : ∀ after, after.length < ts.length → Follows nested Tier.additive.reader after) :
    Follows (Walk.leaf nested) Tier.leaf.reader ts := by
  intro depth limit
  cases ts with
  | nil => exact within_ofResult fun _ => rfl
  | cons t ts =>
    have hnested := h ts (Nat.lt_succ_self _)
    by_cases hs : Reader.startsOperand t.kind = true
    · rcases Reader.startsOperand_iff.mp hs with hk | hk | hk
      · cases hv : Numeral.read? t.text with
        | none =>
          simp only [Walk.leaf, hk, hv]
          exact within_ofResult fun _ => Reader.leaf_malformed hk hv
        | some value =>
          simp only [Walk.leaf, hk, hv]
          exact within_ofResult fun _ => Reader.leaf_number hk hv
      · simp only [Walk.leaf, hk]
        refine within_nested hnested (fun inner rest => .ok (.neg inner, rest))
          (fun d => Reader.leaf_minus hk) fun p hle => ?_
        exact within_ofResult_of_le hle _
      · simp only [Walk.leaf, hk]
        refine within_nested hnested Reader.closeBracket (fun d => Reader.leaf_leftParen hk) ?_
        rintro ⟨inner, rest⟩ hle
        cases rest with
        | nil => exact within_ofResult_of_le hle _
        | cons u rest =>
          by_cases hu : u.kind = .rightParen
          · simp only [if_pos hu, Reader.closeBracket]
            exact within_ofResult_of_le hle _
          · simp only [if_neg hu, Reader.closeBracket]
            exact within_ofResult_of_le hle _
    · rw [Bool.not_eq_true] at hs
      rw [leaf_misplaced hs]
      exact within_ofResult fun _ => Reader.leaf_misplaced hs

/-! ## The whole walk -/

theorem follows_expressionOf {power : Part}
    (h : ∀ us, us.length ≤ ts.length → Follows power Tier.power.reader us) :
    Follows (expressionOf power) Tier.additive.reader ts := by
  have hmultiplicative : ∀ us, us.length ≤ ts.length →
      Follows (Walk.tier Operator.multiplicative? 0 power power) Tier.multiplicative.reader us := by
    intro us hus
    have hright : ∀ after, after.length < us.length → Follows power Tier.power.reader after :=
      fun after hafter => h after (by omega)
    exact @follows_tier us .multiplicative _ _ _ _ rfl (h us hus) hright
  have hright : ∀ after, after.length < ts.length →
      Follows (Walk.tier Operator.multiplicative? 0 power power) Tier.multiplicative.reader after :=
    fun after hafter => hmultiplicative after (Nat.le_of_lt hafter)
  exact @follows_tier ts .additive _ _ _ _ rfl (hmultiplicative ts (Nat.le_refl _)) hright

/-- As many steps down as there are tokens suffice, and one for the end. -/
theorem follows_power (steps : Nat) :
    ∀ ts : List Token, ts.length < steps → Follows (power steps) Tier.power.reader ts := by
  induction steps with
  | zero => exact fun ts h => absurd h (Nat.not_lt_zero _)
  | succ steps ih =>
    intro ts hts
    have hnested : ∀ after, after.length < ts.length →
        Follows (expressionOf (power steps)) Tier.additive.reader after := by
      intro after hafter
      exact follows_expressionOf fun us hus => ih us (by omega)
    have hright : ∀ after, after.length < ts.length → Follows (power steps) Tier.power.reader after :=
      fun after hafter => ih after (by omega)
    exact @follows_tier ts .power _ _ _ _ rfl (follows_leaf hnested) hright

/-- **The walk over the tokens, cut off at a limit, is the reader with that depth.** -/
theorem ofTokens_within (limit : Nat) (ts : List Token) :
    (ofTokens ts).within limit = Reader.expression limit ts := by
  have hpower : ∀ us : List Token, us.length ≤ ts.length →
      Follows (power (ts.length + 1)) Tier.power.reader us :=
    fun us hus => follows_power _ us (Nat.lt_succ_of_le hus)
  have h := follows_expressionOf hpower 0 limit
  rwa [deeper_of_le (Nat.zero_le _)] at h

/-- An end before the limit is the end of the whole walk. -/
theorem of_within_eq_ending {w : Walk α} {result : Except (Fault × List Token) α}
    (h : w.within limit = ending result) : w.peak ≤ limit ∧ w.result = result := by
  have hle : w.peak ≤ limit := by
    refine Nat.not_lt.mp fun hlt => ?_
    rw [within_of_lt hlt] at h
    obtain _ | a := result <;> cases h
  rw [within_of_le hle] at h
  refine ⟨hle, ?_⟩
  obtain ⟨peak, ⟨reason, rest⟩ | a⟩ := w <;> obtain ⟨reason', rest'⟩ | a' := result <;> cases h <;> rfl

theorem of_reads {e : Expr} (h : Reads .additive limit ts e rest) :
    (ofTokens ts).peak ≤ limit ∧ (ofTokens ts).result = .ok (e, rest) :=
  of_within_eq_ending ((ofTokens_within limit ts).trans h.reader_eq)

theorem of_stops {fault : Fault} (h : Stops .additive limit ts fault rest) :
    (ofTokens ts).peak ≤ limit ∧ (ofTokens ts).result = .error (fault, rest) :=
  of_within_eq_ending ((ofTokens_within limit ts).trans h.reader_eq)

/-- With its greatest depth as the limit, a walk that ends with a tree is a reading. -/
theorem reads_of_result {e : Expr} (h : (ofTokens ts).result = .ok (e, rest)) :
    Reads .additive (ofTokens ts).peak ts e rest := by
  refine reader_eq_ok_iff.mp ((ofTokens_within _ ts).symm.trans ?_)
  rw [within_of_le (Nat.le_refl _), h]
  rfl

theorem stops_of_result {fault : Fault} (h : (ofTokens ts).result = .error (fault, rest)) :
    Stops .additive (ofTokens ts).peak ts fault rest := by
  refine reader_eq_fault_iff.mp ((ofTokens_within _ ts).symm.trans ?_)
  rw [within_of_le (Nat.le_refl _), h]
  rfl

/-- **The greatest depth on the way to a tree is the nesting of the tree.** -/
theorem peak_eq_nesting {e : Expr} (h : (ofTokens ts).result = .ok (e, rest)) :
    (ofTokens ts).peak = e.nesting := by
  have hr := reads_of_result h
  obtain ⟨taken, htaken, hd, hg, hc, hle⟩ := reads_iff.mp hr
  have hn : Reads .additive e.nesting ts e rest :=
    reads_iff.mpr ⟨taken, htaken, hd, hg, hc, Nat.le_refl _⟩
  exact Nat.le_antisymm (of_reads hn).1 hle

/-! ## What lies behind the end of the walk -/

/-- The tokens that a walk leaves, whether it ends with a tree or with a fault. -/
def remaining (w : Walk (Expr × List Token)) : List Token :=
  match w.result with
  | .ok (_, rest) => rest
  | .error (_, rest) => rest

/-- The number of tokens before the end of the walk. -/
def stop (ts : List Token) : Nat := ts.length - (ofTokens ts).remaining.length

/-- Tokens that agree up to a place and in the token there. -/
theorem exists_append_of_take_eq {seen : List Token}
    (h : us.take (seen.length + 1) = (seen ++ rest).take (seen.length + 1)) :
    ∃ rest', us = seen ++ rest' ∧ rest'.head? = rest.head? := by
  have hseen : us.take seen.length = seen := by
    have := congrArg (List.take seen.length) h
    rwa [List.take_take, List.take_take, Nat.min_eq_left (Nat.le_succ _), List.take_left] at this
  refine ⟨us.drop seen.length, ?_, ?_⟩
  · calc us = us.take seen.length ++ us.drop seen.length := (List.take_append_drop _ us).symm
      _ = seen ++ us.drop seen.length := by rw [hseen]
  · calc (us.drop seen.length).head? = us[seen.length]? := List.head?_drop
      _ = (us.take (seen.length + 1))[seen.length]? :=
        (List.getElem?_take_of_lt (Nat.lt_succ_self _)).symm
      _ = (seen ++ rest)[seen.length]? := by
        rw [h, List.getElem?_take_of_lt (Nat.lt_succ_self _)]
      _ = rest.head? := by
        rw [List.getElem?_append_right (Nat.le_refl _), Nat.sub_self, List.head?_eq_getElem?]

theorem stop_append {seen : List Token} (h : (ofTokens (seen ++ rest)).remaining = rest) :
    stop (seen ++ rest) = seen.length := by
  rw [stop, h, List.length_append, Nat.add_sub_cancel]

/-- A walk ends in the same way over all tokens that agree up to its end and in the token there. -/
theorem exists_seen (ts : List Token) :
    ∃ seen, ts = seen ++ (ofTokens ts).remaining ∧
      ∀ rest', rest'.head? = (ofTokens ts).remaining.head? →
        (ofTokens (seen ++ rest')).peak ≤ (ofTokens ts).peak ∧
          (ofTokens (seen ++ rest')).remaining = rest' := by
  unfold remaining
  rcases hr : (ofTokens ts).result with ⟨fault, rest⟩ | ⟨e, rest⟩
  · obtain ⟨seen, hts, hahead⟩ := (stops_of_result hr).lookahead
    refine ⟨seen, hts, fun rest' hhead => ?_⟩
    change rest'.head? = rest.head? at hhead
    have hstops : Stops .additive (ofTokens ts).peak (seen ++ rest') fault rest' := by
      cases rest' with
      | nil =>
        obtain rfl := List.head?_eq_none_iff.mp hhead.symm
        exact hts ▸ stops_of_result hr
      | cons t us => exact hahead t hhead.symm us
    obtain ⟨hpeak, hresult⟩ := of_stops hstops
    exact ⟨hpeak, by rw [hresult]⟩
  · obtain ⟨seen, hts, hahead⟩ := (reads_of_result hr).lookahead
    refine ⟨seen, hts, fun rest' hhead => ?_⟩
    have hnext : nextOperator rest' = nextOperator rest :=
      congrArg (fun head : Option Token => head.bind fun t => Operator.ofKind? t.kind) hhead
    obtain ⟨hpeak, hresult⟩ := of_reads (hahead rest' hnext)
    exact ⟨hpeak, by rw [hresult]⟩

theorem peak_le_of_take_eq (h : us.take (stop ts + 1) = ts.take (stop ts + 1)) :
    (ofTokens us).peak ≤ (ofTokens ts).peak ∧ stop us = stop ts := by
  obtain ⟨seen, hts, hahead⟩ := exists_seen ts
  have hstop : stop ts = seen.length := by
    have hlength := congrArg List.length hts
    rw [List.length_append] at hlength
    rw [stop, hlength, Nat.add_sub_cancel]
  rw [hstop] at h ⊢
  have h : us.take (seen.length + 1) =
      (seen ++ (ofTokens ts).remaining).take (seen.length + 1) := hts ▸ h
  obtain ⟨rest', rfl, hhead⟩ := exists_append_of_take_eq h
  obtain ⟨hpeak, hremaining⟩ := hahead rest' hhead
  exact ⟨hpeak, stop_append hremaining⟩

/-- Tokens behind the token at which a walk ends do not make it go deeper. -/
theorem peak_eq_of_take_eq (h : us.take (stop ts + 1) = ts.take (stop ts + 1)) :
    (ofTokens us).peak = (ofTokens ts).peak := by
  obtain ⟨hle, hstop⟩ := peak_le_of_take_eq h
  refine Nat.le_antisymm hle (peak_le_of_take_eq ?_).1
  rw [hstop, h]

/-! ## Parses -/

/-- How a walk over the tokens ends, as the answer of a parse. -/
def outcome (ts : List Token) (w : Walk (Expr × List Token)) : Except ParseError Parsed :=
  match w.result with
  | .ok (e, rest) => .ok ⟨e, rest⟩
  | .error (reason, rest) => .error (.fault ts (ts.length - rest.length) reason)

theorem outcome_ne_nestedTooDeeply (w : Walk (Expr × List Token)) (shown : List Token) :
    w.outcome ts ≠ .error (.nestedTooDeeply shown) := by
  obtain ⟨peak, ⟨reason, rest⟩ | ⟨e, rest⟩⟩ := w <;> exact fun h => by cases h

/-- A parse within a limit is the walk, cut off at the limit. -/
theorem parseWithin_eq (limit : Nat) (ts : List Token) :
    Expr.parseWithin limit ts =
      if (ofTokens ts).peak ≤ limit then (ofTokens ts).outcome ts
      else .error (.nestedTooDeeply ts) := by
  unfold Expr.parseWithin
  rw [← ofTokens_within]
  rcases Nat.lt_or_ge limit (ofTokens ts).peak with hlt | hle
  · rw [within_of_lt hlt, if_neg (Nat.not_le.mpr hlt)]
  · rw [within_of_le hle, if_pos hle, outcome]
    rcases (ofTokens ts).result with ⟨reason, rest⟩ | ⟨e, rest⟩ <;> rfl

end Walk

/-- **The limit on depth is transparent.** A parse within a limit goes too deep exactly if the walk
over the tokens reaches a depth beyond the limit, which is shown at the start of the tokens; else
its answer is that of the walk. So a larger limit changes no other answer, and tokens behind the one
at which the walk ends have no part in its depth. -/
theorem parseWithin_transparent (limit : Nat) (ts : List Token) :
    (Expr.parseWithin limit ts = .error (.nestedTooDeeply ts) ↔
        limit < (Walk.ofTokens ts).peak) ∧
      (ParseError.nestedTooDeeply ts).index = 0 ∧
      (Expr.parseWithin limit ts ≠ .error (.nestedTooDeeply ts) →
        Expr.parseWithin limit ts = (Walk.ofTokens ts).outcome ts ∧
          ∀ more, limit ≤ more → Expr.parseWithin more ts = Expr.parseWithin limit ts) ∧
      ∀ us : List Token, us.take (Walk.stop ts + 1) = ts.take (Walk.stop ts + 1) →
        (Walk.ofTokens us).peak = (Walk.ofTokens ts).peak := by
  have hdeep : Expr.parseWithin limit ts = .error (.nestedTooDeeply ts) ↔
      limit < (Walk.ofTokens ts).peak := by
    rw [Walk.parseWithin_eq]
    split
    · rename_i hle
      exact iff_of_false (Walk.outcome_ne_nestedTooDeeply _ _) (Nat.not_lt.mpr hle)
    · rename_i hlt
      exact iff_of_true rfl (Nat.lt_of_not_le hlt)
  refine ⟨hdeep, rfl, fun h => ?_, fun us => Walk.peak_eq_of_take_eq⟩
  have hle : (Walk.ofTokens ts).peak ≤ limit := Nat.not_lt.mp fun hlt => h (hdeep.mpr hlt)
  have houtcome : ∀ more, limit ≤ more →
      Expr.parseWithin more ts = (Walk.ofTokens ts).outcome ts := by
    intro more hmore
    rw [Walk.parseWithin_eq, if_pos (Nat.le_trans hle hmore)]
  refine ⟨houtcome limit (Nat.le_refl _), fun more hmore => ?_⟩
  rw [houtcome more hmore, houtcome limit (Nat.le_refl _)]

/-- In `- ( 2 ^ - 3 )` a walk goes into two minuses, a bracket and one right operand. -/
theorem parseWithin_transparent_minuses :
    let ts : List Token := [⟨.minus, "-"⟩, ⟨.leftParen, "("⟩, ⟨.number, "2"⟩, ⟨.power, "^"⟩,
      ⟨.minus, "-"⟩, ⟨.number, "3"⟩, ⟨.rightParen, ")"⟩]
    (Walk.ofTokens ts).peak = 26 ∧
      Expr.parseWithin 25 ts = .error (.nestedTooDeeply ts) ∧
        Expr.parseWithin 26 ts = (Walk.ofTokens ts).outcome ts := by
  intro ts
  have hpeak : (Walk.ofTokens ts).peak = 26 := by decide
  obtain ⟨hdeep, -⟩ := parseWithin_transparent 25 ts
  obtain ⟨hdeep', -, houtcome, -⟩ := parseWithin_transparent 26 ts
  refine ⟨hpeak, hdeep.mpr (by omega), (houtcome fun h => ?_).1⟩
  have := hdeep'.mp h
  omega

end Reckoner
