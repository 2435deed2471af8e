import Reckoner.Proofs.Decimal.ReadBack
import Reckoner.Proofs.Expr.Parsed

/-!
# Descriptions are read back

The description of a tree is a text of one leaf of the grammar: a number, a bracket, or a minus with
a bracket after it. `Spells cs tier e` says that the characters are scanned as a sentence of the
tier with the tree `e`; its rules put a description together piece by piece. The brackets of a
description leave no choice but one. A minus takes all that follows it in its bracket, so a negation
on the left of an operator is read with the operator inside. `Expr.reread` is the tree that comes
out.

* `Expr.spells_describeWithin`: a description spells the tree as it is reread.
* `Expr.greedy_reread`: that tree is greedy, so it is what the parser gives.
* `Expr.evaluateWithin_reread`: with no negation on the left of an operator it has the same value.
* **`parse_describe`**: the three together, for the program.
-/

namespace Reckoner

open Token

/-! ## Trees that are reread -/

namespace Expr

/-- A tree that can be typed: with the six operators, plain numbers, and no foreign leaf. -/
def IsPlain : Expr → Prop
  | num value => value.IsPlain
  | binary l op r => op.symbol?.isSome = true ∧ l.IsPlain ∧ r.IsPlain
  | group inner => inner.IsPlain
  | neg inner => inner.IsPlain
  | foreign _ => False

instance decidableIsPlain : DecidablePred IsPlain
  | num value => inferInstanceAs (Decidable value.IsPlain)
  | binary l op r =>
    have := decidableIsPlain l
    have := decidableIsPlain r
    inferInstanceAs (Decidable (op.symbol?.isSome = true ∧ _ ∧ _))
  | group inner | neg inner => decidableIsPlain inner
  | foreign _ => inferInstanceAs (Decidable False)

/-- The tree that a description is read as. Every operator is in a bracket, and so is what a minus
negates; but a minus on the left of an operator takes the operator with it. -/
def reread : Expr → Expr
  | num value => num value
  | group inner => group inner.reread
  | neg inner => neg (group inner.reread)
  | binary (neg x) op r => group (neg (binary (group x.reread) op r.reread))
  | binary l op r => group (binary l.reread op r.reread)
  | foreign typeName => foreign typeName

/-- The root is a negation. -/
def isNegation : Expr → Bool
  | neg _ => true
  | _ => false

theorem exists_of_isNegation {e : Expr} (h : e.isNegation = true) : ∃ x, e = neg x := by
  cases e with
  | neg x => exact ⟨x, rfl⟩
  | _ => cases h

/-- No operator has a negation as its left operand. -/
def NoNegatedLeft : Expr → Prop
  | num _ | foreign _ => True
  | binary l _ r => l.isNegation = false ∧ l.NoNegatedLeft ∧ r.NoNegatedLeft
  | group inner => inner.NoNegatedLeft
  | neg inner => inner.NoNegatedLeft

end Expr

/-! ## Spelling -/

variable {cs ds : List Char} {tier : Tier} {e l r : Expr} {op : Operator} {c : Char}

/-- The characters are scanned as a sentence of the tier that is the tree. -/
def Spells (cs : List Char) (tier : Tier) (e : Expr) : Prop :=
  ∃ ts, scanChars cs = .ok ts ∧ Derives tier ts e

/-- The kind of a symbol in a description, and its tier. -/
theorem Operator.exists_kind (h : op.symbol? = some c) :
    ∃ k tier, Kind.ofChar? c = some k ∧ Tier.operator? tier k = some op := by
  cases op with
  | add => cases h; exact ⟨.plus, .additive, by decide, rfl⟩
  | sub => cases h; exact ⟨.minus, .additive, by decide, rfl⟩
  | mul => cases h; exact ⟨.multiply, .multiplicative, by decide, rfl⟩
  | div => cases h; exact ⟨.divide, .multiplicative, by decide, rfl⟩
  | mod => cases h; exact ⟨.modulo, .multiplicative, by decide, rfl⟩
  | pow => cases h; exact ⟨.power, .power, by decide, rfl⟩
  | unknown => cases h

namespace Spells

theorem ofLeaf (h : Spells cs .leaf e) : Spells cs .additive e := by
  obtain ⟨ts, hscan, hd⟩ := h
  exact ⟨ts, hscan, hd.ofLeafTo .additive⟩

theorem number {value : Binary64} (h : value.IsPlain) :
    Spells (value.render .brief).toList .leaf (.num value) :=
  ⟨_, scanChars_text h.isCanonical_render, Derives.number rfl value.read?_render⟩

theorem blank_left (h : Spells cs tier e) : Spells (' ' :: cs) tier e := by
  obtain ⟨ts, hscan, hd⟩ := h
  exact ⟨ts, scanChars_cons_space Unicode.isSpace_blank hscan, hd⟩

theorem blank_right (h : Spells cs tier e) : Spells (cs ++ [' ']) tier e := by
  obtain ⟨ts, hscan, hd⟩ := h
  have hall := scanChars_append_ok (seam_right isNumberChar_blank cs []) hscan
    (scanChars_space Unicode.isSpace_blank)
  exact ⟨ts, by rwa [List.append_nil] at hall, hd⟩

/-- A bracket around a sentence. -/
theorem group (h : Spells cs .additive e) : Spells ('(' :: (cs ++ [')'])) .leaf (.group e) := by
  obtain ⟨ts, hscan, hd⟩ := h
  have hclose : Kind.ofChar? ')' = some .rightParen := by decide
  have hright := scanChars_append_ok (seam_right (isNumberChar_of_ofChar? hclose) cs []) hscan
    (scanChars_symbol hclose)
  have hopen : Kind.ofChar? '(' = some .leftParen := by decide
  exact ⟨_, scanChars_cons_symbol hopen hright, Derives.group rfl hd rfl⟩

/-- A minus before a sentence. -/
theorem neg (h : Spells cs .additive e) : Spells ('-' :: cs) .leaf (.neg e) := by
  obtain ⟨ts, hscan, hd⟩ := h
  have hminus : Kind.ofChar? '-' = some .minus := by decide
  exact ⟨_, scanChars_cons_symbol hminus hscan, Derives.neg rfl hd⟩

/-- Two leaves, and an operator with a blank on either side between them. -/
theorem binary (hl : Spells cs .leaf l) (h : op.symbol? = some c) (hr : Spells ds .leaf r) :
    Spells (cs ++ ' ' :: c :: ' ' :: ds) .additive (.binary l op r) := by
  obtain ⟨ls, hscanl, hdl⟩ := hl
  obtain ⟨rs, hscanr, hdr⟩ := hr
  obtain ⟨k, tier, hk, hop⟩ := Operator.exists_kind h
  have hright := scanChars_cons_space Unicode.isSpace_blank
    (scanChars_cons_symbol hk (scanChars_cons_space Unicode.isSpace_blank hscanr))
  exact ⟨_, scanChars_append_ok (seam_right isNumberChar_blank _ _) hscanl hright,
    hdl.ofLeaves hop hdr⟩

end Spells

/-! ## Descriptions -/

namespace Expr

variable {levels : Nat}

/-- **A description spells the tree as it is reread.** -/
theorem spells_describeWithin (he : e.IsPlain) (h : e.height ≤ levels) :
    ∃ text, e.describeWithin levels = .ok text ∧ Spells text.toList .leaf e.reread := by
  fun_induction reread e generalizing levels with
  | case1 value =>
    obtain ⟨n, rfl⟩ := Nat.exists_eq_add_of_le' h
    exact ⟨_, rfl, Spells.number he⟩
  | case2 inner ih =>
    obtain ⟨n, rfl, hn⟩ : ∃ n, levels = n + 1 ∧ inner.height ≤ n := exists_add_of_add_le h
    obtain ⟨a, ha, hspell⟩ := ih he hn
    refine ⟨_, describeWithin_group ha, ?_⟩
    simpa using hspell.ofLeaf.blank_left.blank_right.group
  | case3 inner ih =>
    obtain ⟨n, rfl, hn⟩ : ∃ n, levels = n + 1 ∧ inner.height ≤ n := exists_add_of_add_le h
    obtain ⟨a, ha, hspell⟩ := ih he hn
    refine ⟨_, describeWithin_neg ha, ?_⟩
    simpa using hspell.ofLeaf.blank_left.blank_right.group.ofLeaf.blank_left.neg
  | case4 x op r ihx ihr =>
    -- The minus takes the bracket after it, the operator, and the right operand.
    obtain ⟨hop, hx, hr⟩ := he
    obtain ⟨c, hc⟩ := Option.isSome_iff_exists.mp hop
    obtain ⟨n, rfl, hn⟩ : ∃ n, levels = n + 1 ∧ max (neg x).height r.height ≤ n :=
      exists_add_of_add_le h
    obtain ⟨hneg, hrn⟩ := Nat.max_le.mp hn
    obtain ⟨n, rfl, hxn⟩ : ∃ n', n = n' + 1 ∧ x.height ≤ n' := exists_add_of_add_le hneg
    obtain ⟨a, ha, hspellx⟩ := ihx hx hxn
    obtain ⟨b, hb, hspellr⟩ := ihr hr hrn
    refine ⟨_, describeWithin_binary (describeWithin_neg ha) hc hb, ?_⟩
    have hgroup := hspellx.ofLeaf.blank_left.blank_right.group
    simpa using (hgroup.binary hc hspellr).blank_left.neg.ofLeaf.group
  | case5 l op r hleft ihl ihr =>
    obtain ⟨hop, hl, hr⟩ := he
    obtain ⟨c, hc⟩ := Option.isSome_iff_exists.mp hop
    obtain ⟨n, rfl, hn⟩ : ∃ n, levels = n + 1 ∧ max l.height r.height ≤ n :=
      exists_add_of_add_le h
    obtain ⟨hln, hrn⟩ := Nat.max_le.mp hn
    obtain ⟨a, ha, hspelll⟩ := ihl hl hln
    obtain ⟨b, hb, hspellr⟩ := ihr hr hrn
    refine ⟨_, describeWithin_binary ha hc hb, ?_⟩
    simpa using (hspelll.binary hc hspellr).group
  | case6 typeName => exact he.elim

/-- A description needs as many levels as the tree has. -/
theorem describeWithin_of_lt_height (he : e.IsPlain) (h : levels < e.height) :
    e.describeWithin levels = .error .nestedTooDeeply := by
  induction e generalizing levels with
  | num =>
    obtain rfl : levels = 0 := Nat.le_zero.mp (Nat.le_of_lt_succ h)
    rfl
  | foreign => exact he.elim
  | group inner ih | neg inner ih =>
    cases levels with
    | zero => rfl
    | succ n =>
      rw [describeWithin, ih he (Nat.lt_of_succ_lt_succ h)]
      rfl
  | binary l op r ihl ihr =>
    obtain ⟨hop, hl, hr⟩ := he
    obtain ⟨c, hc⟩ := Option.isSome_iff_exists.mp hop
    cases levels with
    | zero => rfl
    | succ n =>
      have hn : n < max l.height r.height := Nat.lt_of_succ_lt_succ h
      rw [describeWithin, symbolOf, hc]
      rcases Nat.lt_or_ge n l.height with hlt | hle
      · rw [ihl hl hlt]
        rfl
      · obtain ⟨a, ha, -⟩ := spells_describeWithin hl hle
        rw [ha, ihr hr (by omega)]
        rfl

/-! ## The tree that is parsed -/

/-- **The reread tree is greedy**, whatever follows it, if it does not start with a minus. -/
theorem greedy_reread {next : Option Operator} (h : e.isNegation = true → next = none) :
    e.reread.Greedy next := by
  fun_induction reread e generalizing next with
  | case1 => trivial
  | case2 inner ih => exact ih fun _ => rfl
  | case3 inner ih =>
    obtain rfl := h rfl
    exact ⟨ih fun _ => rfl, rfl⟩
  | case4 x op r ihx ihr =>
    exact ⟨⟨ihx fun _ => rfl, ihr fun _ => rfl⟩, rfl⟩
  | case5 l op r hleft ihl ihr =>
    refine ⟨ihl fun hneg => ?_, ihr fun _ => rfl⟩
    obtain ⟨x, rfl⟩ := exists_of_isNegation hneg
    exact (hleft x rfl).elim
  | case6 => trivial

/-- The brackets that are added take levels. -/
theorem height_le_height_reread (e : Expr) : e.height ≤ e.reread.height := by
  fun_induction reread e with
  | case1 | case6 => exact Nat.le_refl _
  | case2 inner ih => exact Nat.succ_le_succ ih
  | case3 inner ih =>
    simp only [height]
    omega
  | case4 x op r ihx ihr =>
    simp only [height]
    omega
  | case5 l op r hleft ihl ihr =>
    simp only [height]
    omega

/-! ## The value of the tree that is parsed -/

/-- **Brackets do not change the value**, if no minus on the left takes an operator with it. -/
theorem evaluateWithin_reread {n : Nat} (he : e.NoNegatedLeft) (hreread : e.reread.height ≤ n)
    (hlevels : e.height ≤ levels) :
    e.reread.evaluateWithin n = e.evaluateWithin levels := by
  fun_induction reread e generalizing n levels with
  | case1 value | case6 typeName =>
    obtain ⟨n, rfl⟩ := Nat.exists_eq_add_of_le' hreread
    obtain ⟨k, rfl⟩ := Nat.exists_eq_add_of_le' hlevels
    rfl
  | case2 inner ih =>
    obtain ⟨n, rfl, hn⟩ : ∃ m, n = m + 1 ∧ inner.reread.height ≤ m := exists_add_of_add_le hreread
    obtain ⟨k, rfl, hk⟩ : ∃ k, levels = k + 1 ∧ inner.height ≤ k := exists_add_of_add_le hlevels
    exact ih he hn hk
  | case3 inner ih =>
    obtain ⟨n, rfl, hn⟩ : ∃ m, n = m + 2 ∧ inner.reread.height ≤ m := exists_add_of_add_le hreread
    obtain ⟨k, rfl, hk⟩ : ∃ k, levels = k + 1 ∧ inner.height ≤ k := exists_add_of_add_le hlevels
    rw [evaluateWithin, evaluateWithin, evaluateWithin, ih he hn hk]
  | case4 x op r ihx ihr => exact absurd he.1 (by simp [isNegation])
  | case5 l op r hleft ihl ihr =>
    obtain ⟨-, hl, hr⟩ := he
    obtain ⟨n, rfl, hn⟩ : ∃ m, n = m + 2 ∧ max l.reread.height r.reread.height ≤ m :=
      exists_add_of_add_le hreread
    obtain ⟨k, rfl, hk⟩ : ∃ k, levels = k + 1 ∧ max l.height r.height ≤ k :=
      exists_add_of_add_le hlevels
    obtain ⟨hln, hrn⟩ := Nat.max_le.mp hn
    obtain ⟨hlk, hrk⟩ := Nat.max_le.mp hk
    rw [evaluateWithin, evaluateWithin, evaluateWithin, ihl hl hln hlk, ihr hr hrn hrk]

/-- `-1 + 1` is zero, and `-(1 + 1)` is not. -/
example :
    let e : Expr := .binary (.neg (.num .one)) .add (.num .one)
    e.reread.evaluate ≠ e.evaluate := by
  decide +kernel

end Expr

/-- **What a description is read as.** A tree that can be typed has a description if it is not
higher than the walks go. The description is scanned, and its tokens are parsed, all of them, as the
tree with the brackets of the description, if that is not nested too deeply; and unless a minus on
the left of an operator has taken the operator with it, that tree has the same value. -/
theorem parse_describe {e : Expr} (he : e.IsPlain) (levels : Nat) :
    (levels < e.height → e.describeWithin levels = .error .nestedTooDeeply) ∧
      (e.height ≤ levels → ∃ text ts, e.describeWithin levels = .ok text ∧ scan text = .ok ts ∧
        ∀ depth, Expr.parseWithin depth ts =
          if e.reread.nesting ≤ depth then .ok ⟨e.reread, []⟩ else .error (.nestedTooDeeply ts)) ∧
      (e.NoNegatedLeft →
        (∀ n, e.reread.height ≤ n → e.reread.evaluateWithin n = e.evaluateWithin n) ∧
        ∀ ts, Expr.parse ts = .ok ⟨e.reread, []⟩ → e.reread.evaluate = e.evaluate) := by
  refine ⟨e.describeWithin_of_lt_height he, fun hlevels => ?_, fun hleft => ?_⟩
  · obtain ⟨text, htext, ts, hscan, hd⟩ := Expr.spells_describeWithin he hlevels
    refine ⟨text, ts, htext, scan_eq_ok_iff.mpr hscan, fun depth => ?_⟩
    exact (hd.ofLeafTo .additive).parseWithin_eq (Expr.greedy_reread fun _ => rfl) depth
  · have hvalue : ∀ n, e.reread.height ≤ n → e.reread.evaluateWithin n = e.evaluateWithin n :=
      fun n hn => Expr.evaluateWithin_reread hleft hn
        (Nat.le_trans e.height_le_height_reread hn)
    refine ⟨hvalue, fun ts hts => hvalue Expr.depthLimit ?_⟩
    exact (walks_of_parseWithin (by decide) hts).1

/-- `1 - -2` is described as `(1 - - ( 2 ))`, which is read as a tree with the same value. -/
theorem parse_describe_difference :
    let two : Expr := .num (.ofRatio false (2 * unitsIn 0) 1)
    let e : Expr := .binary (.num .one) .sub (.neg two)
    e.describe = .ok "(1 - - ( 2 ))" ∧
      ∃ ts, scan "(1 - - ( 2 ))" = .ok ts ∧ Expr.parse ts =
        .ok ⟨.group (.binary (.num .one) .sub (.neg (.group two))), []⟩ ∧
          e.reread.evaluate = e.evaluate := by
  intro two e
  have he : e.IsPlain := by decide +kernel
  have htext : e.describe = .ok "(1 - - ( 2 ))" := by decide +kernel
  obtain ⟨-, hdescribe, hvalue⟩ := parse_describe he Expr.depthLimit
  obtain ⟨text, ts, htext', hscan, hparse⟩ := hdescribe (by decide)
  obtain rfl := Except.ok.inj (htext.symm.trans htext')
  have hparse : Expr.parse ts = .ok ⟨e.reread, []⟩ := hparse Expr.depthLimit
  exact ⟨htext, ts, hscan, hparse, (hvalue ⟨rfl, trivial, trivial⟩).2 ts hparse⟩

end Reckoner
