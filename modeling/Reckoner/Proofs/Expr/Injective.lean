import Reckoner.Proofs.Decimal.ReadBack
import Reckoner.Proofs.Expr.Walks

/-!
# Descriptions tell trees apart

A description says where it ends: a bracket by the bracket that closes it, and a number by the blank
or the closing bracket that comes next, for a number has neither in its text. So from one text that
starts with a description, both the tree and what follows are known (`Expr.shown_append_inj`). The
first two characters tell which kind of tree it is: a bracket with a blank is a bracket of the
input, one without is an operator's, and a minus with a blank is not the sign of a number.

* `Binary64.isInNumber_of_mem_render`: the text of a number has no blanks and no brackets.
* `Expr.formOf_shown_append`: the root of a tree is known from the start of its description.
* **`describe_tells_apart`**: no two trees have one description.
-/

namespace Reckoner

/-! ## Texts of numbers -/

namespace Binary64

/-- A character that is neither a blank nor a bracket. -/
def isInNumber (c : Char) : Bool := c != ' ' && c != '(' && c != ')'

theorem isInNumber_of_isMark {c : Char} (h : Numeral.IsMark c) : isInNumber c = true :=
  h.elim (P := fun c => isInNumber c = true) (by decide) (by decide) (by decide) (by decide)
    (by decide)

/-- **The text of a number has no blanks and no brackets.** -/
theorem isInNumber_of_mem_render (x : Binary64) :
    ∀ c ∈ (x.render .brief).toList, isInNumber c = true := by
  refine List.all_eq_true.mp ?_
  cases x with
  | nan => decide
  | infinity negative => cases negative <;> decide
  | finite negative m =>
    have hmark := m.shortest.writes_render.isMark
    have hdigits : (m.shortest.render .brief).toList.all isInNumber = true :=
      List.all_eq_true.mpr fun c hc => isInNumber_of_isMark (hmark c hc)
    change ((if negative then "-" else "") ++ m.shortest.render .brief).toList.all isInNumber = true
    rw [String.toList_append, List.all_append, hdigits, Bool.and_true]
    cases negative <;> decide

theorem exists_render_eq_cons (x : Binary64) : ∃ c cs, (x.render .brief).toList = c :: cs :=
  List.exists_cons_of_ne_nil fun h => x.render_ne_empty (String.toList_eq_nil_iff.mp h)

theorem render_ne_minus (x : Binary64) : x.render .brief ≠ "-" := by
  intro hminus
  have hx := x.read?_render
  rw [hminus] at hx
  cases hx

end Binary64

/-- No two operators have one symbol. -/
theorem Operator.symbol?_injective {op op' : Operator} {c : Char} (h : op.symbol? = some c)
    (h' : op'.symbol? = some c) : op = op' := by
  cases op <;> cases h <;> cases op' <;> cases h' <;> rfl

/-! ## Texts of trees -/

namespace Expr

open Binary64 (isInNumber)

/-- The characters of the description of a tree, of whatever height. -/
def shown : Expr → List Char
  | num value => (value.render .brief).toList
  | binary l op r =>
    '(' :: (l.shown ++ ' ' :: (op.symbol?.toList ++ ' ' :: (r.shown ++ [')'])))
  | group inner => '(' :: ' ' :: (inner.shown ++ [' ', ')'])
  | neg inner => '-' :: ' ' :: '(' :: ' ' :: (inner.shown ++ [' ', ')'])
  | foreign _ => []

/-- Offenders of a node are offenders of its parts or its operator. -/
theorem offencesAfter_binary {l r : Expr} {op : Operator} (h : (binary l op r).offencesAfter = []) :
    l.offencesAfter = [] ∧ r.offencesAfter = [] ∧ ∃ c, op.symbol? = some c := by
  obtain ⟨hoperands, hop⟩ := List.append_eq_nil_iff.mp h
  obtain ⟨hl, hr⟩ := List.append_eq_nil_iff.mp hoperands
  refine ⟨hl, hr, ?_⟩
  cases op with
  | unknown => cases hop
  | _ => exact ⟨_, rfl⟩

/-- A tree without offenders that is not too high is described by its characters. -/
theorem exists_describeWithin_shown : ∀ (levels : Nat) (e : Expr), e.height ≤ levels →
    e.offencesAfter = [] → ∃ text, e.describeWithin levels = .ok text ∧ text.toList = e.shown
  | 0, e, h, _ => absurd h (Nat.not_le.mpr e.height_pos)
  | _ + 1, num _, _, _ => ⟨_, rfl, rfl⟩
  | _ + 1, foreign _, _, ho => by cases ho
  | levels + 1, group inner, h, ho => by
    obtain ⟨a, ha, hshown⟩ :=
      exists_describeWithin_shown levels inner (Nat.le_of_succ_le_succ h) ho
    exact ⟨_, describeWithin_group ha, by simp [shown, hshown]⟩
  | levels + 1, neg inner, h, ho => by
    obtain ⟨a, ha, hshown⟩ :=
      exists_describeWithin_shown levels inner (Nat.le_of_succ_le_succ h) ho
    exact ⟨_, describeWithin_neg ha, by simp [shown, hshown]⟩
  | levels + 1, binary l op r, h, ho => by
    obtain ⟨hlo, hro, c, hc⟩ := offencesAfter_binary ho
    obtain ⟨hl, hr⟩ := Nat.max_le.mp (Nat.le_of_succ_le_succ h)
    obtain ⟨a, ha, hshownl⟩ := exists_describeWithin_shown levels l hl hlo
    obtain ⟨b, hb, hshownr⟩ := exists_describeWithin_shown levels r hr hro
    exact ⟨_, describeWithin_binary ha hc hb, by simp [shown, hc, hshownl, hshownr]⟩

/-! ## The root of a tree -/

/-- What the root of a tree is. -/
inductive Form where
  | number
  | operator
  | bracket
  | minus
deriving DecidableEq

/-- The root of a tree; a foreign leaf counts as a number. -/
def form : Expr → Form
  | num _ | foreign _ => .number
  | binary _ _ _ => .operator
  | group _ => .bracket
  | neg _ => .minus

/-- The root of a tree whose description starts so. -/
def formOf : List Char → Form
  | '(' :: ' ' :: _ => .bracket
  | '(' :: _ => .operator
  | '-' :: ' ' :: _ => .minus
  | _ => .number

variable {e f : Expr} {s t : List Char}

theorem formOf_bracket {c : Char} (hc : c ≠ ' ') (cs : List Char) :
    formOf ('(' :: c :: cs) = .operator := by
  simp [formOf, hc]

/-- A number starts with a character that is neither a blank nor a bracket, and if that is a minus,
there is another. -/
theorem formOf_number (value : Binary64) (s : List Char) :
    formOf ((value.render .brief).toList ++ s) = .number := by
  have hchars := value.isInNumber_of_mem_render
  obtain ⟨c, cs, hcs⟩ := value.exists_render_eq_cons
  have hminus : c = '-' → cs ≠ [] := by
    rintro rfl rfl
    exact value.render_ne_minus (String.toList_inj.mp hcs)
  rw [hcs] at hchars ⊢
  obtain ⟨hc, hrest⟩ := List.forall_mem_cons.mp hchars
  unfold formOf
  split
  · rename_i heq
    obtain ⟨rfl, -⟩ := List.cons_eq_cons.mp heq
    cases hc
  · rename_i heq
    obtain ⟨rfl, -⟩ := List.cons_eq_cons.mp heq
    cases hc
  · rename_i heq
    obtain ⟨rfl, hblank⟩ := List.cons_eq_cons.mp heq
    obtain ⟨d, ds, rfl⟩ := List.exists_cons_of_ne_nil (hminus rfl)
    obtain ⟨rfl, -⟩ := List.cons_eq_cons.mp hblank
    cases hrest ' ' List.mem_cons_self
  · rfl

/-- A description does not start with a blank. -/
theorem exists_shown_eq_cons (ho : e.offencesAfter = []) :
    ∃ c cs, e.shown = c :: cs ∧ c ≠ ' ' := by
  cases e with
  | num value =>
    obtain ⟨c, cs, hcs⟩ := value.exists_render_eq_cons
    refine ⟨c, cs, hcs, ?_⟩
    rintro rfl
    cases value.isInNumber_of_mem_render ' ' (hcs ▸ List.mem_cons_self)
  | foreign => cases ho
  | binary | group | neg => exact ⟨_, _, rfl, by decide⟩

/-- **The root of a tree is known from the start of its description.** -/
theorem formOf_shown_append (ho : e.offencesAfter = []) (s : List Char) :
    formOf (e.shown ++ s) = e.form := by
  cases e with
  | num value => exact formOf_number value s
  | foreign => cases ho
  | group | neg => rfl
  | binary l op r =>
    obtain ⟨hlo, -, -⟩ := offencesAfter_binary ho
    obtain ⟨c, cs, hl, hc⟩ := exists_shown_eq_cons hlo
    rw [shown, hl]
    exact formOf_bracket hc _

theorem form_eq_of_shown_append (ho : e.offencesAfter = []) (hof : f.offencesAfter = [])
    (h : e.shown ++ s = f.shown ++ t) : e.form = f.form := by
  rw [← formOf_shown_append ho s, h, formOf_shown_append hof]

/-! ## The tree and what follows -/

theorem shown_num_append_inj {x y : Binary64} (hs : ∀ c ∈ s.head?, isInNumber c = false)
    (ht : ∀ c ∈ t.head?, isInNumber c = false) (h : (num x).shown ++ s = (num y).shown ++ t) :
    x = y ∧ s = t := by
  have hspan := congrArg (List.span isInNumber) h
  rw [shown, shown, Numeral.span_append x.isInNumber_of_mem_render hs,
    Numeral.span_append y.isInNumber_of_mem_render ht] at hspan
  obtain ⟨htext, hrest⟩ := Prod.mk.inj hspan
  exact ⟨Binary64.render_injective (String.toList_inj.mp htext), hrest⟩

/-- **One text starts with one description**, if what follows cannot belong to a number. -/
theorem shown_append_inj (ho : e.offencesAfter = []) (hof : f.offencesAfter = [])
    (hs : ∀ c ∈ s.head?, isInNumber c = false) (ht : ∀ c ∈ t.head?, isInNumber c = false)
    (h : e.shown ++ s = f.shown ++ t) : e = f ∧ s = t := by
  -- Within a node, a blank or the closing bracket comes after each operand.
  have hblank : ∀ cs : List Char, ∀ c ∈ (' ' :: cs).head?, isInNumber c = false :=
    fun _ _ hc => Option.some.inj hc ▸ by decide
  have hclosing : ∀ cs : List Char, ∀ c ∈ (')' :: cs).head?, isInNumber c = false :=
    fun _ _ hc => Option.some.inj hc ▸ by decide
  induction e generalizing f s t with
  | foreign => cases ho
  | num x =>
    cases f with
    | num y =>
      obtain ⟨rfl, rfl⟩ := shown_num_append_inj hs ht h
      exact ⟨rfl, rfl⟩
    | foreign => cases hof
    | _ => cases form_eq_of_shown_append ho hof h
  | group inner ih =>
    cases f with
    | group inner' =>
      have h : inner.shown ++ ' ' :: ')' :: s = inner'.shown ++ ' ' :: ')' :: t := by
        simpa [shown] using h
      have hof : inner'.offencesAfter = [] := hof
      obtain ⟨rfl, hrest⟩ := ih ho hof (hblank _) (hblank _) h
      cases hrest
      exact ⟨rfl, rfl⟩
    | foreign => cases hof
    | _ => cases form_eq_of_shown_append ho hof h
  | neg inner ih =>
    cases f with
    | neg inner' =>
      have h : inner.shown ++ ' ' :: ')' :: s = inner'.shown ++ ' ' :: ')' :: t := by
        simpa [shown] using h
      have hof : inner'.offencesAfter = [] := hof
      obtain ⟨rfl, hrest⟩ := ih ho hof (hblank _) (hblank _) h
      cases hrest
      exact ⟨rfl, rfl⟩
    | foreign => cases hof
    | _ => cases form_eq_of_shown_append ho hof h
  | binary l op r ihl ihr =>
    cases f with
    | binary l' op' r' =>
      obtain ⟨hlo, hro, c, hc⟩ := offencesAfter_binary ho
      obtain ⟨hlo', hro', c', hc'⟩ := offencesAfter_binary hof
      have h : l.shown ++ ' ' :: c :: ' ' :: (r.shown ++ ')' :: s) =
          l'.shown ++ ' ' :: c' :: ' ' :: (r'.shown ++ ')' :: t) := by
        simpa [shown, hc, hc'] using h
      obtain ⟨rfl, hright⟩ := ihl hlo hlo' (hblank _) (hblank _) h
      simp only [List.cons.injEq, true_and] at hright
      obtain ⟨rfl, hright⟩ := hright
      obtain ⟨rfl, hrest⟩ := ihr hro hro' (hclosing _) (hclosing _) hright
      cases hrest
      obtain rfl := Operator.symbol?_injective hc hc'
      exact ⟨rfl, rfl⟩
    | foreign => cases hof
    | _ => cases form_eq_of_shown_append ho hof h

end Expr

/-- **Descriptions tell trees apart.** Two trees with the six operators and no foreign leaf have
descriptions if they are not higher than the walks go, and they have the same one only if they are
the same tree, number for number. -/
theorem describe_tells_apart {e f : Expr} (ho : e.offencesAfter = []) (hof : f.offencesAfter = [])
    (he : e.height ≤ Expr.depthLimit) (hf : f.height ≤ Expr.depthLimit) :
    ∃ text text', e.describe = .ok text ∧ f.describe = .ok text' ∧ (text = text' ↔ e = f) := by
  obtain ⟨text, htext, hshown⟩ := Expr.exists_describeWithin_shown _ e he ho
  obtain ⟨text', htext', hshown'⟩ := Expr.exists_describeWithin_shown _ f hf hof
  refine ⟨text, text', htext, htext', fun heq => ?_, fun heq => ?_⟩
  · have hchars : e.shown ++ [] = f.shown ++ [] := by
      rw [← hshown, ← hshown', heq]
    exact (Expr.shown_append_inj ho hof (by simp) (by simp) hchars).1
  · subst heq
    exact Except.ok.inj (htext.symm.trans htext')

/-- A negative number and a negation are told apart, also on the right of a minus. -/
theorem describe_tells_apart_minus :
    let e : Expr := .binary (.num .one) .sub (.num (-.one))
    let f : Expr := .binary (.num .one) .sub (.neg (.num .one))
    ∃ text text', e.describe = .ok text ∧ f.describe = .ok text' ∧ text ≠ text' := by
  intro e f
  obtain ⟨text, text', htext, htext', hiff⟩ :=
    describe_tells_apart (e := e) (f := f) rfl rfl (by decide) (by decide)
  refine ⟨text, text', htext, htext', fun heq => ?_⟩
  cases (Expr.binary.inj (hiff.mp heq)).2.2

end Reckoner
