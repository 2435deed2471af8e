import Mathlib.Data.List.Chain
import Reckoner.Proofs.Token.RoundTrip

/-!
# A line in one pass

The deletions that make a line are each a pass of `squeeze` with a class of its own, and two passes
are one with both classes (`squeeze_squeeze`), because no pass deletes or adds the characters that
the next one looks for. So a line is its text squeezed once, whatever the texts of the tokens hold.

* `tightenBefore_eq_squeeze`, `tightenAfter_eq_squeeze`: one deletion.
* `squeeze_at_run`: a run of white space stays or goes as a whole, by its two neighbours.
* **`line_in_one_pass`**: a line against its text.
-/

namespace Reckoner

namespace Text

open Unicode

variable {p q : Char → Bool} {last : Option Char} {c : Char} {cs before run after : List Char}

/-! ## One pass -/

theorem squeeze_space (h : isSpace c = true) :
    squeeze p q last (c :: cs) =
      if last.any p || (cs.find? (!isSpace ·)).any q then squeeze p q last cs
      else c :: squeeze p q last cs := if_pos h

theorem squeeze_ink (h : isSpace c = false) :
    squeeze p q last (c :: cs) = c :: squeeze p q (some c) cs :=
  if_neg (by rw [h]; exact Bool.false_ne_true)

/-- Nothing but white space is deleted. -/
theorem filter_squeeze (p q : Char → Bool) (last : Option Char) (cs : List Char) :
    (squeeze p q last cs).filter (!isSpace ·) = cs.filter (!isSpace ·) := by
  induction cs generalizing last with
  | nil => rfl
  | cons c cs ih =>
    cases hc : isSpace c with
    | false => rw [squeeze_ink hc, List.filter_cons, List.filter_cons, ih]
    | true =>
      rw [squeeze_space hc]
      split
      · simp [ih, hc]
      · rw [List.filter_cons, List.filter_cons, ih]

/-- The next character of the text, white space apart, is the next one of what is kept. -/
theorem find?_squeeze (p q : Char → Bool) (last : Option Char) (cs : List Char) :
    (squeeze p q last cs).find? (!isSpace ·) = cs.find? (!isSpace ·) := by
  rw [← List.head?_filter, filter_squeeze, List.head?_filter]

/-- **Two passes are one** with both classes. -/
theorem squeeze_squeeze (p q p' q' : Char → Bool) (last : Option Char) (cs : List Char) :
    squeeze p q last (squeeze p' q' last cs) =
      squeeze (fun c => p' c || p c) (fun c => q' c || q c) last cs := by
  induction cs generalizing last with
  | nil => rfl
  | cons c cs ih =>
    cases hc : isSpace c with
    | false => rw [squeeze_ink hc, squeeze_ink hc, squeeze_ink hc, ih]
    | true =>
      have hany (o : Option Char) (r r' : Char → Bool) :
          o.any (fun c => r' c || r c) = (o.any r' || o.any r) := by cases o <;> rfl
      rw [squeeze_space hc, squeeze_space hc, hany, hany, ← ih]
      cases hinner : last.any p' || (cs.find? (!isSpace ·)).any q' with
      | true =>
        have hboth : (last.any p' || last.any p || ((cs.find? (!isSpace ·)).any q' ||
            (cs.find? (!isSpace ·)).any q)) = true := by
          rcases Bool.or_eq_true _ _ |>.mp hinner with h | h <;> simp [h]
        rw [if_pos rfl, if_pos hboth]
      | false =>
        obtain ⟨hp, hq⟩ := Bool.or_eq_false_iff.mp hinner
        rw [if_neg Bool.false_ne_true, squeeze_space hc, find?_squeeze, hp, hq, Bool.false_or,
          Bool.false_or]

/-! ## The deletions of a line are passes -/

theorem any_never (o : Option Char) : (o.any fun _ => false) = false := by cases o <;> rfl

/-- The next character of the class `q`, white space apart, is the next of all if white space before
it is deleted. -/
theorem any_head?_squeeze (hq : ∀ c, isSpace c = true → q c = false) (cs : List Char) :
    (squeeze (fun _ => false) q last cs).head?.any q = (cs.find? (!isSpace ·)).any q := by
  induction cs generalizing last with
  | nil => rfl
  | cons c cs ih =>
    cases hc : isSpace c with
    | false => simp [squeeze_ink hc, hc]
    | true =>
      rw [squeeze_space hc, any_never, Bool.false_or, List.find?_cons, hc]
      change _ = (cs.find? (!isSpace ·)).any q
      cases hnext : (cs.find? (!isSpace ·)).any q with
      | true => rw [if_pos rfl, ih, hnext]
      | false =>
        rw [if_neg Bool.false_ne_true]
        exact hq c hc

theorem tightenBefore_eq_squeeze (hq : ∀ c, isSpace c = true → q c = false) (last : Option Char)
    (cs : List Char) : tightenBefore q cs = squeeze (fun _ => false) q last cs := by
  induction cs generalizing last with
  | nil => rfl
  | cons c cs ih =>
    cases hc : isSpace c with
    | false =>
      rw [tightenBefore_cons, squeeze_ink hc, consTight, hc, ih (some c)]
      rfl
    | true =>
      rw [tightenBefore_cons, squeeze_space hc, consTight, hc, any_never, ih last,
        any_head?_squeeze hq, Bool.true_and, Bool.false_or]

/-- After what has been kept, the pass goes by the last character, which is no white space if it is
in the class. -/
theorem tightenOnto_eq_squeeze (hp : ∀ c, isSpace c = true → p c = false) {kept : List Char}
    (last : Option Char) (hlast : kept.head?.any p = last.any p) (cs : List Char) :
    tightenOnto p kept cs = (squeeze p (fun _ => false) last cs).reverse ++ kept := by
  induction cs generalizing last kept with
  | nil => rfl
  | cons c cs ih =>
    change tightenOnto p (consTight p c kept) cs = _
    cases hc : isSpace c with
    | false =>
      have hkeep : consTight p c kept = c :: kept := by
        rw [consTight, hc]
        rfl
      rw [hkeep, squeeze_ink hc, ih (some c) rfl, List.reverse_cons, List.append_assoc,
        List.singleton_append]
    | true =>
      rw [consTight, hc, Bool.true_and, hlast, squeeze_space hc, any_never, Bool.or_false]
      cases hany : last.any p with
      | true =>
        rw [if_pos rfl, if_pos rfl]
        exact ih last hlast
      | false =>
        have hblank : (c :: kept).head?.any p = last.any p := (hp c hc).trans hany.symm
        rw [if_neg Bool.false_ne_true, if_neg Bool.false_ne_true, ih last hblank, List.reverse_cons,
          List.append_assoc, List.singleton_append]

theorem tightenAfter_eq_squeeze (hp : ∀ c, isSpace c = true → p c = false) (cs : List Char) :
    tightenAfter p cs = squeeze p (fun _ => false) none cs := by
  rw [tightenAfter_eq, tightenOnto_eq_squeeze hp none rfl, List.append_nil,
    List.reverse_reverse]

/-! ## Runs of white space -/

/-- A text goes on after its last character, if that is no white space. -/
theorem squeeze_append (h : ∀ c ∈ before.getLast?, isSpace c = false) (cs : List Char) :
    squeeze p q last (before ++ cs) =
      squeeze p q last before ++ squeeze p q (before.getLast?.or last) cs := by
  induction before generalizing last with
  | nil => rfl
  | cons c before ih =>
    cases hc : isSpace c with
    | false =>
      have hrest : ∀ d ∈ before.getLast?, isSpace d = false := fun d hd =>
        h d (by rw [List.getLast?_cons, hd]; rfl)
      have hor : (c :: before).getLast?.or last = before.getLast?.or (some c) := by
        rw [List.getLast?_cons]
        cases before.getLast? <;> rfl
      rw [List.cons_append, squeeze_ink hc, squeeze_ink hc, ih hrest, hor, List.cons_append]
    | true =>
      cases before with
      | nil => cases hc.symm.trans (h c rfl)
      | cons d before =>
        rw [List.getLast?_cons_cons] at h ⊢
        -- There is another character before the seam, so that white space goes by that one.
        obtain ⟨e, he⟩ : ∃ e, (d :: before).find? (!isSpace ·) = some e := by
          have hlast : (d :: before).getLast (List.cons_ne_nil d before) ∈ d :: before :=
            List.getLast_mem _
          have hink := h _ (List.getLast?_eq_some_getLast (List.cons_ne_nil d before))
          exact Option.isSome_iff_exists.mp
            (List.find?_isSome.mpr ⟨_, hlast, by rw [hink]; rfl⟩)
        rw [List.cons_append, squeeze_space hc, squeeze_space hc, List.find?_append, he,
          Option.some_or, ih h]
        split <;> rfl

/-- White space goes as a whole or stays. -/
theorem squeeze_run_append (h : ∀ c ∈ run, isSpace c = true)
    (hafter : ∀ c ∈ after.head?, isSpace c = false) :
    squeeze p q last (run ++ after) =
      (if last.any p || after.head?.any q then [] else run) ++ squeeze p q last after := by
  induction run with
  | nil => rw [ite_self]; rfl
  | cons c run ih =>
    obtain ⟨hc, hrun⟩ := List.forall_mem_cons.mp h
    have hnext : (run ++ after).find? (!isSpace ·) = after.head? := by
      have hnone : run.find? (!isSpace ·) = none :=
        List.find?_eq_none.mpr fun d hd => by rw [hrun d hd]; exact Bool.false_ne_true
      rw [List.find?_append, hnone, Option.none_or]
      cases after with
      | nil => rfl
      | cons d after => rw [List.find?_cons_of_pos (by rw [hafter d rfl]; rfl), List.head?_cons]
    rw [List.cons_append, squeeze_space hc, hnext, ih hrun]
    split <;> rfl

/-- What came before does not matter to a text that starts with no white space. -/
theorem squeeze_eq_squeeze_none (h : ∀ c ∈ cs.head?, isSpace c = false) :
    squeeze p q last cs = squeeze p q none cs := by
  cases cs with
  | nil => rfl
  | cons c cs => rw [squeeze_ink (h c rfl), squeeze_ink (h c rfl)]

/-- All the white space at a place in a text. -/
structure IsRun (before run after : List Char) : Prop where
  ne_nil : run ≠ []
  isSpace : ∀ c ∈ run, isSpace c = true
  before : ∀ c ∈ before.getLast?, Unicode.isSpace c = false
  after : ∀ c ∈ after.head?, Unicode.isSpace c = false

/-- **A run of white space goes or stays by its two neighbours.** -/
theorem squeeze_at_run (h : IsRun before run after) :
    squeeze p q none (before ++ run ++ after) =
      squeeze p q none before ++
        (if before.getLast?.any p || after.head?.any q then [] else run) ++
          squeeze p q none after := by
  rw [List.append_assoc, squeeze_append h.before, squeeze_run_append h.isSpace h.after,
    squeeze_eq_squeeze_none h.after, Option.or_none, List.append_assoc]

/-! ## What is kept -/

/-- Next to each other stand no character of the class `p` and white space after it, and no white
space and a character of the class `q` after it. -/
def Tight (p q : Char → Bool) (cs : List Char) : Prop :=
  cs.IsChain fun c d => (p c = true → isSpace d = false) ∧ (q d = true → isSpace c = false)

/-- What is kept starts with white space only where that is not deleted, else with the next
character. -/
theorem head?_squeeze {d : Char} (h : d ∈ (squeeze p q last cs).head?) :
    (isSpace d = true ∧ last.any p = false ∧ (cs.find? (!isSpace ·)).any q = false) ∨
      (isSpace d = false ∧ cs.find? (!isSpace ·) = some d) := by
  induction cs with
  | nil => cases h
  | cons c cs ih =>
    cases hc : isSpace c with
    | false =>
      rw [squeeze_ink hc] at h
      cases h
      exact Or.inr ⟨hc, List.find?_cons_of_pos (by rw [hc]; rfl)⟩
    | true =>
      rw [List.find?_cons_of_neg (by rw [hc]; exact Bool.false_ne_true)]
      rw [squeeze_space hc] at h
      split at h
      · exact ih h
      · rename_i hkeep
        rw [Bool.not_eq_true, Bool.or_eq_false_iff] at hkeep
        cases h
        exact Or.inl ⟨hc, hkeep⟩

theorem tight_squeeze (hp : ∀ c, isSpace c = true → p c = false)
    (hq : ∀ c, isSpace c = true → q c = false) (last : Option Char)
    (cs : List Char) : Tight p q (squeeze p q last cs) := by
  induction cs generalizing last with
  | nil => exact List.isChain_nil
  | cons c cs ih =>
    cases hc : isSpace c with
    | false =>
      rw [squeeze_ink hc]
      refine List.isChain_cons.mpr ⟨fun d hd => ⟨fun hp => ?_, fun _ => hc⟩, ih (some c)⟩
      rcases head?_squeeze hd with ⟨-, hlast, -⟩ | ⟨hd, -⟩
      · cases hlast.symm.trans hp
      · exact hd
    | true =>
      rw [squeeze_space hc]
      split
      · exact ih last
      · rename_i hkeep
        rw [Bool.not_eq_true, Bool.or_eq_false_iff] at hkeep
        refine List.isChain_cons.mpr ⟨fun d hd => ?_, ih last⟩
        rcases head?_squeeze hd with ⟨hd, -, -⟩ | ⟨hd, hfind⟩
        · exact ⟨fun h => (Bool.false_ne_true ((hp c hc).symm.trans h)).elim,
            fun h => (Bool.false_ne_true ((hq d hd).symm.trans h)).elim⟩
        · rw [hfind] at hkeep
          exact ⟨fun _ => hd, fun h => (Bool.false_ne_true (hkeep.2.symm.trans h)).elim⟩

end Text

namespace Token

open Text

/-! ## Lines -/

/-- The characters that a line shows no white space after. -/
def hugsNext (c : Char) : Bool := c == '(' || c == '^'

/-- The characters that a line shows no white space before. -/
def hugsPrevious (c : Char) : Bool := c == ')' || c == '^'

/-- White space is none of the other characters. -/
theorem beq_eq_false_of_isSpace {c d : Char} (hd : Unicode.isSpace d = false)
    (hc : Unicode.isSpace c = true) : (c == d) = false := by
  rw [beq_eq_false_iff_ne]
  rintro rfl
  cases hd.symm.trans hc

/-- **All deletions of a line are one pass.** -/
theorem tighten_eq_squeeze (cs : List Char) :
    tighten cs = squeeze hugsNext hugsPrevious none cs := by
  have hopening : ∀ c, Unicode.isSpace c = true → (c == '(') = false :=
    fun c => beq_eq_false_of_isSpace (by decide)
  have hclosing : ∀ c, Unicode.isSpace c = true → (c == ')') = false :=
    fun c => beq_eq_false_of_isSpace (by decide)
  have hcaret : ∀ c, Unicode.isSpace c = true → (c == '^') = false :=
    fun c => beq_eq_false_of_isSpace (by decide)
  rw [tighten, tightenAround, tightenAfter_eq_squeeze hopening,
    tightenBefore_eq_squeeze hclosing none, tightenBefore_eq_squeeze hcaret none,
    tightenAfter_eq_squeeze hcaret, squeeze_squeeze, squeeze_squeeze, squeeze_squeeze]
  simp only [Bool.or_false, Bool.false_or]
  rfl

theorem hugs_eq_false_of_isSpace {c : Char} (h : Unicode.isSpace c = true) :
    hugsNext c = false ∧ hugsPrevious c = false := by
  have hcaret := beq_eq_false_of_isSpace (d := '^') (by decide) h
  exact ⟨Bool.or_eq_false_iff.mpr ⟨beq_eq_false_of_isSpace (by decide) h, hcaret⟩,
    Bool.or_eq_false_iff.mpr ⟨beq_eq_false_of_isSpace (by decide) h, hcaret⟩⟩

/-- **A line is its text without some runs of white space**, whatever the texts of its tokens hold.
The texts are joined by blanks, and one pass deletes the runs that directly follow an opening
bracket or a caret or directly precede a closing bracket or a caret: each run goes or stays by its
two neighbours. So the line shows no white space there, has all other characters, and nothing more
can be deleted. -/
theorem line_in_one_pass (ts : List Token) :
    let text := [' '].intercalate (words ts)
    let shown := (line ts).toList
    shown = squeeze hugsNext hugsPrevious none text ∧
      (∀ before run after, text = before ++ run ++ after → IsRun before run after →
        shown = tighten before ++
          (if before.getLast?.any hugsNext || after.head?.any hugsPrevious then [] else run) ++
            tighten after) ∧
      Tight hugsNext hugsPrevious shown ∧
      shown.filter (!Unicode.isSpace ·) = text.filter (!Unicode.isSpace ·) ∧
      tighten shown = shown := by
  intro text shown
  have hshown : shown = squeeze hugsNext hugsPrevious none text :=
    String.toList_ofList.trans (tighten_eq_squeeze text)
  refine ⟨hshown, fun before run after htext hrun => ?_, ?_, ?_, ?_⟩
  · rw [hshown, htext, squeeze_at_run hrun, tighten_eq_squeeze, tighten_eq_squeeze]
  · rw [hshown]
    exact tight_squeeze (fun c hc => (hugs_eq_false_of_isSpace hc).1)
      (fun c hc => (hugs_eq_false_of_isSpace hc).2) none text
  · rw [hshown, filter_squeeze]
  · rw [hshown, tighten_eq_squeeze, squeeze_squeeze]
    simp only [Bool.or_self]

/-- In `( 1  2 ^ )` the run between the two digits stays, though it stands in the text of one token,
and the others go. -/
theorem line_in_one_pass_chain :
    let ts : List Token := [⟨.leftParen, "("⟩, ⟨.number, "1  2"⟩, ⟨.power, "^"⟩, ⟨.rightParen, ")"⟩]
    IsRun "( 1".toList "  ".toList "2 ^ )".toList ∧
      (line ts).toList = "(1".toList ++ "  ".toList ++ "2^)".toList := by
  intro ts
  have hrun : IsRun "( 1".toList "  ".toList "2 ^ )".toList := by
    refine ⟨by decide, List.all_eq_true.mp (by decide), fun c hc => ?_, fun c hc => ?_⟩ <;>
      cases hc <;> rfl
  exact ⟨hrun, (line_in_one_pass ts).2.1 _ _ _ rfl hrun⟩

end Token

end Reckoner
