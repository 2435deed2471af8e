import Mathlib.Algebra.Order.Ring.Nat
import Mathlib.Data.List.Chain
import Reckoner.Calculation
import Reckoner.Proofs.Reader.Reads
import Reckoner.Proofs.Token.RoundTrip

/-!
# Where the caret stands

The caret of a parse error is drawn a blank after the line of the tokens before it. On the line of
all the tokens, the token at fault starts there only if a blank is shown before it; after an opening
bracket or a caret, and before a closing bracket or a caret, it starts one column earlier.

* `toList_line_append`: the line of the first tokens is the start of the line of all of them.
* **`column_eq`**: the column of the caret, for canonical tokens and any index.
* **`caret_column_of_parse`**: the same for texts; at the end of the tokens, the caret is behind the
  line.
* **`caret_displacement`**: how far the caret is from the token at fault, as seen on the line itself
  and on the kinds of the two tokens.
-/

namespace Reckoner

namespace Token

open Text

variable {t : Token} {ts before after : List Token}

/-- A character that is shown. -/
def isInk (c : Char) : Bool := !Unicode.isSpace c

/-- The column at which a token starts in the line: that of the character with as many shown
characters before it as the tokens before have. -/
def column? (ts : List Token) (i : Nat) : Option Nat :=
  ((line ts).toList.findIdxs isInk)[((ts.take i).map (·.text.length)).sum]?

/-! ## Lines in two parts -/

/-- The blank before a token, if there is one. -/
def blankBefore (before : List Token) (t : Token) : List Char :=
  if before.getLast?.any (apart · t) then [' '] else []

/-- **The line of the first tokens is the start of the line.** After it comes the next token, with
or without a blank. -/
theorem toList_line_append (h : ∀ u ∈ before ++ t :: after, u.IsCanonical) :
    ∃ more, (line (before ++ t :: after)).toList =
      (line before).toList ++ (blankBefore before t ++ (t.text.toList ++ more)) := by
  have ⟨hbefore, hafter⟩ := List.forall_mem_append.mp h
  have ht := hafter t List.mem_cons_self
  have hgap : (words before).getLast?.any (wordsApart · t.text.toList) =
      before.getLast?.any (apart · t) := by
    rw [words, List.getLast?_map]
    cases hlast : before.getLast? with
    | none => rfl
    | some u => exact wordsApart_text (hbefore u (List.mem_of_getLast? hlast)) ht
  refine ⟨layoutAfter wordsApart t.text.toList (words after), ?_⟩
  rw [toList_line h, toList_line hbefore, words, List.map_append, List.map_cons, layout_append]
  change layout _ (words before) ++ ((if (words before).getLast?.any _ then _ else _) ++ _) = _
  rw [hgap]
  rfl

/-- The line of the first tokens is a prefix of the line, wherever the tokens are divided. -/
theorem line_take_prefix (h : ∀ u ∈ ts, u.IsCanonical) (i : Nat) :
    (line (ts.take i)).toList <+: (line ts).toList := by
  by_cases hi : i < ts.length
  · have hsplit : ts.take i ++ ts[i] :: ts.drop (i + 1) = ts := by
      rw [List.getElem_cons_drop, List.take_append_drop]
    rw [← hsplit] at h
    obtain ⟨more, hline⟩ := toList_line_append h
    rw [hsplit] at hline
    exact ⟨_, hline.symm⟩
  · have hall : ts.take i = ts := List.take_of_length_le (Nat.not_lt.mp hi)
    simp only [hall, List.prefix_refl]

/-- A line ends as its last token does. -/
theorem getLast?_line (h : ∀ u ∈ before ++ [t], u.IsCanonical) :
    (line (before ++ [t])).toList.getLast? = t.text.toList.getLast? := by
  have hne : t.text.toList ≠ [] := (h t (by simp)).isWord.ne_nil
  rw [toList_line h, words, List.map_append, List.map_singleton, layout_append, ← List.append_assoc,
    layout, layoutAfter, List.append_nil, List.getLast?_append_of_ne_nil _ hne]

theorem toList_line_ne_nil (h : ∀ u ∈ before, u.IsCanonical) (hne : before ≠ []) :
    (line before).toList ≠ [] := by
  obtain ⟨init, u, rfl⟩ := before.eq_nil_or_concat.resolve_left hne
  rw [List.concat_eq_append] at h ⊢
  intro hnil
  have hlast := getLast?_line h
  rw [hnil, List.getLast?_nil, eq_comm, List.getLast?_eq_none_iff] at hlast
  exact (h u (by simp)).isWord.ne_nil hlast

theorem countP_isInk {w : List Char} (h : IsWord w) : w.countP isInk = w.length := by
  rw [List.countP_eq_length]
  intro c hc
  rw [isInk, h.isSpace c hc]
  rfl

theorem countP_layoutAfter {gap : List Char → List Char → Bool} {ws : List (List Char)}
    (h : ∀ w ∈ ws, IsWord w) (w : List Char) :
    (layoutAfter gap w ws).countP isInk = (ws.map List.length).sum := by
  induction ws generalizing w with
  | nil => rfl
  | cons v ws ih =>
    obtain ⟨hv, hws⟩ := List.forall_mem_cons.mp h
    have hgap : (if gap w v then [' '] else []).countP isInk = 0 := by
      split <;> rfl
    rw [layoutAfter, List.countP_append, List.countP_append, hgap, countP_isInk hv, ih hws,
      List.map_cons, List.sum_cons, Nat.zero_add]

theorem countP_layout {gap : List Char → List Char → Bool} {ws : List (List Char)}
    (h : ∀ w ∈ ws, IsWord w) : (layout gap ws).countP isInk = (ws.map List.length).sum := by
  cases ws with
  | nil => rfl
  | cons w ws =>
    obtain ⟨hw, hws⟩ := List.forall_mem_cons.mp h
    rw [layout, List.countP_append, countP_isInk hw, countP_layoutAfter hws, List.map_cons,
      List.sum_cons]

/-- The characters that a line shows are those of the texts. -/
theorem countP_line (h : ∀ t ∈ ts, t.IsCanonical) :
    (line ts).toList.countP isInk = (ts.map (·.text.length)).sum := by
  rw [toList_line h, countP_layout (isWord_of_mem_words h), words, List.map_map]
  rfl

/-- The token after the first ones starts at the end of their line, or a blank further on. -/
theorem column?_append (h : ∀ u ∈ before ++ t :: after, u.IsCanonical) :
    column? (before ++ t :: after) before.length =
      some ((line before).toList.length + (blankBefore before t).length) := by
  have ⟨hbefore, hafter⟩ := List.forall_mem_append.mp h
  have ht := (hafter t List.mem_cons_self).isWord
  obtain ⟨more, hline⟩ := toList_line_append h
  obtain ⟨c, w, hw⟩ := List.exists_cons_of_ne_nil ht.ne_nil
  have hc : isInk c = true := by
    rw [isInk, ht.isSpace c (by rw [hw]; exact List.mem_cons_self)]
    rfl
  have hfirst : ((line before).toList.findIdxs isInk).length =
      (before.map (·.text.length)).sum := by
    rw [List.length_findIdxs, countP_line hbefore]
  have hblank : (blankBefore before t).findIdxs isInk (0 + (line before).toList.length) = [] := by
    unfold blankBefore
    split <;> rfl
  rw [column?, List.take_left, hline, hw, List.findIdxs_append, ← hfirst,
    List.getElem?_append_right (Nat.le_refl _), Nat.sub_self, List.findIdxs_append, hblank,
    List.nil_append, List.cons_append, List.findIdxs_cons, if_pos hc, Nat.zero_add]
  rfl

end Token

open Token

variable {before after : List Token} {t : Token}

/-! ## The caret -/

/-- The token is shown apart from the one before it, if there is one. -/
def Token.startsApart (before : List Token) (t : Token) : Bool := before.getLast?.all (apart · t)

/-- Where the line has no blank before the token, the caret is drawn as if it had. -/
theorem length_blankBefore (before : List Token) (t : Token) :
    (blankBefore before t).length + (if startsApart before t then 0 else 1) =
      if before.isEmpty then 0 else 1 := by
  unfold blankBefore startsApart
  rcases List.eq_nil_or_concat before with rfl | ⟨init, u, rfl⟩
  · rfl
  · rw [List.concat_eq_append, List.getLast?_concat, Option.any_some, Option.all_some]
    cases apart u t <;> simp

theorem column_fault (before rest : List Token) (reason : Fault) :
    (ParseError.fault (before ++ rest) before.length reason).column =
      (line before).toList.length + if before.isEmpty then 0 else 1 := by
  simp only [ParseError.column, ParseError.tokens, ParseError.index, List.take_left,
    String.length_toList]

/-- **The column of the caret** is that at which the token at fault starts, or the next one if no
blank is shown before the token. -/
theorem column_eq (h : ∀ u ∈ before ++ t :: after, u.IsCanonical) (reason : Fault) :
    ∃ start, column? (before ++ t :: after) before.length = some start ∧
      (ParseError.fault (before ++ t :: after) before.length reason).column =
        start + if startsApart before t then 0 else 1 := by
  refine ⟨_, column?_append h, ?_⟩
  rw [column_fault, Nat.add_assoc, length_blankBefore]

/-- **Where the caret stands.** When a text is scanned and its tokens are no expression, the caret
is drawn on the third line, below the line of the tokens: behind all of the line for a fault at the
end of the tokens, and else at the column at which the token at fault starts if a blank is shown
before that token or it is the first, but at the next column if the line has no blank there. -/
theorem caret_column_of_parse {text : String} {ts shown : List Token} {i : Nat} {reason : Fault}
    (hscan : scan text = .ok ts) (hparse : Expr.parse ts = .error (.fault shown i reason)) :
    (ParseError.fault shown i reason).message =
        "Parser error: " ++ reason.text ++ "\n" ++ line ts ++ "\n" ++
          Text.blanks (ParseError.fault shown i reason).column ++ "^" ∧
      (i = ts.length → (line ts).length ≤ (ParseError.fault shown i reason).column) ∧
      ∀ hi : i < ts.length, ∃ start, column? ts i = some start ∧
        (startsApart (ts.take i) ts[i] = true ↔
          (ParseError.fault shown i reason).column = start) ∧
        (startsApart (ts.take i) ts[i] = false ↔
          (ParseError.fault shown i reason).column = start + 1) := by
  obtain ⟨rfl, rest, -, -⟩ := parseWithin_eq_fault_iff.mp hparse
  refine ⟨rfl, ?_, fun hi => ?_⟩
  · rintro rfl
    have hcolumn := column_fault shown [] reason
    rw [List.append_nil] at hcolumn
    rw [hcolumn]
    exact Nat.le_add_right _ _
  · have hsplit : shown.take i ++ shown[i] :: shown.drop (i + 1) = shown := by
      rw [← List.drop_eq_getElem_cons hi, List.take_append_drop]
    have hlength : (shown.take i).length = i := List.length_take_of_le (Nat.le_of_lt hi)
    have hcanonical : ∀ u ∈ shown.take i ++ shown[i] :: shown.drop (i + 1), u.IsCanonical := by
      rw [hsplit]
      exact isCanonical_of_scan hscan
    obtain ⟨start, hstart, hcolumn⟩ := column_eq hcanonical reason
    rw [hsplit, hlength] at hstart hcolumn
    refine ⟨start, hstart, ?_⟩
    rw [hcolumn]
    cases startsApart (shown.take i) shown[i] <;> simp

/-- In `2^(1 + * 3)`, the caret stands at the star. -/
theorem caret_column_of_parse_star :
    ∃ ts reason, scan "2^(1+*3)" = .ok ts ∧ Expr.parse ts = .error (.fault ts 5 reason) ∧
      column? ts 5 = some 7 ∧ (ParseError.fault ts 5 reason).column = 7 := by
  let ts : List Token := [⟨.number, "2"⟩, ⟨.power, "^"⟩, ⟨.leftParen, "("⟩, ⟨.number, "1"⟩,
    ⟨.plus, "+"⟩, ⟨.multiply, "*"⟩, ⟨.number, "3"⟩, ⟨.rightParen, ")"⟩]
  have hscan : scan "2^(1+*3)" = .ok ts := rfl
  have hparse : Expr.parse ts = .error (.fault ts 5 (.missingOperand .add (some .multiply))) := rfl
  have hcolumn : column? ts 5 = some 7 := by decide
  obtain ⟨-, -, hcaret⟩ := caret_column_of_parse hscan hparse
  obtain ⟨start, hstart, happart, -⟩ := hcaret (by decide)
  obtain rfl : 7 = start := Option.some.inj (hcolumn.symm.trans hstart)
  exact ⟨ts, _, hscan, hparse, hcolumn, happart.mp rfl⟩

/-- In `(+ 1`, the plus starts right after the bracket, and the caret stands one column further. -/
theorem caret_column_behind_plus :
    ∃ ts reason, scan "(+1" = .ok ts ∧ Expr.parse ts = .error (.fault ts 1 reason) ∧
      column? ts 1 = some 1 ∧ (ParseError.fault ts 1 reason).column = 2 := by
  let ts : List Token := [⟨.leftParen, "("⟩, ⟨.plus, "+"⟩, ⟨.number, "1"⟩]
  exact ⟨ts, .operandExpected (some .plus), rfl, rfl, by decide, by decide⟩

/-! ## By how much the caret is off -/

/-- What is shown directly before a token that is not the first is a blank exactly if the token is
shown apart. -/
theorem Token.getLast?_blankBefore (h : ∀ u ∈ before, u.IsCanonical) (hne : before ≠ [])
    (t : Token) :
    ((line before).toList ++ blankBefore before t).getLast? = some ' ' ↔
      startsApart before t = true := by
  obtain ⟨init, u, rfl⟩ := before.eq_nil_or_concat.resolve_left hne
  rw [List.concat_eq_append] at h ⊢
  unfold blankBefore startsApart
  rw [List.getLast?_concat, Option.any_some, Option.all_some]
  by_cases hapart : apart u t = true
  · simp [hapart]
  · simp only [hapart, Bool.false_eq_true, if_false, List.append_nil, iff_false]
    rw [getLast?_line h]
    intro hlast
    have hspace := (h u (by simp)).isWord.isSpace ' ' (List.mem_of_getLast? hlast)
    rw [Unicode.isSpace_blank] at hspace
    exact absurd hspace (by simp)

/-- Where a token starts in the line: with its text, and behind a blank exactly if it is shown apart
from a token before it. -/
theorem Token.exists_start (h : ∀ u ∈ before ++ t :: after, u.IsCanonical) :
    ∃ start, column? (before ++ t :: after) before.length = some start ∧
      t.text.toList <+: (line (before ++ t :: after)).toList.drop start ∧
      (before ≠ [] → 0 < start ∧
        ((line (before ++ t :: after)).toList[start - 1]? = some ' ' ↔
          startsApart before t = true)) := by
  have hbefore := (List.forall_mem_append.mp h).1
  obtain ⟨more, hline⟩ := toList_line_append h
  set shown := (line before).toList ++ blankBefore before t with hshown
  have hline : (line (before ++ t :: after)).toList = shown ++ (t.text.toList ++ more) := by
    rw [hline, hshown, List.append_assoc]
  refine ⟨shown.length, ?_, ?_, fun hne => ?_⟩
  · rw [column?_append h, hshown, List.length_append]
  · rw [hline, List.drop_left]
    exact List.prefix_append _ _
  · have hpos : 0 < shown.length :=
      List.length_pos_iff.mpr (List.append_ne_nil_of_left_ne_nil (toList_line_ne_nil hbefore hne) _)
    refine ⟨hpos, ?_⟩
    rw [hline, List.getElem?_append_left (Nat.sub_one_lt_of_lt hpos), ← List.getLast?_eq_getElem?]
    exact getLast?_blankBefore hbefore hne t

/-- A token that is not the first is not shown apart exactly behind an opening bracket or a caret,
or if it is a closing bracket or a caret itself. -/
theorem Token.startsApart_take_eq_false_iff {ts : List Token} {i : Nat} (hpos : 0 < i)
    (hi : i < ts.length) :
    startsApart (ts.take i) ts[i] = false ↔
      ts[i - 1].kind ∈ [Kind.leftParen, Kind.power] ∨
        ts[i].kind ∈ [Kind.rightParen, Kind.power] := by
  have hlast : (ts.take i).getLast? = some ts[i - 1] := by
    rw [List.getLast?_take, if_neg (Nat.ne_of_gt hpos), List.getElem?_eq_getElem (by omega),
      Option.some_or]
  unfold startsApart apart
  rw [hlast, Option.all_some, Bool.and_eq_false_iff, Bool.not_eq_false', Bool.not_eq_false']
  simp

/-- **By how much the caret is off.** An error that shows canonical tokens draws its caret on the
third line. At the first token that is column zero. At any other token it is the column at which the
token starts in the line, if a blank is printed directly before the token, and else the next one;
and no blank is printed there exactly behind an opening bracket or a caret, and before a closing
bracket or a caret. So the line of the tokens before the token at fault, by which the column is
counted, is always a prefix of the line, and the caret is never left of the token and never more
than one column right of its start. -/
theorem caret_displacement (e : ParseError) (h : ∀ t ∈ e.tokens, t.IsCanonical) :
    e.message = "Parser error: " ++ e.text ++ "\n" ++ line e.tokens ++ "\n" ++
        Text.blanks e.column ++ "^" ∧
      (e.index = 0 → e.column = 0) ∧
      (∀ i, (line (e.tokens.take i)).toList <+: (line e.tokens).toList) ∧
      ∀ hi : e.index < e.tokens.length, ∃ start, column? e.tokens e.index = some start ∧
        e.tokens[e.index].text.toList <+: (line e.tokens).toList.drop start ∧
        start ≤ e.column ∧ e.column ≤ start + 1 ∧
        (0 < e.index → 0 < start ∧
          e.column = start + (if (line e.tokens).toList[start - 1]? = some ' ' then 0 else 1) ∧
          ((line e.tokens).toList[start - 1]? ≠ some ' ' ↔
            e.tokens[e.index - 1].kind ∈ [Kind.leftParen, Kind.power] ∨
              e.tokens[e.index].kind ∈ [Kind.rightParen, Kind.power])) := by
  refine ⟨rfl, fun hzero => ?_, line_take_prefix h, fun hi => ?_⟩
  · unfold ParseError.column
    rw [hzero, List.take_zero]
    rfl
  · have hsplit : e.tokens.take e.index ++ e.tokens[e.index] :: e.tokens.drop (e.index + 1) =
        e.tokens := by
      rw [List.getElem_cons_drop, List.take_append_drop]
    have hlength : (e.tokens.take e.index).length = e.index :=
      List.length_take_of_le (Nat.le_of_lt hi)
    rw [← hsplit] at h
    obtain ⟨start, hstart, htext, hblank⟩ := exists_start h
    -- The column does not depend on what is wrong, so any fault at this token shows it.
    obtain ⟨start', hstart', hcolumn⟩ := column_eq h .unclosedBracket
    obtain rfl : start' = start := Option.some.inj (hstart'.symm.trans hstart)
    rw [hsplit, hlength] at hstart hcolumn
    rw [hsplit] at htext hblank
    have hcolumn : e.column =
        start' + if startsApart (e.tokens.take e.index) e.tokens[e.index] then 0 else 1 := hcolumn
    refine ⟨start', hstart, htext, ?_, ?_, fun hpos => ?_⟩
    · rw [hcolumn]
      exact Nat.le_add_right _ _
    · rw [hcolumn]
      split <;> omega
    · obtain ⟨hstartpos, hblank⟩ := hblank (List.ne_nil_of_length_pos (by rwa [hlength]))
      refine ⟨hstartpos, ?_, ?_⟩
      · simp only [hblank, hcolumn]
      · rw [Ne, hblank, Bool.not_eq_true, startsApart_take_eq_false_iff hpos hi]

/-- In `2^) 1` the closing bracket that stands in the place of an operand starts at two, directly
behind the caret, and the caret below is at three. -/
theorem caret_displacement_power :
    let ts : List Token := [⟨.number, "2"⟩, ⟨.power, "^"⟩, ⟨.rightParen, ")"⟩, ⟨.number, "1"⟩]
    ∃ e, Expr.parse ts = .error e ∧ (∀ t ∈ e.tokens, t.IsCanonical) ∧ e.index = 2 ∧
      column? ts 2 = some 2 ∧ e.column = 3 := by
  intro ts
  let e := ParseError.fault ts 2 (.missingOperand .pow (some .rightParen))
  have hscan : scan "2^)1" = .ok ts := rfl
  have hcanonical : ∀ t ∈ e.tokens, t.IsCanonical := isCanonical_of_scan hscan
  have hstart : column? ts 2 = some 2 := by decide
  obtain ⟨-, -, -, hcaret⟩ := caret_displacement e hcanonical
  obtain ⟨start, hstart', -, -, -, hbehind⟩ := hcaret (by decide)
  obtain rfl : start = 2 := Option.some.inj (hstart'.symm.trans hstart)
  obtain ⟨-, hcolumn, hblank⟩ := hbehind (by decide)
  refine ⟨e, rfl, hcanonical, rfl, hstart, ?_⟩
  rw [hcolumn, if_neg (hblank.mpr (Or.inl (by decide)))]

end Reckoner
