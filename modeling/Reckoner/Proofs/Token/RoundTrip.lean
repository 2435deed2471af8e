import Reckoner.Proofs.Token.Seams
import Reckoner.Token.Line

/-!
# Lines are scanned back

On words, the deletions that make a line only take the blanks between two neighbours, and which of
them they take is seen on the two words (`tightenBefore_layout`, `tightenAfter_layout`). A blank
that is taken is one next to a symbol, so the scan finds the same tokens without it.

* **`toList_line`**: the line of canonical tokens is their texts, with a blank between two
  neighbours unless the one is an opening bracket or a caret or the other a closing bracket or a
  caret.
* **`scan_line`**: tokens are read back from their line exactly if they are canonical; what is
  scanned is canonical; and so tidying the spacing of a text twice is tidying it once.
-/

namespace Reckoner

namespace Text

/-! ## Words with blanks between some of them -/

/-- What comes after the word `w` where the words `ws` follow, with a blank between two neighbours
if `gap` says so. -/
def layoutAfter (gap : List Char → List Char → Bool) (w : List Char) : List (List Char) → List Char
  | [] => []
  | v :: ws => (if gap w v then [' '] else []) ++ (v ++ layoutAfter gap v ws)

/-- The words, with a blank between two neighbours if `gap` says so. -/
def layout (gap : List Char → List Char → Bool) : List (List Char) → List Char
  | [] => []
  | w :: ws => w ++ layoutAfter gap w ws

/-- Some characters, and no white space among them. -/
structure IsWord (w : List Char) : Prop where
  ne_nil : w ≠ []
  isSpace : ∀ c ∈ w, Unicode.isSpace c = false

variable {gap : List Char → List Char → Bool} {p : Char → Bool} {w v cs : List Char}
  {ws vs : List (List Char)}

theorem intercalate_eq_layout (ws : List (List Char)) :
    [' '].intercalate ws = layout (fun _ _ => true) ws := by
  cases ws with
  | nil => rfl
  | cons w ws =>
    rw [layout]
    induction ws generalizing w with
    | nil => rw [List.intercalate_singleton, layoutAfter, List.append_nil]
    | cons v ws ih =>
      rw [List.intercalate_cons_cons, ih, layoutAfter, if_pos rfl, List.append_assoc]

theorem layout_congr {gap' : List Char → List Char → Bool} (h : ∀ w v, gap w v = gap' w v)
    (ws : List (List Char)) : layout gap ws = layout gap' ws := by
  have : gap = gap' := funext fun w => funext fun v => h w v
  rw [this]

/-- Words in two parts, with a blank at the seam if the words there have one between them. -/
theorem layout_append (ws vs : List (List Char)) :
    layout gap (ws ++ v :: vs) =
      layout gap ws ++ ((if ws.getLast?.any (gap · v) then [' '] else []) ++ layout gap (v :: vs)) := by
  cases ws with
  | nil => rfl
  | cons w ws =>
    induction ws generalizing w with
    | nil =>
      rw [List.singleton_append, List.getLast?_singleton]
      simp only [layout, layoutAfter, List.append_nil, Option.any_some]
    | cons u ws ih =>
      have ih := ih u
      rw [List.getLast?_cons_cons]
      simp only [layout, layoutAfter, List.cons_append, List.append_assoc] at ih ⊢
      rw [ih]

/-! ## Deleting blanks between words -/

theorem tightenBefore_append (h : ∀ c ∈ w, Unicode.isSpace c = false) (cs : List Char) :
    tightenBefore p (w ++ cs) = w ++ tightenBefore p cs := by
  induction w with
  | nil => rfl
  | cons c w ih =>
    obtain ⟨hc, hw⟩ := List.forall_mem_cons.mp h
    rw [List.cons_append, tightenBefore_cons, ih hw, consTight, hc]
    rfl

theorem consTight_blank (p : Char → Bool) (cs : List Char) :
    consTight p ' ' cs = (if cs.head?.any p then [] else [' ']) ++ cs := by
  rw [consTight, Unicode.isSpace_blank, Bool.true_and]
  split <;> rfl

theorem head?_append_of_ne_nil (h : w ≠ []) (cs : List Char) : (w ++ cs).head? = w.head? := by
  obtain ⟨c, w, rfl⟩ := List.exists_cons_of_ne_nil h
  rfl

/-- Before a word that starts in the class, the blank goes. -/
theorem tightenBefore_layoutAfter (h : ∀ v ∈ ws, IsWord v) (w : List Char) :
    tightenBefore p (layoutAfter gap w ws) =
      layoutAfter (fun w v => gap w v && !v.head?.any p) w ws := by
  induction ws generalizing w with
  | nil => rfl
  | cons v ws ih =>
    obtain ⟨hv, hws⟩ := List.forall_mem_cons.mp h
    have hrest := tightenBefore_append (p := p) hv.isSpace (layoutAfter gap v ws)
    rw [ih hws v] at hrest
    rw [layoutAfter, layoutAfter]
    cases gap w v with
    | false => exact hrest
    | true =>
      change tightenBefore p (' ' :: (v ++ layoutAfter gap v ws)) = _
      rw [tightenBefore_cons, hrest, consTight_blank, head?_append_of_ne_nil hv.ne_nil]
      cases v.head?.any p <;> rfl

theorem tightenBefore_layout (p : Char → Bool) (gap : List Char → List Char → Bool)
    (h : ∀ w ∈ ws, IsWord w) :
    tightenBefore p (layout gap ws) = layout (fun w v => gap w v && !v.head?.any p) ws := by
  cases ws with
  | nil => rfl
  | cons w ws =>
    obtain ⟨hw, hws⟩ := List.forall_mem_cons.mp h
    rw [layout, layout, tightenBefore_append hw.isSpace, tightenBefore_layoutAfter hws]

/-- What is kept of a text after `kept`, in reverse, when blanks go after characters of the
class. -/
def tightenOnto (p : Char → Bool) (kept cs : List Char) : List Char :=
  cs.foldl (fun kept c => consTight p c kept) kept

theorem tightenAfter_eq (p : Char → Bool) (cs : List Char) :
    tightenAfter p cs = (tightenOnto p [] cs).reverse := by
  rw [tightenAfter, tightenBefore, List.foldr_reverse, tightenOnto]

theorem tightenOnto_append (h : ∀ c ∈ w, Unicode.isSpace c = false) (kept cs : List Char) :
    tightenOnto p kept (w ++ cs) = tightenOnto p (w.reverse ++ kept) cs := by
  induction w generalizing kept with
  | nil => rfl
  | cons c w ih =>
    obtain ⟨hc, hw⟩ := List.forall_mem_cons.mp h
    have hkeep : consTight p c kept = c :: kept := by
      rw [consTight, hc]
      rfl
    change tightenOnto p (consTight p c kept) (w ++ cs) = _
    rw [hkeep, ih hw, List.reverse_cons, List.append_assoc, List.singleton_append]

/-- After a word that ends in the class, the blank goes. -/
theorem tightenOnto_layoutAfter (hw : IsWord w) (h : ∀ v ∈ ws, IsWord v) (kept : List Char) :
    tightenOnto p (w.reverse ++ kept) (layoutAfter gap w ws) =
      (layoutAfter (fun w v => gap w v && !w.getLast?.any p) w ws).reverse ++
        (w.reverse ++ kept) := by
  induction ws generalizing w kept with
  | nil => rfl
  | cons v ws ih =>
    obtain ⟨hv, hws⟩ := List.forall_mem_cons.mp h
    have hlast : (w.reverse ++ kept).head? = w.getLast? := by
      rw [head?_append_of_ne_nil (fun hnil => hw.ne_nil (List.reverse_eq_nil_iff.mp hnil)),
        List.head?_reverse]
    rw [layoutAfter, layoutAfter]
    cases gap w v with
    | false =>
      change tightenOnto p _ (v ++ _) = (v ++ _).reverse ++ _
      rw [tightenOnto_append hv.isSpace, ih hv hws, List.reverse_append, List.append_assoc]
    | true =>
      change tightenOnto p (consTight p ' ' (w.reverse ++ kept)) (v ++ _) = _
      rw [tightenOnto_append hv.isSpace, ih hv hws, consTight_blank, hlast, Bool.true_and]
      cases w.getLast?.any p <;> simp

theorem tightenAfter_layout (p : Char → Bool) (gap : List Char → List Char → Bool)
    (h : ∀ w ∈ ws, IsWord w) :
    tightenAfter p (layout gap ws) = layout (fun w v => gap w v && !w.getLast?.any p) ws := by
  cases ws with
  | nil => rfl
  | cons w ws =>
    obtain ⟨hw, hws⟩ := List.forall_mem_cons.mp h
    rw [tightenAfter_eq, layout, layout, tightenOnto_append hw.isSpace,
      tightenOnto_layoutAfter hw hws, List.append_nil, List.reverse_append, List.reverse_reverse,
      List.reverse_reverse]

end Text

namespace Token

open Text

variable {t u : Token} {ts us : List Token}

/-! ## Lines of canonical tokens -/

theorem IsCanonical.isWord (h : t.IsCanonical) : IsWord t.text.toList := by
  rcases h.cases with ⟨-, hne, hrun⟩ | ⟨c, hc, htext⟩
  · exact ⟨hne, fun c hc => isSpace_of_isNumberChar (hrun c hc)⟩
  · rw [htext, String.toList_singleton]
    refine ⟨List.cons_ne_nil _ _, fun c' hc' => ?_⟩
    rw [List.mem_singleton.mp hc']
    exact (Kind.class_of_symbol? hc).2

/-- The texts of the tokens. -/
def words (ts : List Token) : List (List Char) := ts.map (·.text.toList)

theorem isWord_of_mem_words (h : ∀ t ∈ ts, t.IsCanonical) : ∀ w ∈ words ts, IsWord w := by
  intro w hw
  obtain ⟨t, ht, rfl⟩ := List.mem_map.mp hw
  exact (h t ht).isWord

/-- Two words are shown with a blank between them: no bracket encloses the one, and no caret stands
at the seam. -/
def wordsApart (w v : List Char) : Bool :=
  !(w.getLast?.any fun c => c == '(' || c == '^') && !(v.head?.any fun c => c == ')' || c == '^')

/-- **The line of canonical tokens** is their texts, with blanks between those that are apart. -/
theorem toList_line (h : ∀ t ∈ ts, t.IsCanonical) :
    (line ts).toList = layout wordsApart (words ts) := by
  have hwords := isWord_of_mem_words h
  rw [line, String.toList_ofList, tighten, tightenAround, intercalate_eq_layout]
  change tightenAfter _ (tightenBefore _ (tightenBefore _ (tightenAfter _ (layout _ (words ts))))) = _
  rw [tightenAfter_layout _ _ hwords, tightenBefore_layout _ _ hwords,
    tightenBefore_layout _ _ hwords, tightenAfter_layout _ _ hwords]
  refine layout_congr (fun w v => ?_) _
  unfold wordsApart
  cases w.getLast? <;> cases v.head? <;> simp [Bool.and_assoc, Bool.and_comm, Bool.and_left_comm]

/-- A character of a canonical token is a symbol exactly if the token is that symbol. -/
theorem IsCanonical.eq_symbol_iff (h : t.IsCanonical) {c d : Char} {k : Kind}
    (hc : c ∈ t.text.toList) (hd : k.symbol? = some d) : c = d ↔ t.kind = k := by
  rcases h.cases with ⟨hkind, -, hrun⟩ | ⟨c', hc', htext⟩
  · refine iff_of_false ?_ ?_
    · rintro rfl
      exact absurd (hrun c hc) (by rw [(Kind.class_of_symbol? hd).1]; exact Bool.false_ne_true)
    · rintro rfl
      rw [Kind.symbol?_eq_none_iff.mpr hkind] at hd
      cases hd
  · rw [htext, String.toList_singleton, List.mem_singleton] at hc
    subst hc
    constructor
    · rintro rfl
      have := (Kind.ofChar?_eq_some_iff.mpr hc').symm.trans (Kind.ofChar?_eq_some_iff.mpr hd)
      exact Option.some.inj this
    · rintro rfl
      exact Option.some.inj (hc'.symm.trans hd)

/-- Two neighbours that are shown with a blank between them. -/
def apart (t u : Token) : Bool :=
  !(t.kind = .leftParen || t.kind = .power) && !(u.kind = .rightParen || u.kind = .power)

/-- Whether canonical tokens are shown apart is seen on their kinds. -/
theorem wordsApart_text (ht : t.IsCanonical) (hu : u.IsCanonical) :
    wordsApart t.text.toList u.text.toList = apart t u := by
  have hlast : t.text.toList.getLast? = some (t.text.toList.getLast ht.isWord.ne_nil) :=
    List.getLast?_eq_some_getLast _
  have hhead : u.text.toList.head? = some (u.text.toList.head hu.isWord.ne_nil) :=
    List.head?_eq_some_head _
  have hlast' := List.getLast_mem ht.isWord.ne_nil
  have hhead' := List.head_mem hu.isWord.ne_nil
  rw [wordsApart, apart, hlast, hhead, Bool.eq_iff_iff]
  simp [ht.eq_symbol_iff hlast' (k := .leftParen) rfl, ht.eq_symbol_iff hlast' (k := .power) rfl,
    hu.eq_symbol_iff hhead' (k := .rightParen) rfl, hu.eq_symbol_iff hhead' (k := .power) rfl]

/-! ## Lines and scans -/

theorem isNumberChar_of_eq_or {c d d' : Char} (hd : isNumberChar d = false)
    (hd' : isNumberChar d' = false) (h : (c == d || c == d') = true) : isNumberChar c = false := by
  rcases Bool.or_eq_true _ _ |>.mp h with h | h
  · rwa [beq_iff_eq.mp h]
  · rwa [beq_iff_eq.mp h]

/-- Where words are shown without a blank, no run goes over their seam. -/
theorem seam_of_wordsApart {w v : List Char} (h : wordsApart w v = false) : Seam w v := by
  rcases Bool.and_eq_false_iff.mp h with h | h
  · refine Or.inl fun c hc => ?_
    rw [hc, Bool.not_eq_false'] at h
    exact isNumberChar_of_eq_or (by decide) (by decide) h
  · refine Or.inr fun c hc => ?_
    rw [hc, Bool.not_eq_false'] at h
    exact isNumberChar_of_eq_or (by decide) (by decide) h

/-- Canonical tokens are scanned back from their texts, if there are blanks where runs would
meet. -/
theorem scanChars_layout {gap : List Char → List Char → Bool}
    (hgap : ∀ w v, gap w v = false → Seam w v) (h : ∀ t ∈ ts, t.IsCanonical) :
    scanChars (layout gap (words ts)) = .ok ts := by
  cases ts with
  | nil => rfl
  | cons t ts =>
    change scanChars (t.text.toList ++ layoutAfter gap t.text.toList (words ts)) = _
    induction ts generalizing t with
    | nil =>
      rw [words, List.map_nil, layoutAfter, List.append_nil]
      exact scanChars_text (h t List.mem_cons_self)
    | cons u ts ih =>
      obtain ⟨ht, hts⟩ := List.forall_mem_cons.mp h
      have hrest := ih u hts
      have hne := (hts u List.mem_cons_self).isWord.ne_nil
      change scanChars (t.text.toList ++ ((if gap _ u.text.toList then [' '] else []) ++
        (u.text.toList ++ layoutAfter gap u.text.toList (words ts)))) = _
      cases hg : gap t.text.toList u.text.toList with
      | true =>
        exact scanChars_append_ok (seam_right isNumberChar_blank _ _) (scanChars_text ht)
          (scanChars_cons_space Unicode.isSpace_blank hrest)
      | false =>
        have hseam : Seam t.text.toList
            (u.text.toList ++ layoutAfter gap u.text.toList (words ts)) := by
          refine (hgap _ _ hg).imp_right fun hu c hc => hu c ?_
          rwa [head?_append_of_ne_nil hne] at hc
        exact scanChars_append_ok hseam (scanChars_text ht) hrest

theorem scan_line_of_isCanonical (h : ∀ t ∈ ts, t.IsCanonical) : scan (line ts) = .ok ts := by
  rw [scan_eq_ok_iff, toList_line h]
  exact scanChars_layout (fun w v => seam_of_wordsApart) h

/-- A text, spaced like a line of tokens. -/
def tidy (text : String) : Except ScanError String := (scan text).map line

theorem tidy_of_scan {text : String} (h : scan text = .ok ts) : tidy text = .ok (line ts) := by
  rw [tidy, h]
  rfl

/-- **Tokens are read back from their line** exactly if they are canonical, as scanned tokens are.
So tidying a text twice is tidying it once. -/
theorem scan_line :
    (∀ ts : List Token, scan (line ts) = .ok ts ↔ ∀ t ∈ ts, t.IsCanonical) ∧
      (∀ text ts, scan text = .ok ts → (∀ t ∈ ts, t.IsCanonical) ∧ scan (line ts) = .ok ts) ∧
        ∀ text, tidy text >>= tidy = tidy text := by
  refine ⟨fun ts => ⟨isCanonical_of_scan, scan_line_of_isCanonical⟩, fun text ts h => ?_,
    fun text => ?_⟩
  · have hts := isCanonical_of_scan h
    exact ⟨hts, scan_line_of_isCanonical hts⟩
  · cases h : scan text with
    | error e =>
      have herror : tidy text = .error e := by
        rw [tidy, h]
        rfl
      rw [herror]
      rfl
    | ok ts =>
      rw [tidy_of_scan h]
      simp only [bind, Except.bind]
      exact tidy_of_scan (scan_line_of_isCanonical (isCanonical_of_scan h))

/-- Neighbouring numbers stay two, whatever they are made of. -/
theorem scan_line_numbers :
    let ts : List Token := [⟨.number, "1."⟩, ⟨.number, "..2"⟩, ⟨.power, "^"⟩, ⟨.leftParen, "("⟩,
      ⟨.number, "3"⟩]
    scan " 1. ..2 ^(3" = .ok ts ∧ (line ts).toList = "1. ..2^(3".toList ∧
      scan (line ts) = .ok ts := by
  intro ts
  have hts : scan " 1. ..2 ^(3" = .ok ts := rfl
  exact ⟨hts, rfl, (scan_line.2.1 _ ts hts).2⟩

end Token

end Reckoner
