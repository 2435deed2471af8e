import Mathlib.Data.List.DropRight
import Mathlib.Logic.Relation
import Reckoner.Proofs.Token.Lexemes

/-!
# Texts that are put together

Where no run of number characters goes over the seam, the scan of two texts is that of the one and
then of the other. Where a run does, the last number of the one and the first of the other are one
number. A stray character is found either way, as much further on as there are characters before its
text.

So white space may be put in and taken out wherever no run goes over the place (`Respaced`), and
that is all that a scan forgets of a text.

* `scanChars_append_of_not_seam`: the number that goes over a seam.
* `Spaced.scanned_eq`, `Respaced.scanned_eq`: one change of the spacing, and any number of them.
* **`respaced_lexemes`**: every text is respaced from its tokens with blanks between them.
* **`scan_append`**: all of it, for two texts.
-/

namespace Reckoner

namespace Token

variable {a b w cs ds es : List Char} {ts us : List Token} {s t : String}

/-! ## Stray characters keep their place -/

/-- What follows a stray character does not matter. -/
theorem scan_append_of_error {e : ScanError} (h : scan s = .error e) (t : String) :
    scan (s ++ t) = .error ⟨s ++ t, e.stray⟩ := by
  obtain ⟨-, hget, hstray, hbefore⟩ := scan_eq_error_iff.mp h
  obtain ⟨hlt, -⟩ := List.getElem?_eq_some_iff.mp hget
  refine scan_eq_error_iff.mpr ⟨rfl, ?_, hstray, ?_⟩
  · rw [String.toList_append, List.getElem?_append_left hlt, hget]
  · rwa [String.toList_append, List.take_append_of_le_length (Nat.le_of_lt hlt)]

theorem scan_append_of_ok_of_error {e : ScanError} (hs : scan s = .ok ts) (ht : scan t = .error e) :
    scan (s ++ t) = .error ⟨s ++ t, e.stray.further s.length⟩ := by
  obtain ⟨-, hget, hstray, hbefore⟩ := scan_eq_error_iff.mp ht
  have hindex : (e.stray.further s.length).index = s.toList.length + e.stray.index := by
    rw [String.length_toList]
    rfl
  refine scan_eq_error_iff.mpr ⟨rfl, ?_, hstray, ?_⟩
  · rw [hindex, String.toList_append, List.getElem?_append_right (Nat.le_add_right _ _),
      Nat.add_sub_cancel_left, hget]
    rfl
  · rw [hindex, String.toList_append, List.take_length_add_append]
    exact List.forall_mem_append.mpr ⟨isLegal_of_scan hs, hbefore⟩

/-! ## Runs that go over a seam -/

theorem scanChars_append_eq_ok (h : Seam a b) (hscan : scanChars (a ++ b) = .ok ts) :
    ∃ us vs, scanChars a = .ok us ∧ scanChars b = .ok vs ∧ ts = us ++ vs := by
  rw [scanChars_append h] at hscan
  cases ha : scanChars a with
  | error e => simp [ha] at hscan
  | ok us =>
    cases hb : scanChars b with
    | error e => simp [ha, hb, further] at hscan
    | ok vs =>
      simp only [ha, hb, further, Except.ok.injEq] at hscan
      exact ⟨us, vs, rfl, rfl, hscan.symm⟩

/-- A text that ends in a number character is scanned as what comes before its last run, and that
run as a number. -/
theorem exists_last_number (hlast : ∃ c ∈ a.getLast?, isNumberChar c = true)
    (hscan : scanChars a = .ok ts) :
    ∃ front x before, a = front ++ x.toList ∧ IsCanonical ⟨.number, x⟩ ∧
      (∀ c ∈ front.getLast?, isNumberChar c = false) ∧ scanChars front = .ok before ∧
        ts = before ++ [⟨.number, x⟩] := by
  let x := String.ofList (a.rtakeWhile isNumberChar)
  have hx : x.toList = a.rtakeWhile isNumberChar := String.toList_ofList
  have hsplit : a.rdropWhile isNumberChar ++ x.toList = a := by
    rw [hx, List.rdropWhile_append_rtakeWhile]
  have hcanonical : IsCanonical ⟨.number, x⟩ := by
    refine isCanonical_number ?_ fun c hc => List.mem_rtakeWhile_imp hc
    obtain ⟨c, hc, hnumber⟩ := hlast
    obtain ⟨init, rfl⟩ := List.getLast?_eq_some_iff.mp hc
    simp [List.rtakeWhile_concat_pos, hnumber]
  have hfront : ∀ c ∈ (a.rdropWhile isNumberChar).getLast?, isNumberChar c = false := by
    intro c hc
    have hne : a.rdropWhile isNumberChar ≠ [] := fun hnil => by simp [hnil] at hc
    rw [List.getLast?_eq_some_getLast hne, Option.mem_some_iff] at hc
    rw [← hc]
    exact Bool.eq_false_iff.mpr (List.rdropWhile_last_not _ _ hne)
  rw [← hsplit] at hscan
  obtain ⟨before, vs, hbefore, hvs, rfl⟩ := scanChars_append_eq_ok (Or.inl hfront) hscan
  rw [scanChars_text hcanonical] at hvs
  cases hvs
  exact ⟨_, x, before, hsplit.symm, hcanonical, hfront, hbefore, rfl⟩

/-- A text that starts with a number character is scanned as its first run, a number, and what comes
after. -/
theorem exists_first_number (hhead : ∃ c ∈ b.head?, isNumberChar c = true)
    (hscan : scanChars b = .ok ts) :
    ∃ y rest after, b = y.toList ++ rest ∧ IsCanonical ⟨.number, y⟩ ∧
      (∀ c ∈ rest.head?, isNumberChar c = false) ∧ scanChars rest = .ok after ∧
        ts = ⟨.number, y⟩ :: after := by
  let y := String.ofList (b.takeWhile isNumberChar)
  have hy : y.toList = b.takeWhile isNumberChar := String.toList_ofList
  have hsplit : y.toList ++ b.dropWhile isNumberChar = b := by
    rw [hy, List.takeWhile_append_dropWhile]
  have hcanonical : IsCanonical ⟨.number, y⟩ := by
    refine isCanonical_number ?_ fun c hc => List.mem_takeWhile_imp hc
    obtain ⟨c, hc, hnumber⟩ := hhead
    obtain ⟨tail, rfl⟩ := List.head?_eq_some_iff.mp hc
    simp [hnumber]
  have hrest : ∀ c ∈ (b.dropWhile isNumberChar).head?, isNumberChar c = false := by
    intro c hc
    have := List.head?_dropWhile_not isNumberChar b
    rwa [hc] at this
  rw [← hsplit] at hscan
  obtain ⟨us, after, hus, hafter, rfl⟩ := scanChars_append_eq_ok (Or.inr hrest) hscan
  rw [scanChars_text hcanonical] at hus
  cases hus
  exact ⟨y, _, after, hsplit.symm, hcanonical, hrest, hafter, rfl⟩

theorem IsCanonical.join {x y : String} (hx : IsCanonical ⟨.number, x⟩)
    (hy : IsCanonical ⟨.number, y⟩) : IsCanonical ⟨.number, x ++ y⟩ := by
  refine ⟨?_, ?_⟩
  · simp [hx.1]
  · rw [String.toList_append]
    exact List.forall_mem_append.mpr ⟨hx.2, hy.2⟩

/-- A run goes over the seam exactly if there are number characters on both sides. -/
theorem not_seam_iff :
    ¬Seam a b ↔
      (∃ c ∈ a.getLast?, isNumberChar c = true) ∧ ∃ c ∈ b.head?, isNumberChar c = true := by
  simp [Seam]

/-- **A run that goes over the seam** is one number. -/
theorem scanChars_append_of_not_seam (h : ¬Seam a b) (ha : scanChars a = .ok ts)
    (hb : scanChars b = .ok us) :
    ∃ before x y after, ts = before ++ [⟨.number, x⟩] ∧ us = ⟨.number, y⟩ :: after ∧
      scanChars (a ++ b) = .ok (before ++ ⟨.number, x ++ y⟩ :: after) := by
  obtain ⟨hlast, hhead⟩ := not_seam_iff.mp h
  obtain ⟨front, x, before, rfl, hx, hfront, hbefore, rfl⟩ := exists_last_number hlast ha
  obtain ⟨y, rest, after, rfl, hy, hrest, hafter, rfl⟩ := exists_first_number hhead hb
  refine ⟨before, x, y, after, rfl, rfl, ?_⟩
  have hjoined : scanChars ((x ++ y).toList ++ rest) = .ok ([⟨.number, x ++ y⟩] ++ after) :=
    scanChars_append_ok (Or.inr hrest) (scanChars_text (hx.join hy)) hafter
  have hall := scanChars_append_ok (Or.inl hfront) hbefore hjoined
  rwa [String.toList_append, List.append_assoc, ← List.append_assoc front] at hall

/-! ## White space -/

/-- White space is put into a text, at a place where no run of number characters goes over. -/
inductive Spaced : List Char → List Char → Prop
  | insert {a b w : List Char} (hseam : Seam a b) (hspace : ∀ c ∈ w, Unicode.isSpace c = true) :
    Spaced (a ++ b) (a ++ w ++ b)

/-- White space is put in and taken out at such places, any number of times. -/
def Respaced : List Char → List Char → Prop := Relation.EqvGen Spaced

theorem Spaced.respaced (h : Spaced cs ds) : Respaced cs ds := .rel _ _ h

theorem Respaced.refl (cs : List Char) : Respaced cs cs := Relation.EqvGen.refl cs

theorem Respaced.symm (h : Respaced cs ds) : Respaced ds cs := Relation.EqvGen.symm _ _ h

theorem Respaced.trans (h : Respaced cs ds) (h' : Respaced ds es) : Respaced cs es :=
  Relation.EqvGen.trans _ _ _ h h'

/-- The tokens of a text, or its first stray character, wherever that stands. -/
def scanned (cs : List Char) : Except Char (List Token) := (scanChars cs).mapError Stray.char

theorem scanned_eq_ok_iff : scanned s.toList = .ok ts ↔ scan s = .ok ts := by
  rw [scan_eq_ok_iff, scanned]
  cases scanChars s.toList with
  | error e => exact iff_of_false (fun h => by cases h) (fun h => by cases h)
  | ok us =>
    constructor <;>
    · intro h
      cases h
      rfl

theorem scanned_append (h : Seam a b) :
    scanned (a ++ b) = (scanned a).bind fun ts => (scanned b).map (ts ++ ·) := by
  unfold scanned
  rw [scanChars_append h]
  cases scanChars a with
  | error e => rfl
  | ok ts =>
    cases scanChars b with
    | error e => rfl
    | ok us => rfl

/-- White space behind a text is not seen. -/
theorem scanned_append_space (h : ∀ c ∈ w, Unicode.isSpace c = true) (a : List Char) :
    scanned (a ++ w) = scanned a := by
  cases w with
  | nil => rw [List.append_nil]
  | cons c w =>
    have hseam := seam_right (class_of_isSpace (h c List.mem_cons_self)).1 a w
    have hspace : scanned (c :: w) = .ok [] := by
      unfold scanned
      rw [scanChars_of_isSpace h]
      rfl
    rw [scanned_append hseam, hspace]
    cases scanned a with
    | error c => rfl
    | ok ts => exact congrArg Except.ok ts.append_nil

/-- No run goes over white space. -/
theorem Seam.append_space (h : Seam a b) (hspace : ∀ c ∈ w, Unicode.isSpace c = true) :
    Seam (a ++ w) b := by
  by_cases hw : w = []
  · rwa [hw, List.append_nil]
  · refine Or.inl fun c hc => ?_
    rw [List.getLast?_append_of_ne_nil _ hw] at hc
    exact (class_of_isSpace (hspace c (List.mem_of_getLast? hc))).1

/-- **A change of the spacing** keeps the tokens. -/
theorem Spaced.scanned_eq (h : Spaced cs ds) : scanned cs = scanned ds := by
  obtain ⟨hseam, hspace⟩ := h
  rw [scanned_append (hseam.append_space hspace), scanned_append_space hspace, scanned_append hseam]

/-- **Changes of the spacing** keep the tokens. -/
theorem Respaced.scanned_eq (h : Respaced cs ds) : scanned cs = scanned ds := by
  induction h with
  | rel cs ds h => exact h.scanned_eq
  | refl cs => rfl
  | symm cs ds _ ih => exact ih.symm
  | trans cs ds es _ _ ih₁ ih₂ => exact ih₁.trans ih₂

/-! ## What a scan forgets -/

/-- Behind a character that ends every run, a text is respaced as it is by itself. -/
theorem Spaced.prepend (hw : ∀ c ∈ w.getLast?, isNumberChar c = false) (h : Spaced cs ds) :
    Spaced (w ++ cs) (w ++ ds) := by
  obtain @⟨a, b, v, hseam, hspace⟩ := h
  have hseam : Seam (w ++ a) b := by
    refine hseam.imp_left fun ha c hc => ?_
    rw [List.getLast?_append, Option.mem_def, Option.or_eq_some_iff] at hc
    rcases hc with hc | ⟨-, hc⟩
    · exact ha c hc
    · exact hw c hc
  simpa only [List.append_assoc] using Spaced.insert hseam hspace

theorem Respaced.prepend (hw : ∀ c ∈ w.getLast?, isNumberChar c = false) (h : Respaced cs ds) :
    Respaced (w ++ cs) (w ++ ds) := by
  induction h with
  | rel cs ds h => exact (h.prepend hw).respaced
  | refl cs => exact .refl _
  | symm cs ds _ ih => exact ih.symm
  | trans cs ds es _ _ ih₁ ih₂ => exact ih₁.trans ih₂

/-- White space behind a text is taken out. -/
theorem respaced_append_space (h : ∀ c ∈ w, Unicode.isSpace c = true) (cs : List Char) :
    Respaced (cs ++ w) cs := by
  have hseam : Seam cs [] := Or.inr fun c hc => by cases hc
  have hinsert := Spaced.insert hseam h
  rw [List.append_nil, List.append_nil] at hinsert
  exact hinsert.respaced.symm

/-- Behind a blank, what follows starts afresh: the blank is put in first, and then the rest is
respaced. -/
theorem Respaced.apart (hseam : Seam a cs) (h : Respaced cs ds) :
    Respaced (a ++ cs) (a ++ [' '] ++ ds) := by
  have hblank : ∀ c ∈ [' '], Unicode.isSpace c = true :=
    List.forall_mem_singleton.mpr Unicode.isSpace_blank
  have hends : ∀ c ∈ (a ++ [' ']).getLast?, isNumberChar c = false := by
    intro c hc
    rw [List.getLast?_concat, Option.mem_some_iff] at hc
    rw [← hc]
    exact isNumberChar_blank
  exact (Spaced.insert hseam hblank).respaced.trans (h.prepend hends)

/-- **A text is respaced from its tokens** with a blank between any two of them. -/
theorem respaced_lexemes (h : ∀ c ∈ cs, isLegal c = true) :
    Respaced cs ([' '].intercalate (words (lexemes cs))) := by
  refine legal_induction ?_ (fun c cs hc ih => ?_) (fun t cs ht hseam ih => ?_) cs h
  · exact .refl _
  · have hnil : Seam [] cs := Or.inl fun c hc => by cases hc
    have hinsert : Spaced cs (c :: cs) := .insert hnil (List.forall_mem_singleton.mpr hc)
    have hlexemes : lexemes (c :: cs) = lexemes cs := by
      rw [← List.singleton_append, lexemes_append (seam_left (class_of_isSpace hc).1 cs),
        lexemes_space hc, List.nil_append]
    rw [hlexemes]
    exact hinsert.respaced.symm.trans ih
  · have hapart := ih.apart hseam
    rw [lexemes_append hseam, lexemes_text ht]
    cases hrest : lexemes cs with
    | nil =>
      -- Nothing follows the token, so the blank that was put in goes again.
      have hblank := respaced_append_space (List.forall_mem_singleton.mpr Unicode.isSpace_blank)
        t.text.toList
      have hempty : [' '].intercalate (words []) = [] := rfl
      rw [hrest, hempty, List.append_nil] at hapart
      simpa [words] using hapart.trans hblank
    | cons u us =>
      rw [hrest] at hapart
      simpa [words] using hapart

/-- A text has the same tokens exactly if it is respaced. -/
theorem scan_eq_ok_iff_respaced (h : scan s = .ok ts) :
    scan t = .ok ts ↔ Respaced s.toList t.toList := by
  constructor
  · intro ht
    have hs := respaced_lexemes (isLegal_of_scan h)
    have ht' := respaced_lexemes (isLegal_of_scan ht)
    rw [lexemes_of_scan h] at hs
    rw [lexemes_of_scan ht] at ht'
    exact hs.trans ht'.symm
  · intro hrespaced
    rw [← scanned_eq_ok_iff, ← hrespaced.scanned_eq, scanned_eq_ok_iff, h]

/-- **Two texts that are put together.** If the first has a stray character, so have both together,
the same one at the same index; if only the second has, it is found as much further on as the first
is long. If both are scanned and no run of number characters goes over their seam, the tokens are
those of the one and then those of the other. If a run does, the last token of the one and the first
of the other are numbers, and these two become one. So what has the tokens of a text is that text
with white space put in and taken out, anywhere but where a run goes over the place, and nothing
else. -/
theorem scan_append (s t : String) :
    (∀ e, scan s = .error e → scan (s ++ t) = .error ⟨s ++ t, e.stray⟩) ∧
      (∀ ts e, scan s = .ok ts → scan t = .error e →
        scan (s ++ t) = .error ⟨s ++ t, e.stray.char, s.length + e.stray.index⟩) ∧
      (Seam s.toList t.toList → ∀ ts us, scan s = .ok ts → scan t = .ok us →
        scan (s ++ t) = .ok (ts ++ us)) ∧
      (¬Seam s.toList t.toList → ∀ ts us, scan s = .ok ts → scan t = .ok us →
        ∃ before x y after, ts = before ++ [⟨.number, x⟩] ∧ us = ⟨.number, y⟩ :: after ∧
          scan (s ++ t) = .ok (before ++ ⟨.number, x ++ y⟩ :: after)) ∧
      ∀ ts, scan s = .ok ts → (scan t = .ok ts ↔ Respaced s.toList t.toList) := by
  refine ⟨fun e he => scan_append_of_error he t, fun ts e => scan_append_of_ok_of_error,
    fun hseam ts us hs ht => ?_, fun hseam ts us hs ht => ?_, fun ts => scan_eq_ok_iff_respaced⟩
  · rw [scan_eq_ok_iff] at hs ht ⊢
    rw [String.toList_append]
    exact scanChars_append_ok hseam hs ht
  · simp only [scan_eq_ok_iff, String.toList_append] at hs ht ⊢
    exact scanChars_append_of_not_seam hseam hs ht

/-- In `2^1` and `.5 +` the run `1.5` goes over the seam. -/
theorem scan_append_point :
    ¬Seam "2^1".toList ".5 +".toList ∧
      scan "2^1" = .ok [⟨.number, "2"⟩, ⟨.power, "^"⟩, ⟨.number, "1"⟩] ∧
      scan ".5 +" = .ok [⟨.number, ".5"⟩, ⟨.plus, "+"⟩] ∧
      scan ("2^1" ++ ".5 +") =
        .ok [⟨.number, "2"⟩, ⟨.power, "^"⟩, ⟨.number, "1.5"⟩, ⟨.plus, "+"⟩] := by
  have hseam : ¬Seam "2^1".toList ".5 +".toList :=
    not_seam_iff.mpr ⟨⟨'1', rfl, by decide⟩, ⟨'.', rfl, by decide⟩⟩
  have hs : scan "2^1" = .ok [⟨.number, "2"⟩, ⟨.power, "^"⟩, ⟨.number, "1"⟩] := rfl
  have ht : scan ".5 +" = .ok [⟨.number, ".5"⟩, ⟨.plus, "+"⟩] := rfl
  obtain ⟨before, x, y, after, hts, hus, hjoined⟩ :=
    (scan_append "2^1" ".5 +").2.2.2.1 hseam _ _ hs ht
  obtain ⟨rfl, hx⟩ : [⟨.number, "2"⟩, ⟨.power, "^"⟩] = before ∧
      [(⟨.number, "1"⟩ : Token)] = [⟨.number, x⟩] := List.append_inj' hts rfl
  cases hx
  cases hus
  exact ⟨hseam, hs, ht, hjoined⟩

end Token

end Reckoner
