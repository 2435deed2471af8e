import Mathlib.Data.List.SplitBy
import Mathlib.Data.List.TakeWhile
import Reckoner.Proofs.Token.Kept

/-!
# The tokens of a text, each in its place

A token stands at an index of a text when its text does and is a symbol or a maximal run of number
characters: `StandsAt`. What stands in two texts with a seam between them stands in the one or in
the other (`standsAt_append`), just as the tokens of the two are the tokens of the one and of the
other. So along the text, the tokens of the scan are all that stands there (`exists_lexing`).

* **`legal_induction`**: a text of legal characters starts with white space or with a token.
* `scan_eq_error_iff`: a scan fails at the first character that is not legal.
* **`scan_by_runs`**: which tokens a text has, and where, or where it has none.
-/

namespace Reckoner

namespace Token

variable {a b cs : List Char} {c : Char} {i j : Nat} {t u : Token} {text : String}

/-! ## Texts in parts -/

/-- Canonical tokens are known by their texts. -/
theorem IsCanonical.eq_of_text_eq (ht : t.IsCanonical) (hu : u.IsCanonical) (h : t.text = u.text) :
    t = u := by
  have hscan := scanChars_text ht
  rw [h, scanChars_text hu] at hscan
  cases hscan
  rfl

theorem isLegal_iff :
    isLegal c = true ↔
      isNumberChar c = true ∨ (∃ k, Kind.ofChar? c = some k) ∨ Unicode.isSpace c = true := by
  rw [isLegal, Bool.or_eq_true, Bool.or_eq_true, Option.isSome_iff_exists, or_assoc]

/-- **Induction on legal texts**, by the white space or the token that they start with. -/
@[elab_as_elim]
theorem legal_induction {P : List Char → Prop} (nil : P [])
    (space : ∀ c cs, Unicode.isSpace c = true → P cs → P (c :: cs))
    (token : ∀ (t : Token) (cs : List Char), t.IsCanonical → Seam t.text.toList cs → P cs →
      P (t.text.toList ++ cs)) (cs : List Char) (h : ∀ c ∈ cs, isLegal c = true) : P cs := by
  induction hn : cs.length using Nat.strongRecOn generalizing cs with
  | ind n ih =>
    cases cs with
    | nil => exact nil
    | cons c cs =>
      obtain ⟨hc, hcs⟩ := List.forall_mem_cons.mp h
      have hlt : cs.length < n := hn ▸ Nat.lt_succ_self _
      rcases isLegal_iff.mp hc with hnumber | ⟨k, hk⟩ | hspace
      · -- The first token is the whole run that starts here.
        let t : Token := ⟨.number, String.ofList (c :: cs.takeWhile isNumberChar)⟩
        have htext : t.text.toList = c :: cs.takeWhile isNumberChar := String.toList_ofList
        have ht : t.IsCanonical := isCanonical_number (List.cons_ne_nil _ _)
          (List.forall_mem_cons.mpr ⟨hnumber, fun d hd => List.mem_takeWhile_imp hd⟩)
        have hseam : Seam t.text.toList (cs.dropWhile isNumberChar) := by
          refine Or.inr fun d hd => ?_
          have := List.head?_dropWhile_not isNumberChar cs
          rwa [hd] at this
        have hrest := ih _ (Nat.lt_of_le_of_lt (List.length_dropWhile_le _ _) hlt)
          (cs.dropWhile isNumberChar) (fun d hd => hcs d ((List.dropWhile_sublist _).subset hd)) rfl
        have := token t _ ht hseam hrest
        rwa [htext, List.cons_append, List.takeWhile_append_dropWhile] at this
      · have hrest := ih _ hlt cs hcs rfl
        have hseam := seam_left (isNumberChar_of_ofChar? hk) cs
        have := token ⟨k, String.singleton c⟩ cs (isCanonical_symbol hk)
        rw [String.toList_singleton] at this
        exact this hseam hrest
      · exact space c cs hspace (ih _ hlt cs hcs rfl)

/-! ## The pieces of a text -/

theorem pieces_append (h : Seam a b) : pieces (a ++ b) = pieces a ++ pieces b := by
  refine List.splitBy_append fun c hc d hd => ?_
  rcases h with h | h
  · rw [h c hc, Bool.false_and]
  · rw [h d hd, Bool.and_false]

/-- **The lexemes of a text with a seam** are those of its two parts. -/
theorem lexemes_append (h : Seam a b) : lexemes (a ++ b) = lexemes a ++ lexemes b := by
  rw [lexemes, pieces_append h, List.filterMap_append]
  rfl

theorem lexemes_space (h : Unicode.isSpace c = true) : lexemes [c] = [] := by
  obtain ⟨hn, hk⟩ := class_of_isSpace h
  change [[c]].filterMap ofPiece? = []
  simp [ofPiece?, hn, hk]

/-- The text of a canonical token is one piece, which is that token. -/
theorem lexemes_text (h : t.IsCanonical) : lexemes t.text.toList = [t] := by
  obtain ⟨kind, text⟩ := t
  rcases h.cases with ⟨hkind, hne, hrun⟩ | ⟨c, hc, htext⟩
  · have hkind : kind = .number := hkind
    have hpieces : pieces text.toList = [text.toList] := by
      refine List.splitBy_of_isChain hne (List.Pairwise.isChain ?_)
      refine List.pairwise_of_forall_mem_list fun c hc d hd => ?_
      rw [hrun c hc, hrun d hd]
      rfl
    obtain ⟨c, cs, hcs⟩ := List.exists_cons_of_ne_nil hne
    have hc : isNumberChar c = true := hrun c (by rw [hcs]; exact List.mem_cons_self)
    have hpiece : ofPiece? text.toList = some ⟨kind, text⟩ := by
      rw [hcs, ofPiece?, if_pos hc, ← hcs, String.ofList_toList, hkind]
    rw [lexemes, hpieces, List.filterMap_cons_some hpiece, List.filterMap_nil]
  · have htext : text = String.singleton c := htext
    have hk := Kind.ofChar?_eq_some_iff.mpr hc
    rw [htext, String.toList_singleton]
    change [[c]].filterMap ofPiece? = _
    simp [ofPiece?, isNumberChar_of_ofChar? hk, hk]

/-! ## What stands in a text -/

/-- The token stands at that index of the text: its text does, which for a number is not part of a
longer run. -/
def StandsAt (cs : List Char) (i : Nat) (t : Token) : Prop :=
  t.IsCanonical ∧ ∃ before after, cs = before ++ t.text.toList ++ after ∧ before.length = i ∧
    (t.kind = .number → (∀ c ∈ before.getLast?, isNumberChar c = false) ∧
      ∀ c ∈ after.head?, isNumberChar c = false)

theorem IsCanonical.length_pos (h : t.IsCanonical) : 0 < t.text.length := by
  rw [← String.length_toList]
  exact List.length_pos_iff.mpr h.isWord.ne_nil

theorem StandsAt.add_length_le (h : StandsAt cs i t) : i + t.text.length ≤ cs.length := by
  obtain ⟨-, before, after, rfl, rfl, -⟩ := h
  rw [List.length_append, List.length_append, String.length_toList]
  exact Nat.le_add_right _ _

/-- A token with a number character in its text is a number. -/
theorem IsCanonical.kind_eq_number (h : t.IsCanonical) (hc : c ∈ t.text.toList)
    (hnumber : isNumberChar c = true) : t.kind = .number := by
  rcases h.cases with ⟨hkind, -⟩ | ⟨d, hd, htext⟩
  · exact hkind
  · rw [htext, String.toList_singleton, List.mem_singleton] at hc
    rw [hc, (Kind.class_of_symbol? hd).1] at hnumber
    cases hnumber

/-- The characters of a number are number characters. -/
theorem IsCanonical.isNumberChar_of_mem (h : t.IsCanonical) (hk : t.kind = .number)
    (hc : c ∈ t.text.toList) : isNumberChar c = true := by
  rcases h.cases with ⟨-, -, hrun⟩ | ⟨d, hd, -⟩
  · exact hrun c hc
  · rw [hk] at hd
    cases hd

/-- A number starts with a number character. -/
theorem StandsAt.isNumberChar_getElem (h : StandsAt cs i t) (hk : t.kind = .number) :
    ∃ c, cs[i]? = some c ∧ isNumberChar c = true := by
  obtain ⟨ht, before, after, rfl, rfl, -⟩ := h
  have hne := ht.isWord.ne_nil
  refine ⟨_, ?_, ht.isNumberChar_of_mem hk (List.head_mem hne)⟩
  rw [List.append_assoc, List.getElem?_append_right (Nat.le_refl _), Nat.sub_self,
    ← List.head?_eq_getElem?, List.head?_append, List.head?_eq_some_head hne, Option.some_or]

/-- No number character follows a number. -/
theorem StandsAt.isNumberChar_after (h : StandsAt cs i t) (hk : t.kind = .number) :
    ∀ c ∈ cs[i + t.text.length]?, isNumberChar c = false := by
  obtain ⟨-, before, after, rfl, rfl, hmaximal⟩ := h
  have hlength : (before ++ t.text.toList).length = before.length + t.text.length := by
    rw [List.length_append, String.length_toList]
  rw [← hlength, List.getElem?_append_right (Nat.le_refl _), Nat.sub_self, ← List.head?_eq_getElem?]
  exact (hmaximal hk).2

/-- A text of one character is all that a token with characters of that text can be. -/
theorem IsCanonical.eq_nil_of_symbol {before after : List Char} (hu : u.IsCanonical)
    (h : [c] = before ++ u.text.toList ++ after) : before = [] ∧ after = [] := by
  have hlength := congrArg List.length h
  have hpos := hu.length_pos
  rw [List.length_append, List.length_append, String.length_toList,
    List.length_singleton] at hlength
  exact ⟨List.length_eq_zero_iff.mp (by omega), List.length_eq_zero_iff.mp (by omega)⟩

/-- In the text of a token stands that token. -/
theorem standsAt_text (h : t.IsCanonical) : StandsAt t.text.toList i u ↔ i = 0 ∧ u = t := by
  constructor
  · rintro ⟨hu, before, after, htext, rfl, hmaximal⟩
    have hends : before = [] ∧ after = [] := by
      rcases h.cases with ⟨-, -, hrun⟩ | ⟨c, -, hsymbol⟩
      · have hmem : ∀ c ∈ before ++ u.text.toList ++ after, isNumberChar c = true := by
          rwa [← htext]
        simp only [List.mem_append] at hmem
        obtain ⟨d, hd⟩ := List.exists_mem_of_ne_nil _ hu.isWord.ne_nil
        obtain ⟨hbefore, hafter⟩ := hmaximal
          (hu.kind_eq_number hd (hmem d (Or.inl (Or.inr hd))))
        constructor
        · refine List.getLast?_eq_none_iff.mp (Option.eq_none_iff_forall_not_mem.mpr fun c hc => ?_)
          have := hmem c (Or.inl (Or.inl (List.mem_of_getLast? hc)))
          rw [hbefore c hc] at this
          cases this
        · refine List.head?_eq_none_iff.mp (Option.eq_none_iff_forall_not_mem.mpr fun c hc => ?_)
          have := hmem c (Or.inr (List.mem_of_head? hc))
          rw [hafter c hc] at this
          cases this
      · rw [hsymbol, String.toList_singleton] at htext
        exact hu.eq_nil_of_symbol htext
    obtain ⟨rfl, rfl⟩ := hends
    rw [List.nil_append, List.append_nil] at htext
    exact ⟨rfl, hu.eq_of_text_eq h (String.toList_injective htext.symm)⟩
  · rintro ⟨rfl, rfl⟩
    refine ⟨h, [], [], by simp, rfl, fun _ => ⟨?_, ?_⟩⟩ <;> intro c hc <;> cases hc

/-- Nothing stands in white space. -/
theorem not_standsAt_space (h : Unicode.isSpace c = true) : ¬StandsAt [c] i t := by
  rintro ⟨ht, before, after, htext, -, -⟩
  obtain ⟨d, hd⟩ := List.exists_mem_of_ne_nil _ ht.isWord.ne_nil
  have hmem : d ∈ [c] := by
    rw [htext]
    exact List.mem_append_left _ (List.mem_append_right _ hd)
  have hspace := ht.isWord.isSpace d hd
  rw [List.mem_singleton.mp hmem, h] at hspace
  cases hspace

/-- A run that reaches the seam ends there. -/
theorem Seam.after_number (h : Seam a b) (hc : c ∈ a.getLast?) (hnumber : isNumberChar c = true) :
    ∀ d ∈ b.head?, isNumberChar d = false := by
  refine h.resolve_left fun hlast => ?_
  cases (hlast c hc).symm.trans hnumber

/-- A run that starts at the seam is not continued before it. -/
theorem Seam.before_number (h : Seam a b) (hc : c ∈ b.head?) (hnumber : isNumberChar c = true) :
    ∀ d ∈ a.getLast?, isNumberChar d = false := by
  refine h.resolve_right fun hhead => ?_
  cases (hhead c hc).symm.trans hnumber

theorem StandsAt.append_right (hs : StandsAt a i t) (h : Seam a b) : StandsAt (a ++ b) i t := by
  obtain ⟨ht, before, after, rfl, rfl, hmaximal⟩ := hs
  refine ⟨ht, before, after ++ b, by simp, rfl, fun hk => ⟨(hmaximal hk).1, fun c hc => ?_⟩⟩
  cases after with
  | cons d after => exact (hmaximal hk).2 c hc
  | nil =>
    have hlast := List.getLast?_eq_some_getLast ht.isWord.ne_nil
    refine h.after_number (c := t.text.toList.getLast ht.isWord.ne_nil) ?_
      (ht.isNumberChar_of_mem hk (List.getLast_mem _)) c hc
    rw [List.append_nil, List.getLast?_append, hlast]
    rfl

theorem StandsAt.append_left (hs : StandsAt b i t) (h : Seam a b) :
    StandsAt (a ++ b) (a.length + i) t := by
  obtain ⟨ht, before, after, rfl, rfl, hmaximal⟩ := hs
  refine ⟨ht, a ++ before, after, by simp, List.length_append, fun hk =>
    ⟨fun c hc => ?_, (hmaximal hk).2⟩⟩
  rw [List.getLast?_append] at hc
  cases hlast : before.getLast? with
  | some d =>
    rw [hlast] at hc
    exact (hmaximal hk).1 c (hlast ▸ hc)
  | none =>
    rw [hlast] at hc
    obtain rfl := List.getLast?_eq_none_iff.mp hlast
    have hhead := List.head?_eq_some_head ht.isWord.ne_nil
    refine h.before_number (c := t.text.toList.head ht.isWord.ne_nil) ?_
      (ht.isNumberChar_of_mem hk (List.head_mem _)) c hc
    rw [List.nil_append, List.head?_append, hhead]
    rfl

/-- No token reaches over a seam. -/
theorem Seam.not_inside {before after x y : List Char} (h : Seam (before ++ x) (y ++ after))
    (ht : t.IsCanonical) (htext : t.text.toList = x ++ y) : x = [] ∨ y = [] := by
  by_contra hne
  obtain ⟨hx, hy⟩ := not_or.mp hne
  rcases ht.cases with ⟨-, -, hrun⟩ | ⟨c, -, hsymbol⟩
  · rw [htext] at hrun
    have hlast : x.getLast hx ∈ (before ++ x).getLast? := by
      rw [List.getLast?_append, List.getLast?_eq_some_getLast hx]
      rfl
    have hhead : y.head hy ∈ (y ++ after).head? := by
      rw [List.head?_append, List.head?_eq_some_head hy]
      rfl
    have hnumber := hrun _ (List.mem_append_left y (List.getLast_mem hx))
    have hnext := hrun _ (List.mem_append_right x (List.head_mem hy))
    cases hnext.symm.trans (h.after_number hlast hnumber _ hhead)
  · have hlength := congrArg List.length htext
    rw [hsymbol, String.toList_singleton, List.length_append, List.length_singleton] at hlength
    have := List.length_pos_iff.mpr hx
    have := List.length_pos_iff.mpr hy
    omega

/-- **What stands in a text with a seam** stands in one of its two parts. -/
theorem standsAt_append (h : Seam a b) :
    StandsAt (a ++ b) i t ↔ StandsAt a i t ∨ ∃ j, i = a.length + j ∧ StandsAt b j t := by
  constructor
  · rintro ⟨ht, before, after, htext, rfl, hmaximal⟩
    rw [List.append_assoc] at htext
    rcases List.append_eq_append_iff.mp htext with ⟨x, rfl, rfl⟩ | ⟨x, rfl, hx⟩
    · refine Or.inr ⟨x.length, List.length_append, ht, x, after, (List.append_assoc ..).symm, rfl,
        fun hk => ⟨fun c hc => (hmaximal hk).1 c ?_, (hmaximal hk).2⟩⟩
      rw [List.getLast?_append, hc]
      rfl
    · rcases List.append_eq_append_iff.mp hx with ⟨y, rfl, rfl⟩ | ⟨y, hy, rfl⟩
      · refine Or.inl ⟨ht, before, y, (List.append_assoc ..).symm, rfl,
          fun hk => ⟨(hmaximal hk).1, fun c hc => (hmaximal hk).2 c ?_⟩⟩
        rw [List.head?_append, hc]
        rfl
      · rcases h.not_inside ht hy with rfl | rfl
        · refine Or.inr ⟨0, ?_, ht, [], after, ?_, rfl, fun hk => ⟨fun c hc => ?_, (hmaximal hk).2⟩⟩
          · rw [List.append_nil, Nat.add_zero]
          · rw [hy, List.nil_append, List.nil_append]
          · cases hc
        · refine Or.inl ⟨ht, before, [], ?_, rfl, fun hk => ⟨(hmaximal hk).1, fun c hc => ?_⟩⟩
          · rw [hy, List.append_nil, List.append_nil]
          · cases hc
  · rintro (hs | ⟨j, rfl, hs⟩)
    · exact hs.append_right h
    · exact hs.append_left h

/-! ## Lexings -/

/-- Tokens with their indexes that are all that stands in a text, from the first to the last. -/
structure IsLexing (cs : List Char) (placed : List (Nat × Token)) : Prop where
  mem_iff : ∀ i t, (i, t) ∈ placed ↔ StandsAt cs i t
  /-- Each token ends before the next one starts. -/
  ordered : placed.Pairwise fun p q => p.1 + p.2.text.length ≤ q.1
  /-- What is not part of a token is white space. -/
  covers : ∀ k c, cs[k]? = some c →
    Unicode.isSpace c = true ∨ ∃ p ∈ placed, p.1 ≤ k ∧ k < p.1 + p.2.text.length

namespace IsLexing

variable {placed placed' : List (Nat × Token)}

theorem nil : IsLexing [] [] := by
  refine ⟨fun i t => iff_of_false List.not_mem_nil fun h => ?_, List.Pairwise.nil,
    fun k c hc => by cases hc⟩
  have hpos := h.1.length_pos
  have hle := h.add_length_le
  rw [List.length_nil] at hle
  omega

theorem space (h : Unicode.isSpace c = true) : IsLexing [c] [] := by
  refine ⟨fun i t => iff_of_false List.not_mem_nil (not_standsAt_space h), List.Pairwise.nil,
    fun k d hd => Or.inl ?_⟩
  rwa [List.mem_singleton.mp (List.mem_of_getElem? hd)]

theorem token (h : t.IsCanonical) : IsLexing t.text.toList [(0, t)] := by
  refine ⟨fun i u => ?_, List.pairwise_singleton _ _, fun k c hc => Or.inr ⟨(0, t), ?_, ?_⟩⟩
  · rw [standsAt_text h, List.mem_singleton, Prod.mk.injEq]
  · exact List.mem_singleton_self _
  · obtain ⟨hk, -⟩ := List.getElem?_eq_some_iff.mp hc
    rw [String.length_toList] at hk
    exact ⟨Nat.zero_le k, by rwa [Nat.zero_add]⟩

/-- **The lexings of two texts with a seam** make one of both. -/
theorem append (ha : IsLexing a placed) (hb : IsLexing b placed') (h : Seam a b) :
    IsLexing (a ++ b) (placed ++ placed'.map fun p => (a.length + p.1, p.2)) := by
  have hle : ∀ p ∈ placed, p.1 + p.2.text.length ≤ a.length := fun p hp =>
    ((ha.mem_iff p.1 p.2).mp hp).add_length_le
  refine ⟨fun i t => ?_, List.pairwise_append.mpr ⟨ha.ordered, ?_, fun p hp q hq => ?_⟩,
    fun k c hc => ?_⟩
  · rw [standsAt_append h, List.mem_append, ha.mem_iff]
    refine or_congr_right ⟨fun hi => ?_, ?_⟩
    · obtain ⟨q, hq, heq⟩ := List.mem_map.mp hi
      cases heq
      exact ⟨q.1, rfl, (hb.mem_iff _ _).mp hq⟩
    · rintro ⟨j, rfl, hj⟩
      exact List.mem_map.mpr ⟨(j, t), (hb.mem_iff j t).mpr hj, rfl⟩
  · refine List.pairwise_map.mpr (hb.ordered.imp fun {p q} hpq => ?_)
    dsimp only
    omega
  · obtain ⟨q, -, rfl⟩ := List.mem_map.mp hq
    exact Nat.le_add_right_of_le (hle p hp)
  · rcases Nat.lt_or_ge k a.length with hk | hk
    · rw [List.getElem?_append_left hk] at hc
      refine (ha.covers k c hc).imp_right fun ⟨p, hp, hpk⟩ => ?_
      exact ⟨p, List.mem_append_left _ hp, hpk⟩
    · rw [List.getElem?_append_right hk] at hc
      refine (hb.covers _ c hc).imp_right fun ⟨p, hp, hpk⟩ => ?_
      refine ⟨_, List.mem_append_right _ (List.mem_map.mpr ⟨p, hp, rfl⟩), ?_⟩
      dsimp only
      omega

/-- Between a token and the next one there is white space. -/
theorem isSpace_between {before after : List (Nat × Token)}
    (h : IsLexing cs (before ++ (i, t) :: (j, u) :: after)) {k : Nat}
    (hi : i + t.text.length ≤ k) (hj : k < j) :
    ∃ c, cs[k]? = some c ∧ Unicode.isSpace c = true := by
  have hu : StandsAt cs j u := (h.mem_iff j u).mp (by simp)
  have hk : k < cs.length := by
    have := hu.add_length_le
    omega
  refine ⟨cs[k], List.getElem?_eq_getElem hk, ?_⟩
  refine (h.covers k _ (List.getElem?_eq_getElem hk)).resolve_right ?_
  rintro ⟨p, hp, hle, hlt⟩
  obtain ⟨-, hnext, hbefore⟩ := List.pairwise_append.mp h.ordered
  obtain ⟨-, hafter⟩ := List.pairwise_cons.mp hnext
  rcases List.mem_append.mp hp with hp | hp
  · have : p.1 + p.2.text.length ≤ i := hbefore p hp (i, t) List.mem_cons_self
    omega
  · rcases List.mem_cons.mp hp with rfl | hp
    · dsimp only at hlt
      omega
    · rcases List.mem_cons.mp hp with rfl | hp
      · dsimp only at hle
        omega
      · have : j + u.text.length ≤ p.1 := (List.pairwise_cons.mp hafter).1 p hp
        omega

/-- Two numbers do not touch. -/
theorem lt_of_numbers {before after : List (Nat × Token)}
    (h : IsLexing cs (before ++ (i, t) :: (j, u) :: after)) (ht : t.kind = .number)
    (hu : u.kind = .number) : i + t.text.length < j := by
  obtain ⟨-, hnext, -⟩ := List.pairwise_append.mp h.ordered
  have hle : i + t.text.length ≤ j := (List.pairwise_cons.mp hnext).1 (j, u) List.mem_cons_self
  refine Nat.lt_of_le_of_ne hle ?_
  rintro rfl
  have hti : StandsAt cs i t := (h.mem_iff _ _).mp (by simp)
  have huj : StandsAt cs (i + t.text.length) u := (h.mem_iff _ _).mp (by simp)
  obtain ⟨c, hc, hnumber⟩ := huj.isNumberChar_getElem hu
  cases hnumber.symm.trans (hti.isNumberChar_after ht c hc)

end IsLexing

/-- **A legal text has a lexing**, and its tokens are those of the scan. -/
theorem exists_lexing (h : ∀ c ∈ cs, isLegal c = true) :
    scanChars cs = .ok (lexemes cs) ∧
      ∃ placed, lexemes cs = placed.map Prod.snd ∧ IsLexing cs placed := by
  refine legal_induction ?_ (fun c cs hc ih => ?_) (fun t cs ht hseam ih => ?_) cs h
  · exact ⟨rfl, [], rfl, IsLexing.nil⟩
  · obtain ⟨hscan, placed, hlexemes, hlexing⟩ := ih
    have hseam := seam_left (class_of_isSpace hc).1 cs
    have happend : lexemes (c :: cs) = lexemes cs := by
      rw [← List.singleton_append, lexemes_append hseam, lexemes_space hc, List.nil_append]
    rw [happend]
    refine ⟨scanChars_cons_space hc hscan, _, ?_, (IsLexing.space hc).append hlexing hseam⟩
    rw [List.nil_append, List.map_map]
    exact hlexemes
  · obtain ⟨hscan, placed, hlexemes, hlexing⟩ := ih
    rw [lexemes_append hseam, lexemes_text ht]
    refine ⟨scanChars_append_ok hseam (scanChars_text ht) hscan, _, ?_,
      (IsLexing.token ht).append hlexing hseam⟩
    rw [List.map_append, List.map_map, hlexemes]
    rfl

/-! ## Stray characters -/

/-- A scan fails at a character that is not legal, if those before it are. -/
theorem scanChars_stray (h : ∀ d ∈ a, isLegal d = true) (hc : isLegal c = false) (b : List Char) :
    scanChars (a ++ c :: b) = .error ⟨c, a.length⟩ := by
  obtain ⟨s, hs, -⟩ := scanChars_eq_ok_iff.mp (exists_lexing h).1
  have hcount : s.count = a.length := (Scan.Valid.start.foldlM hs).count
  obtain ⟨⟨hn, hk⟩, hspace⟩ := (Bool.or_eq_false_iff.mp hc).imp_left Bool.or_eq_false_iff.mp
  have hnone : Kind.ofChar? c = none :=
    Option.isNone_iff_eq_none.mp (Option.isSome_eq_false_iff.mp hk)
  rw [scanChars, List.foldlM_append, hs]
  change ((c :: b).foldlM Scan.step s).map _ = _
  rw [List.foldlM_cons, Scan.step_other hn hnone, if_neg (by rw [hspace]; exact Bool.false_ne_true),
    hcount]
  rfl

/-- A text is legal, or it has a first character that is not. -/
theorem legal_or_stray (cs : List Char) :
    (∀ c ∈ cs, isLegal c = true) ∨
      ∃ a c b, cs = a ++ c :: b ∧ (∀ d ∈ a, isLegal d = true) ∧ isLegal c = false := by
  induction cs with
  | nil => exact Or.inl fun c hc => absurd hc List.not_mem_nil
  | cons c cs ih =>
    cases hc : isLegal c with
    | false => exact Or.inr ⟨[], c, cs, rfl, fun d hd => absurd hd List.not_mem_nil, hc⟩
    | true =>
      rcases ih with h | ⟨a, d, b, rfl, ha, hd⟩
      · exact Or.inl (List.forall_mem_cons.mpr ⟨hc, h⟩)
      · exact Or.inr ⟨c :: a, d, b, rfl, List.forall_mem_cons.mpr ⟨hc, ha⟩, hd⟩

theorem scan_of_legal (h : ∀ c ∈ text.toList, isLegal c = true) :
    scan text = .ok (lexemes text.toList) :=
  scan_eq_ok_iff.mpr (exists_lexing h).1

/-- A text that is scanned is legal. -/
theorem isLegal_of_scan {ts : List Token} (h : scan text = .ok ts) :
    ∀ c ∈ text.toList, isLegal c = true := by
  rcases legal_or_stray text.toList with hlegal | ⟨a, d, b, htext, ha, hd⟩
  · exact hlegal
  · rw [scan, htext, scanChars_stray ha hd] at h
    cases h

theorem lexemes_of_scan {ts : List Token} (h : scan text = .ok ts) : lexemes text.toList = ts := by
  have hlexemes := scan_of_legal (isLegal_of_scan h)
  rw [h] at hlexemes
  exact (Except.ok.inj hlexemes).symm

/-- **A scan fails at the first character that is not legal.** -/
theorem scan_eq_error_iff {e : ScanError} :
    scan text = .error e ↔
      e.text = text ∧ text.toList[e.stray.index]? = some e.stray.char ∧
        isLegal e.stray.char = false ∧ ∀ c ∈ text.toList.take e.stray.index, isLegal c = true := by
  constructor
  · intro h
    rcases legal_or_stray text.toList with hlegal | ⟨a, c, b, htext, ha, hc⟩
    · cases (scan_of_legal hlegal).symm.trans h
    · rw [scan, htext, scanChars_stray ha hc] at h
      cases h
      dsimp only
      rw [htext, List.getElem?_append_right (Nat.le_refl _), Nat.sub_self, List.take_left]
      exact ⟨rfl, rfl, hc, ha⟩
  · obtain ⟨shown, c, i⟩ := e
    rintro ⟨rfl, hget, hc, hbefore⟩
    dsimp only at hget hc hbefore ⊢
    obtain ⟨hi, hci⟩ := List.getElem?_eq_some_iff.mp hget
    have hsplit : shown.toList = shown.toList.take i ++ c :: shown.toList.drop (i + 1) := by
      rw [← hci, List.getElem_cons_drop, List.take_append_drop]
    rw [scan, hsplit, scanChars_stray hbefore hc, List.length_take_of_le (Nat.le_of_lt hi)]
    rfl

/-- **The tokens of a text are its runs of number characters and its symbols.** A scan fails exactly
if the text has a character that is neither a number character nor a symbol nor white space, and
then it points at the first of them, whatever stands before. Else it gives all the tokens that stand
in the text, in their order, and each where it stands: a number for each run of number characters
that is not part of a longer one, and a symbol for each that the text has. So together their texts
are the text without its white space, no number is empty, and between two numbers that follow each
other there is white space. -/
theorem scan_by_runs (text : String) :
    ((∃ e, scan text = .error e) ↔ ∃ c ∈ text.toList, isLegal c = false) ∧
      (∀ e, scan text = .error e ↔
        e.text = text ∧ text.toList[e.stray.index]? = some e.stray.char ∧
          isLegal e.stray.char = false ∧
            ∀ c ∈ text.toList.take e.stray.index, isLegal c = true) ∧
      ((∀ c ∈ text.toList, isLegal c = true) →
        ∃ placed : List (Nat × Token), scan text = .ok (placed.map Prod.snd) ∧
          placed.map Prod.snd = lexemes text.toList ∧ IsLexing text.toList placed ∧
          (words (placed.map Prod.snd)).flatten = text.toList.filter (!Unicode.isSpace ·) ∧
          (∀ p ∈ placed, p.2.kind = .number → p.2.text ≠ "") ∧
          ∀ before i t j u after, placed = before ++ (i, t) :: (j, u) :: after →
            t.kind = .number → u.kind = .number →
              i + t.text.length < j ∧ ∀ k, i + t.text.length ≤ k → k < j →
                ∃ c, text.toList[k]? = some c ∧ Unicode.isSpace c = true) := by
  refine ⟨⟨fun ⟨e, he⟩ => ?_, fun ⟨c, hmem, hc⟩ => ?_⟩, fun e => scan_eq_error_iff, fun h => ?_⟩
  · obtain ⟨-, hget, hc, -⟩ := scan_eq_error_iff.mp he
    exact ⟨_, List.mem_of_getElem? hget, hc⟩
  · rcases legal_or_stray text.toList with hlegal | ⟨a, d, b, htext, ha, hd⟩
    · cases hc.symm.trans (hlegal c hmem)
    · rw [scan, htext, scanChars_stray ha hd]
      exact ⟨_, rfl⟩
  · obtain ⟨placed, hlexemes, hlexing⟩ := (exists_lexing h).2
    have hscan := scan_of_legal h
    rw [hlexemes] at hscan
    refine ⟨placed, hscan, hlexemes.symm, hlexing, flatten_words_of_scan hscan,
      fun p hp _ => ?_, ?_⟩
    · exact fun hempty => ((hlexing.mem_iff p.1 p.2).mp hp).1.isWord.ne_nil (by rw [hempty]; rfl)
    · rintro before i t j u after rfl ht hu
      exact ⟨hlexing.lt_of_numbers ht hu, fun k => hlexing.isSpace_between⟩

/-- In `12. 3^` the second number stands at four. -/
theorem scan_by_runs_numbers :
    (∀ c ∈ "12. 3^".toList, isLegal c = true) ∧ StandsAt "12. 3^".toList 4 ⟨.number, "3"⟩ ∧
      ∃ placed : List (Nat × Token), scan "12. 3^" = .ok (placed.map Prod.snd) ∧
        (4, ⟨.number, "3"⟩) ∈ placed := by
  have hlegal : ∀ c ∈ "12. 3^".toList, isLegal c = true := List.all_eq_true.mp (by decide)
  have hstands : StandsAt "12. 3^".toList 4 ⟨.number, "3"⟩ := by
    have hcanonical : IsCanonical ⟨.number, "3"⟩ := ⟨by decide, List.all_eq_true.mp (by decide)⟩
    refine ⟨hcanonical, "12. ".toList, "^".toList, rfl, rfl, fun _ => ⟨?_, ?_⟩⟩ <;> intro c hc <;>
      cases hc <;> rfl
  obtain ⟨placed, hscan, -, hlexing, -⟩ := (scan_by_runs "12. 3^").2.2 hlegal
  exact ⟨hlegal, hstands, placed, hscan, (hlexing.mem_iff _ _).mpr hstands⟩

end Token

end Reckoner
