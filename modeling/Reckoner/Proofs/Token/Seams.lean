import Reckoner.Token.Canonical
import Reckoner.Token.Scan

/-!
# The scan at a seam

A text is scanned in parts: where two parts meet and not both characters there are number
characters, a run that ends at the seam ends there anyway, and the scan of the second part does not
depend on the first.

* **`scanChars_append`**: the scan of two texts with such a seam between them is the scan of the one
  and then of the other, whose stray characters are found as much further on.
* `isCanonical_of_scan`: what is scanned are canonical tokens.
* `scanChars_text`: the text of a canonical token is scanned as that token.
-/

namespace Reckoner

namespace Token

variable {c : Char} {k : Kind} {t : Token} {s s' : Scan} {a b : List Char} {ts us : List Token}

/-! ## Classes of characters -/

/-- A symbol is neither a number character nor white space. -/
theorem Kind.class_of_symbol? (h : k.symbol? = some c) :
    isNumberChar c = false ∧ Unicode.isSpace c = false := by
  cases k <;> cases h <;> decide

/-- Only a number is no symbol. -/
theorem Kind.symbol?_eq_none_iff : k.symbol? = none ↔ k = .number := by
  cases k <;> decide

theorem isNumberChar_of_ofChar? (h : Kind.ofChar? c = some k) : isNumberChar c = false :=
  (Kind.class_of_symbol? (Kind.ofChar?_eq_some_iff.mp h)).1

/-- A number character is not white space. -/
theorem isSpace_of_isNumberChar (h : isNumberChar c = true) : Unicode.isSpace c = false := by
  rcases Bool.or_eq_true _ _ |>.mp h with h | h
  · exact Unicode.isSpace_of_isDigit h
  · rw [beq_iff_eq.mp h]
    decide

/-- White space is neither a number character nor a symbol. -/
theorem class_of_isSpace (h : Unicode.isSpace c = true) :
    isNumberChar c = false ∧ Kind.ofChar? c = none := by
  constructor
  · cases hn : isNumberChar c with
    | false => rfl
    | true => cases h.symm.trans (isSpace_of_isNumberChar hn)
  · cases hk : Kind.ofChar? c with
    | none => rfl
    | some k => cases h.symm.trans (Kind.class_of_symbol? (Kind.ofChar?_eq_some_iff.mp hk)).2

theorem isNumberChar_blank : isNumberChar ' ' = false := by decide

/-! ## One step -/

namespace Scan

theorem step_number (h : isNumberChar c = true) (s : Scan) :
    s.step c = .ok ⟨s.finished, c :: s.run, s.count + 1⟩ := if_pos h

theorem step_symbol (h : Kind.ofChar? c = some k) (s : Scan) :
    s.step c = .ok ⟨⟨k, String.singleton c⟩ :: s.flush, [], s.count + 1⟩ := by
  rw [step, if_neg (by rw [isNumberChar_of_ofChar? h]; exact Bool.false_ne_true), h]

/-- White space ends a run, and a stray character ends the scan. -/
theorem step_other (hn : isNumberChar c = false) (hk : Kind.ofChar? c = none) (s : Scan) :
    s.step c = if Unicode.isSpace c then .ok ⟨s.flush, [], s.count + 1⟩
      else .error ⟨c, s.count⟩ := by
  rw [step, if_neg (by rw [hn]; exact Bool.false_ne_true), hk]

theorem step_space (h : Unicode.isSpace c = true) (s : Scan) :
    s.step c = .ok ⟨s.flush, [], s.count + 1⟩ := by
  rw [step_other (class_of_isSpace h).1 (class_of_isSpace h).2, if_pos h]

/-- The state with other tokens before its own, and further on in the text. -/
def onto (old : List Token) (n : Nat) (s : Scan) : Scan := ⟨s.finished ++ old, s.run, n + s.count⟩

theorem flush_onto (old : List Token) (n : Nat) (s : Scan) :
    (s.onto old n).flush = s.flush ++ old := by
  unfold flush onto
  by_cases h : s.run.isEmpty
  · rw [if_pos h, if_pos h]
  · rw [if_neg h, if_neg h, List.cons_append]

end Scan

/-- The stray character of a text with so many characters before it. -/
def Stray.further (n : Nat) (e : Stray) : Stray := ⟨e.char, n + e.index⟩

/-- An answer about a text, for that text with so many characters before it. -/
def further {α β : Type} (n : Nat) (f : α → β) : Except Stray α → Except Stray β
  | .ok a => .ok (f a)
  | .error e => .error (e.further n)

namespace Scan

/-- Tokens that are finished have no part in a step. -/
theorem step_onto (old : List Token) (n : Nat) (s : Scan) (c : Char) :
    (s.onto old n).step c = further n (onto old n) (s.step c) := by
  cases hn : isNumberChar c with
  | true =>
    rw [step_number hn, step_number hn]
    rfl
  | false =>
    cases hk : Kind.ofChar? c with
    | some k =>
      rw [step_symbol hk, step_symbol hk, flush_onto]
      rfl
    | none =>
      rw [step_other hn hk, step_other hn hk, flush_onto]
      split <;> rfl

theorem foldlM_onto (old : List Token) (n : Nat) (cs : List Char) (s : Scan) :
    cs.foldlM step (s.onto old n) = further n (onto old n) (cs.foldlM step s) := by
  induction cs generalizing s with
  | nil => rfl
  | cons c cs ih =>
    rw [List.foldlM_cons, List.foldlM_cons, step_onto]
    cases s.step c with
    | ok s' => exact ih s'
    | error e => rfl

/-- What a run is followed by, other than a number character, ends it. -/
theorem step_eq_step_onto_start (h : isNumberChar c = false) (s : Scan) :
    s.step c = (start.onto s.flush s.count).step c := by
  cases hk : Kind.ofChar? c with
  | some k =>
    rw [step_symbol hk, step_symbol hk]
    rfl
  | none =>
    rw [step_other h hk, step_other h hk]
    rfl

end Scan

/-! ## What a scan keeps -/

theorem isCanonical_number {cs : List Char} (hne : cs ≠ [])
    (h : ∀ c ∈ cs, isNumberChar c = true) : IsCanonical ⟨.number, String.ofList cs⟩ := by
  refine ⟨fun hempty => hne ?_, fun c hc => h c ?_⟩
  · have : (String.ofList cs).toList = [] := congrArg String.toList hempty
    rwa [String.toList_ofList] at this
  · rwa [String.toList_ofList] at hc

theorem isCanonical_symbol (h : Kind.ofChar? c = some k) :
    IsCanonical ⟨k, String.singleton c⟩ := by
  have hk : k.symbol? = some c := Kind.ofChar?_eq_some_iff.mp h
  unfold IsCanonical
  dsimp only
  rw [hk]

/-- What holds of a scan that has read these characters. -/
structure Scan.Valid (read : List Char) (s : Scan) : Prop where
  count : s.count = read.length
  finished : ∀ t ∈ s.finished, t.IsCanonical
  run : ∀ c ∈ s.run, isNumberChar c = true
  /-- After any character but a number character there is no run. -/
  idle : (∀ c ∈ read.getLast?, isNumberChar c = false) → s.run = []

namespace Scan

theorem Valid.start : Valid [] start :=
  ⟨rfl, fun _ h => absurd h List.not_mem_nil, fun _ h => absurd h List.not_mem_nil, fun _ => rfl⟩

/-- A run that is flushed is a canonical number. -/
theorem Valid.flush {read : List Char} (h : s.Valid read) : ∀ t ∈ s.flush, t.IsCanonical := by
  unfold Scan.flush
  split
  · exact h.finished
  · rename_i hrun
    intro t ht
    rcases List.mem_cons.mp ht with rfl | ht
    · refine isCanonical_number ?_ fun c hc => h.run c (List.mem_reverse.mp hc)
      exact fun hnil => hrun (List.isEmpty_iff.mpr (List.reverse_eq_nil_iff.mp hnil))
    · exact h.finished t ht

/-- **A step keeps a scan valid.** -/
theorem Valid.step {read : List Char} (h : s.Valid read) (hstep : s.step c = .ok s') :
    s'.Valid (read ++ [c]) := by
  have hcount : s.count + 1 = (read ++ [c]).length := by
    rw [h.count, List.length_append, List.length_singleton]
  have hno : ∀ c ∈ ([] : List Char), isNumberChar c = true :=
    fun _ hc => absurd hc List.not_mem_nil
  cases hn : isNumberChar c with
  | true =>
    rw [step_number hn] at hstep
    cases hstep
    refine ⟨hcount, h.finished, List.forall_mem_cons.mpr ⟨hn, h.run⟩, fun hlast => ?_⟩
    have := hlast c (by simp)
    rw [hn] at this
    cases this
  | false =>
    cases hk : Kind.ofChar? c with
    | some k =>
      rw [step_symbol hk] at hstep
      cases hstep
      exact ⟨hcount, List.forall_mem_cons.mpr ⟨isCanonical_symbol hk, h.flush⟩, hno, fun _ => rfl⟩
    | none =>
      rw [step_other hn hk] at hstep
      split at hstep <;> cases hstep
      exact ⟨hcount, h.flush, hno, fun _ => rfl⟩

/-- **A scan stays valid.** -/
theorem Valid.foldlM {read cs : List Char} (h : s.Valid read)
    (hscan : cs.foldlM Scan.step s = .ok s') : s'.Valid (read ++ cs) := by
  induction cs generalizing read s with
  | nil =>
    cases hscan
    rwa [List.append_nil]
  | cons c cs ih =>
    rw [List.foldlM_cons] at hscan
    cases hstep : s.step c with
    | error e =>
      rw [hstep] at hscan
      cases hscan
    | ok next =>
      rw [hstep] at hscan
      have := ih (h.step hstep) hscan
      rwa [List.append_assoc, List.singleton_append] at this

end Scan

/-! ## Seams -/

theorem scanChars_eq_ok_iff {cs : List Char} :
    scanChars cs = .ok ts ↔ ∃ s, cs.foldlM Scan.step Scan.start = .ok s ∧ ts = s.flush.reverse := by
  unfold scanChars
  rcases cs.foldlM Scan.step Scan.start with e | s
  · refine iff_of_false (fun h => by cases h) ?_
    rintro ⟨s, h, -⟩
    cases h
  · constructor
    · intro h
      cases h
      exact ⟨s, rfl, rfl⟩
    · rintro ⟨s', h, rfl⟩
      cases h
      rfl

/-- No run goes over the seam between the texts. -/
def Seam (a b : List Char) : Prop :=
  (∀ c ∈ a.getLast?, isNumberChar c = false) ∨ ∀ c ∈ b.head?, isNumberChar c = false

/-- A scan without a run goes on as if it started, and one with a run that ends here as well. -/
theorem Scan.foldlM_resume (s : Scan) (h : s.run = [] ∨ ∀ c ∈ b.head?, isNumberChar c = false) :
    (b.foldlM step s).map (·.flush.reverse) =
      further s.count (s.flush.reverse ++ ·) (scanChars b) := by
  have hstart : ((b.foldlM step (start.onto s.flush s.count)).map (·.flush.reverse)) =
      further s.count (s.flush.reverse ++ ·) (scanChars b) := by
    rw [foldlM_onto, scanChars]
    rcases b.foldlM step start with e | s'
    · rfl
    · change Except.ok (s'.onto _ _).flush.reverse = Except.ok (_ ++ s'.flush.reverse)
      rw [flush_onto, List.reverse_append]
  rw [← hstart]
  rcases h with h | h
  · have : s = start.onto s.flush s.count := by
      obtain ⟨finished, run, count⟩ := s
      obtain rfl : run = [] := h
      rfl
    rw [← this]
  · cases b with
    | nil =>
      change Except.ok s.flush.reverse = Except.ok (start.onto s.flush s.count).flush.reverse
      rw [flush_onto]
      rfl
    | cons c b => rw [List.foldlM_cons, List.foldlM_cons, step_eq_step_onto_start (h c rfl)]

/-- **The scan at a seam** is the scan of the one text and then of the other. -/
theorem scanChars_append (h : Seam a b) :
    scanChars (a ++ b) =
      match scanChars a with
      | .error e => .error e
      | .ok ts => further a.length (ts ++ ·) (scanChars b) := by
  rw [scanChars, List.foldlM_append, scanChars]
  rcases ha : a.foldlM Scan.step Scan.start with e | s
  · rfl
  · have hvalid : s.Valid a := Scan.Valid.start.foldlM ha
    change (b.foldlM Scan.step s).map _ = further a.length (s.flush.reverse ++ ·) _
    rw [← hvalid.count]
    exact s.foldlM_resume (h.imp_left hvalid.idle)

theorem scanChars_append_ok (h : Seam a b) (ha : scanChars a = .ok ts)
    (hb : scanChars b = .ok us) : scanChars (a ++ b) = .ok (ts ++ us) := by
  rw [scanChars_append h, ha, hb]
  rfl

/-! ## Texts and canonical tokens -/

theorem scan_eq_ok_iff {text : String} : scan text = .ok ts ↔ scanChars text.toList = .ok ts := by
  unfold scan
  rcases scanChars text.toList with e | ts'
  · exact iff_of_false (fun h => by cases h) (fun h => by cases h)
  · constructor <;>
    · intro h
      cases h
      rfl

/-- What is scanned are canonical tokens. -/
theorem isCanonical_of_scan {text : String} (h : scan text = .ok ts) :
    ∀ t ∈ ts, t.IsCanonical := by
  obtain ⟨s, hs, rfl⟩ := scanChars_eq_ok_iff.mp (scan_eq_ok_iff.mp h)
  have hvalid : s.Valid text.toList := Scan.Valid.start.foldlM hs
  exact fun t ht => hvalid.flush t (List.mem_reverse.mp ht)

theorem foldlM_run {cs : List Char} (h : ∀ c ∈ cs, isNumberChar c = true) (s : Scan) :
    cs.foldlM Scan.step s = .ok ⟨s.finished, cs.reverse ++ s.run, s.count + cs.length⟩ := by
  induction cs generalizing s with
  | nil => rfl
  | cons c cs ih =>
    obtain ⟨hc, hcs⟩ := List.forall_mem_cons.mp h
    rw [List.foldlM_cons, Scan.step_number hc]
    change cs.foldlM Scan.step _ = _
    rw [ih hcs, List.reverse_cons, List.append_assoc, List.length_cons, Nat.add_assoc,
      Nat.add_comm 1]
    rfl

/-- The number or the symbol that a canonical token is. -/
theorem IsCanonical.cases (h : t.IsCanonical) :
    (t.kind = .number ∧ t.text.toList ≠ [] ∧ ∀ c ∈ t.text.toList, isNumberChar c = true) ∨
      ∃ c, t.kind.symbol? = some c ∧ t.text = String.singleton c := by
  unfold IsCanonical at h
  split at h
  · rename_i hk
    have hne : t.text.toList ≠ [] := fun hnil => h.1 (String.toList_eq_nil_iff.mp hnil)
    exact Or.inl ⟨Kind.symbol?_eq_none_iff.mp hk, hne, h.2⟩
  · rename_i c hk
    exact Or.inr ⟨c, hk, h⟩

/-- A symbol by itself is its token. -/
theorem scanChars_symbol (h : Kind.ofChar? c = some k) :
    scanChars [c] = .ok [⟨k, String.singleton c⟩] := by
  rw [scanChars, List.foldlM_cons, Scan.step_symbol h]
  rfl

/-- White space is no token. -/
theorem scanChars_space (h : Unicode.isSpace c = true) : scanChars [c] = .ok [] := by
  rw [scanChars, List.foldlM_cons, Scan.step_space h]
  rfl

theorem seam_left (h : isNumberChar c = false) (b : List Char) : Seam [c] b := by
  refine Or.inl fun c' hc' => ?_
  obtain rfl := Option.some.inj hc'
  exact h

theorem seam_right (h : isNumberChar c = false) (a b : List Char) : Seam a (c :: b) := by
  refine Or.inr fun c' hc' => ?_
  obtain rfl := Option.some.inj hc'
  exact h

theorem scanChars_cons_symbol (hk : Kind.ofChar? c = some k) (h : scanChars b = .ok ts) :
    scanChars (c :: b) = .ok (⟨k, String.singleton c⟩ :: ts) :=
  scanChars_append_ok (seam_left (isNumberChar_of_ofChar? hk) b) (scanChars_symbol hk) h

/-- White space before a text is skipped. -/
theorem scanChars_cons_space (hc : Unicode.isSpace c = true) (h : scanChars b = .ok ts) :
    scanChars (c :: b) = .ok ts :=
  scanChars_append_ok (seam_left (class_of_isSpace hc).1 b) (scanChars_space hc) h

/-- **The text of a canonical token is scanned as that token.** -/
theorem scanChars_text (h : t.IsCanonical) : scanChars t.text.toList = .ok [t] := by
  obtain ⟨kind, text⟩ := t
  rcases h.cases with ⟨hkind, hne, hrun⟩ | ⟨c, hc, htext⟩
  · have hflush : Scan.flush ⟨[], text.toList.reverse ++ [], 0 + text.toList.length⟩ =
        [⟨kind, text⟩] := by
      unfold Scan.flush
      rw [if_neg (by simpa using hne), List.append_nil, List.reverse_reverse, String.ofList_toList]
      exact congrArg (fun k => [Token.mk k text]) hkind.symm
    exact scanChars_eq_ok_iff.mpr ⟨_, foldlM_run hrun _, (congrArg List.reverse hflush).symm⟩
  · have htext : text = String.singleton c := htext
    rw [htext, String.toList_singleton]
    exact scanChars_symbol (Kind.ofChar?_eq_some_iff.mpr hc)

end Token

end Reckoner
