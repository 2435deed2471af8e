import Reckoner.Proofs.Token.RoundTrip

/-!
# What a scan keeps

A step of a scan drops the character that it reads if that is white space, and keeps it otherwise,
in a run or as a symbol. So the texts of the tokens, one after the other, are the text without its
white space, and there are no tokens just when there is nothing else.

* `Scan.kept_step`, `Scan.kept_foldlM`: one step, and a whole scan.
* **`flatten_words_of_scan`**: the tokens of a text hold all of it but the white space.
* **`scan_eq_nil_iff`**: a text without tokens is white space.
-/

namespace Reckoner

namespace Token

variable {c : Char} {cs : List Char} {ts : List Token} {text : String}

namespace Scan

variable {s s' : Scan}

/-- The characters that a scan has kept: those of the tokens so far, and the run. -/
def kept (s : Scan) : List Char := (words s.finished.reverse).flatten ++ s.run.reverse

theorem words_append (ts us : List Token) : words (ts ++ us) = words ts ++ words us :=
  List.map_append

/-- A run is kept when it becomes a token. -/
theorem flatten_words_flush (s : Scan) : (words s.flush.reverse).flatten = s.kept := by
  unfold flush kept
  split
  · rename_i hempty
    rw [List.isEmpty_iff.mp hempty, List.reverse_nil, List.append_nil]
  · rw [List.reverse_cons, words_append, List.flatten_append]
    simp [words]

/-- **A step keeps the character that it reads**, unless that is white space. -/
theorem kept_step (h : s.step c = .ok s') :
    s'.kept = s.kept ++ [c].filter (!Unicode.isSpace ·) := by
  cases hn : isNumberChar c with
  | true =>
    rw [step_number hn] at h
    cases h
    simp [kept, isSpace_of_isNumberChar hn]
  | false =>
    cases hk : Kind.ofChar? c with
    | some k =>
      rw [step_symbol hk] at h
      cases h
      have hspace := (Kind.class_of_symbol? (Kind.ofChar?_eq_some_iff.mp hk)).2
      rw [← flatten_words_flush s]
      simp [kept, words, hspace]
    | none =>
      rw [step_other hn hk] at h
      split at h
      · rename_i hspace
        cases h
        rw [← flatten_words_flush s]
        simp [kept, hspace]
      · cases h

theorem kept_foldlM (h : cs.foldlM Scan.step s = .ok s') :
    s'.kept = s.kept ++ cs.filter (!Unicode.isSpace ·) := by
  induction cs generalizing s with
  | nil =>
    cases h
    rw [List.filter_nil, List.append_nil]
  | cons c cs ih =>
    rw [List.foldlM_cons] at h
    cases hstep : s.step c with
    | error e =>
      rw [hstep] at h
      cases h
    | ok next =>
      rw [hstep] at h
      rw [ih h, kept_step hstep, List.append_assoc, ← List.filter_append]
      rfl

end Scan

/-- **The tokens of a text hold all of it but the white space.** -/
theorem flatten_words_of_scan (h : scan text = .ok ts) :
    (words ts).flatten = text.toList.filter (!Unicode.isSpace ·) := by
  obtain ⟨s, hs, rfl⟩ := scanChars_eq_ok_iff.mp (scan_eq_ok_iff.mp h)
  rw [s.flatten_words_flush, Scan.kept_foldlM hs]
  rfl

theorem scanChars_of_isSpace (h : ∀ c ∈ cs, Unicode.isSpace c = true) : scanChars cs = .ok [] := by
  induction cs with
  | nil => rfl
  | cons c cs ih =>
    obtain ⟨hc, hcs⟩ := List.forall_mem_cons.mp h
    exact scanChars_cons_space hc (ih hcs)

/-- **A text without tokens is white space**, or empty. -/
theorem scan_eq_nil_iff : scan text = .ok [] ↔ text.toList.all Unicode.isSpace = true := by
  constructor
  · intro h
    have hkept := (flatten_words_of_scan h).symm
    refine List.all_eq_true.mpr fun c hc => ?_
    simpa using List.filter_eq_nil_iff.mp hkept c hc
  · intro h
    exact scan_eq_ok_iff.mpr (scanChars_of_isSpace (List.all_eq_true.mp h))

end Token

end Reckoner
