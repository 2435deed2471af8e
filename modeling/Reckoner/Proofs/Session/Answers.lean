import Reckoner.Proofs.Decimal.ReadBack
import Reckoner.Proofs.Expr.Ignored
import Reckoner.Proofs.Expr.Parsed
import Reckoner.Proofs.Token.Kept
import Reckoner.Session.Basic

/-!
# What a session answers

A line is answered in one of four ways (`Session.answer_cases`): it is white space, it cannot be
scanned, it cannot be parsed, or it has a value. In each of them the level has no part in what the
screen shows, and only a line that has a value has a log. A walk through a parsed tree does not
fail, so the fifth way, a failure after the parse, is never taken.

* `Session.logOf_ne_empty_iff`: when there is a log.
* `Session.head?_screen_ne`: no screen starts like the message of a failure after the parse.
* **`Session.answers_line_by_line`**: the contract of a session, line by line.
-/

namespace Reckoner

/-! ## First characters -/

theorem head?_toList_append {a : String} {c : Char} (h : a.toList.head? = some c) (b : String) :
    (a ++ b).toList.head? = some c := by
  rw [String.toList_append, List.head?_append, h]
  rfl

theorem Token.ScanError.head?_message (e : ScanError) : e.message.toList.head? = some 'T' := by
  have htitle : "Tokenizer error: Unexpected character: ".toList.head? = some 'T' := by decide
  iterate 6 refine head?_toList_append ?_ _
  exact htitle

theorem ParseError.head?_message (e : ParseError) : e.message.toList.head? = some 'P' := by
  have htitle : "Parser error: ".toList.head? = some 'P' := by decide
  iterate 6 refine head?_toList_append ?_ _
  exact htitle

/-- In places a whole number has a fraction, and otherwise the layouts agree. -/
theorem Decimal.exists_render_full (d : Decimal) :
    ∃ tail, d.render .full = d.render .brief ++ tail := by
  unfold render
  change ∃ tail, (if -4 ≤ d.leadingExponent ∧ d.leadingExponent < 16 then d.inPlaces ".0"
    else d.withExponent 2) = (if -4 ≤ d.leadingExponent ∧ d.leadingExponent < 16 then d.inPlaces ""
    else d.withExponent 2) ++ tail
  split
  · unfold inPlaces
    dsimp only
    split
    · exact ⟨".0", by rw [String.append_empty]⟩
    · exact ⟨"", by rw [String.append_empty]⟩
  · exact ⟨"", by rw [String.append_empty]⟩

theorem Decimal.head?_render_full (d : Decimal) :
    ∃ c, (d.render .full).toList.head? = some c ∧ c.isDigit = true := by
  obtain ⟨c, cs, hcs, hc⟩ := d.writes_render.digit
  obtain ⟨tail, htail⟩ := d.exists_render_full
  refine ⟨c, ?_, hc⟩
  rw [htail]
  exact head?_toList_append (by rw [hcs]; rfl) tail

theorem Binary64.head?_render_full (x : Binary64) :
    ∃ c, (x.render .full).toList.head? = some c ∧ c ≠ 'R' := by
  cases x with
  | nan => exact ⟨'n', by decide, by decide⟩
  | infinity negative =>
    cases negative with
    | true => exact ⟨'-', by decide, by decide⟩
    | false => exact ⟨'i', by decide, by decide⟩
  | finite negative m =>
    cases negative with
    | true =>
      have hminus : "-".toList.head? = some '-' := by decide
      exact ⟨'-', head?_toList_append hminus (m.shortest.render .full), by decide⟩
    | false =>
      obtain ⟨c, hhead, hc⟩ := m.shortest.head?_render_full
      change ∃ c, ("" ++ m.shortest.render .full).toList.head? = some c ∧ c ≠ 'R'
      rw [String.empty_append]
      refine ⟨c, hhead, ?_⟩
      rintro rfl
      cases hc

namespace Session

variable {level : LogLevel} {line : String} {p : Parsed}

/-! ## The log -/

theorem showsDebug_iff : level.showsDebug = true ↔ level = .debug ∨ level = .notSet := by
  cases level <;> decide

theorem logOf_of_eq_nil (h : p.ignored = []) : logOf level p = "" := by
  rw [logOf, Parsed.notice?_of_eq_nil h]

theorem logOf_of_ne_nil (h : p.ignored ≠ []) :
    logOf level p =
      if level.showsDebug then logLine ("Ignoring unconsumed tokens: " ++ Token.line p.ignored)
      else "" := by
  rw [logOf, Parsed.notice?_of_ne_nil h]

theorem logLine_ne_empty (notice : String) : logLine notice ≠ "" := by
  have htitle : "DEBUG calculator.parser: ".toList.head? = some 'D' := by decide
  have hhead : (logLine notice).toList.head? = some 'D' :=
    head?_toList_append (head?_toList_append htitle notice) "\n"
  intro hempty
  rw [hempty] at hhead
  cases hhead

/-- **When there is a log.** -/
theorem logOf_ne_empty_iff (level : LogLevel) (p : Parsed) :
    logOf level p ≠ "" ↔ (level = .debug ∨ level = .notSet) ∧ p.ignored ≠ [] := by
  rw [← showsDebug_iff]
  by_cases hnil : p.ignored = []
  · simp [logOf_of_eq_nil hnil, hnil]
  · rw [logOf_of_ne_nil hnil]
    split
    · rename_i hshows
      exact iff_of_true (logLine_ne_empty _) ⟨hshows, hnil⟩
    · rename_i hshows
      exact iff_of_false (fun h => h rfl) fun h => hshows h.1

/-! ## The answer to a line -/

/-- **The ways to answer a line**, at whatever level. -/
theorem answer_cases (line : String) :
    (Token.scan line = .ok [] ∧ ∀ level, answer level line = ⟨"", ""⟩) ∨
    (∃ e, Token.scan line = .error e ∧ ∀ level, answer level line = ⟨e.message ++ "\n", ""⟩) ∨
    (∃ ts e, Token.scan line = .ok ts ∧ Expr.parse ts = .error e ∧
      ∀ level, answer level line = ⟨e.message ++ "\n", ""⟩) ∨
    ∃ ts p value, Token.scan line = .ok ts ∧ Expr.parse ts = .ok p ∧ p.expr.evaluate = .ok value ∧
      ∀ level, answer level line = ⟨value.render .full ++ "\n", logOf level p⟩ := by
  by_cases hblank : line.toList.all Unicode.isSpace = true
  · exact Or.inl ⟨Token.scan_eq_nil_iff.mpr hblank, fun level => by simp [answer, hblank]⟩
  · cases hscan : Token.scan line with
    | error e => exact Or.inr (Or.inl ⟨e, rfl, fun level => by simp [answer, hblank, hscan]⟩)
    | ok ts =>
      cases hparse : Expr.parse ts with
      | error e =>
        exact Or.inr (Or.inr (Or.inl ⟨ts, e, rfl, hparse, fun level => by
          simp [answer, hblank, hscan, hparse]⟩))
      | ok p =>
        obtain ⟨-, -, ⟨value, hvalue⟩, -⟩ := walks_of_parseWithin (by decide) hparse
        have hvalue : p.expr.evaluate = .ok value := hvalue
        exact Or.inr (Or.inr (Or.inr ⟨ts, p, value, rfl, hparse, hvalue, fun level => by
          simp [answer, hblank, hscan, hparse, hvalue]⟩))

/-- **The level has no part in what the screen shows.** -/
theorem screen_answer_eq (level level' : LogLevel) (line : String) :
    (answer level line).screen = (answer level' line).screen := by
  rcases answer_cases line with
    ⟨-, h⟩ | ⟨e, -, h⟩ | ⟨ts, e, -, -, h⟩ | ⟨ts, p, value, -, -, -, h⟩
  all_goals rw [h level, h level']

/-- **No screen starts like the message of a failure after the parse.** -/
theorem head?_screen_ne (level : LogLevel) (line : String) :
    (answer level line).screen.toList.head? ≠ some 'R' := by
  rcases answer_cases line with
    ⟨-, h⟩ | ⟨e, -, h⟩ | ⟨ts, e, -, -, h⟩ | ⟨ts, p, value, -, -, -, h⟩
  all_goals rw [h level]
  · decide
  · rw [head?_toList_append e.head?_message]
    decide
  · rw [head?_toList_append e.head?_message]
    decide
  · obtain ⟨c, hhead, hc⟩ := value.head?_render_full
    rw [head?_toList_append hhead]
    exact fun heq => hc (Option.some.inj heq)

theorem screen_answer_of_nil (h : Token.scan line = .ok []) : (answer level line).screen = "" := by
  rw [answer, if_pos (Token.scan_eq_nil_iff.mp h)]

theorem screen_answer_of_ne_nil (h : Token.scan line ≠ .ok []) :
    (∃ e, Token.scan line = .error e ∧ (answer level line).screen = e.message ++ "\n") ∨
      (∃ ts e, Token.scan line = .ok ts ∧ Expr.parse ts = .error e ∧
        (answer level line).screen = e.message ++ "\n") ∨
      ∃ ts value, Token.scan line = .ok ts ∧ calculate ts = .ok value ∧
        (answer level line).screen = value.render .full ++ "\n" := by
  rcases answer_cases line with
    ⟨hscan, -⟩ | ⟨e, hscan, ha⟩ | ⟨ts, e, hscan, hparse, ha⟩ |
      ⟨ts, p, value, hscan, hparse, hvalue, ha⟩
  · exact absurd hscan h
  · exact Or.inl ⟨e, hscan, by rw [ha]⟩
  · exact Or.inr (Or.inl ⟨ts, e, hscan, hparse, by rw [ha]⟩)
  · exact Or.inr (Or.inr ⟨ts, value, hscan, calculate_of_parse_ok hparse hvalue, by rw [ha]⟩)

theorem not_runtimeError_prefix {screen : String} (h : screen.toList.head? ≠ some 'R') :
    ¬"Runtime error".toList <+: screen.toList := by
  rintro ⟨rest, hrest⟩
  have htitle : "Runtime error".toList.head? = some 'R' := by decide
  refine h ?_
  rw [← hrest, List.head?_append, htitle]
  rfl

/-- Only a line that is parsed has a log. -/
theorem log_answer_cases (level : LogLevel) (line : String) :
    ((answer level line).log = "" ∧ ∀ ts p, Token.scan line = .ok ts → Expr.parse ts ≠ .ok p) ∨
      ∃ ts p, Token.scan line = .ok ts ∧ Expr.parse ts = .ok p ∧
        (answer level line).log = logOf level p := by
  rcases answer_cases line with
    ⟨hscan, h⟩ | ⟨e, hscan, h⟩ | ⟨ts, e, hscan, hparse, h⟩ |
      ⟨ts, p, value, hscan, hparse, -, h⟩
  all_goals rw [h level]
  · refine Or.inl ⟨rfl, fun ts p hts hp => ?_⟩
    cases hscan.symm.trans hts
    cases hp
  · refine Or.inl ⟨rfl, fun ts p hts _ => ?_⟩
    cases hscan.symm.trans hts
  · refine Or.inl ⟨rfl, fun ts' p hts hp => ?_⟩
    cases hscan.symm.trans hts
    cases hparse.symm.trans hp
  · exact Or.inr ⟨ts, p, hscan, hparse, rfl⟩

/-- **A line has a log** if it is parsed, some of its tokens are left, and debug notices are
shown. -/
theorem log_answer_ne_empty_iff (level : LogLevel) (line : String) :
    (answer level line).log ≠ "" ↔ (level = .debug ∨ level = .notSet) ∧
      ∃ ts p, Token.scan line = .ok ts ∧ Expr.parse ts = .ok p ∧ p.ignored ≠ [] := by
  rcases log_answer_cases level line with ⟨hlog, hnone⟩ | ⟨ts, p, hscan, hparse, hlog⟩
  · refine iff_of_false (fun hne => hne hlog) ?_
    rintro ⟨-, ts, p, hts, hp, -⟩
    exact hnone ts p hts hp
  · rw [hlog, logOf_ne_empty_iff]
    refine and_congr_right fun _ => ⟨fun hne => ⟨ts, p, hscan, hparse, hne⟩, ?_⟩
    rintro ⟨ts', p', hts, hp, hne⟩
    cases hscan.symm.trans hts
    cases hparse.symm.trans hp
    exact hne

theorem log_answer_eq (h : (answer level line).log ≠ "") :
    ∃ ts p, Token.scan line = .ok ts ∧ Expr.parse ts = .ok p ∧
      (answer level line).log =
        logLine ("Ignoring unconsumed tokens: " ++ Token.line p.ignored) := by
  rcases log_answer_cases level line with ⟨hlog, -⟩ | ⟨ts, p, hscan, hparse, hlog⟩
  · exact absurd hlog h
  · rw [hlog] at h
    obtain ⟨hlevel, hne⟩ := (logOf_ne_empty_iff level p).mp h
    refine ⟨ts, p, hscan, hparse, ?_⟩
    rw [hlog, logOf_of_ne_nil hne, if_pos (showsDebug_iff.mpr hlevel)]

/-- **A session answers line by line.** There is one text for each line that the screen shows for
it, at every level and whatever the other lines are. A line has no tokens just when it is white
space, and then the text is empty. Any other line is answered by what is wrong with its characters
or else with its tokens, or else by its value; no text starts like the message of a failure after
the parse. There is a log at the two lowest levels, if the line is parsed and some of its tokens are
left, and it is one line that shows them. -/
theorem answers_line_by_line :
    ∃ screenOf : String → String,
      (∀ line : String,
        (line.toList.all Unicode.isSpace = true ↔ Token.scan line = .ok []) ∧
        (Token.scan line = .ok [] → screenOf line = "") ∧
        (Token.scan line ≠ .ok [] →
          (∃ e, Token.scan line = .error e ∧ screenOf line = e.message ++ "\n") ∨
          (∃ ts e, Token.scan line = .ok ts ∧ Expr.parse ts = .error e ∧
            screenOf line = e.message ++ "\n") ∨
          ∃ ts value, Token.scan line = .ok ts ∧ calculate ts = .ok value ∧
            screenOf line = value.render .full ++ "\n") ∧
        ¬"Runtime error".toList <+: (screenOf line).toList) ∧
      ∀ (level : LogLevel) (lines : List String),
        (answers level lines).length = lines.length ∧
        ∀ (k : Nat) (line : String), lines[k]? = some line →
          ∃ log, (answers level lines)[k]? = some ⟨screenOf line, log⟩ ∧
            (log ≠ "" ↔ (level = .debug ∨ level = .notSet) ∧
              ∃ ts p, Token.scan line = .ok ts ∧ Expr.parse ts = .ok p ∧ p.ignored ≠ []) ∧
            (log ≠ "" → ∃ ts p, Token.scan line = .ok ts ∧ Expr.parse ts = .ok p ∧
              log = logLine ("Ignoring unconsumed tokens: " ++ Token.line p.ignored)) := by
  refine ⟨fun line => (answer defaultLevel line).screen, fun line => ?_, fun level lines => ?_⟩
  · exact ⟨Token.scan_eq_nil_iff.symm, screen_answer_of_nil, screen_answer_of_ne_nil,
      not_runtimeError_prefix (head?_screen_ne defaultLevel line)⟩
  · refine ⟨List.length_map _, fun k line hline => ⟨(answer level line).log, ?_, ?_, ?_⟩⟩
    · rw [answers, List.getElem?_map, hline, Option.map_some]
      exact congrArg (fun screen => some (Answer.mk screen (answer level line).log))
        (screen_answer_eq level defaultLevel line)
    · exact log_answer_ne_empty_iff level line
    · exact log_answer_eq

/-- `1+2+3` has a log only if debug notices are shown, and the same answer on the screen anyway. -/
theorem answers_line_by_line_sum :
    ∃ screen log, (answers .debug ["", "1+2+3"])[1]? = some ⟨screen, log⟩ ∧ log ≠ "" ∧
      (answers .warning ["1+2+3", "$"])[0]? = some ⟨screen, ""⟩ := by
  obtain ⟨screenOf, -, hanswers⟩ := answers_line_by_line
  have hleft : ∃ ts p, Token.scan "1+2+3" = .ok ts ∧ Expr.parse ts = .ok p ∧ p.ignored ≠ [] :=
    ⟨_, _, rfl, rfl, by decide⟩
  obtain ⟨log, hdebug, hlog, -⟩ := (hanswers .debug ["", "1+2+3"]).2 1 "1+2+3" rfl
  obtain ⟨log', hwarning, hlog', -⟩ := (hanswers .warning ["1+2+3", "$"]).2 0 "1+2+3" rfl
  have hempty : log' = "" := by
    refine Decidable.byContradiction fun hne => ?_
    rcases (hlog'.mp hne).1 with h | h <;> cases h
  rw [hempty] at hwarning
  exact ⟨screenOf "1+2+3", log, hdebug, hlog.mpr ⟨Or.inl rfl, hleft⟩, hwarning⟩

end Session

end Reckoner
