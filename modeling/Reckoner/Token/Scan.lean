import Reckoner.Text.Quoted
import Reckoner.Text.Spacing
import Reckoner.Token.Basic

/-!
# Scanning: from a text to its tokens

The scan goes through the text once. Number characters are collected in a run; a symbol or white
space ends the run, which becomes a number token if it is not empty. The first character that is
none of these ends the scan with an error that points at it.
-/

namespace Reckoner

namespace Token

/-- A character that belongs to no token, and where it stands. -/
structure Stray where
  char : Char
  index : Nat
deriving DecidableEq

/-- The state of a scan: the tokens so far and the run of number characters just before, both with
the latest first, and the count of characters read. -/
structure Scan where
  finished : List Token
  run : List Char
  count : Nat

namespace Scan

def start : Scan := ⟨[], [], 0⟩

/-- The tokens so far, the run included. -/
def flush (s : Scan) : List Token :=
  if s.run.isEmpty then s.finished
  else ⟨.number, String.ofList s.run.reverse⟩ :: s.finished

/-- One more character. -/
def step (s : Scan) (c : Char) : Except Stray Scan :=
  if isNumberChar c then .ok ⟨s.finished, c :: s.run, s.count + 1⟩
  else
    match Kind.ofChar? c with
    | some k => .ok ⟨⟨k, String.singleton c⟩ :: s.flush, [], s.count + 1⟩
    | none =>
      if Unicode.isSpace c then .ok ⟨s.flush, [], s.count + 1⟩ else .error ⟨c, s.count⟩

end Scan

/-- The tokens of a sequence of characters. -/
def scanChars (cs : List Char) : Except Stray (List Token) :=
  (cs.foldlM Scan.step Scan.start).map (·.flush.reverse)

/-- A text with a character that belongs to no token. -/
structure ScanError where
  text : String
  stray : Stray
deriving DecidableEq

/-- The tokens of a text. -/
def scan (text : String) : Except ScanError (List Token) :=
  (scanChars text.toList).mapError (⟨text, ·⟩)

/-- What is wrong, the text, and a caret under the character. -/
def ScanError.message (e : ScanError) : String :=
  "Tokenizer error: Unexpected character: " ++ Text.quoted (String.singleton e.stray.char) ++
    "\n" ++ e.text ++ "\n" ++ Text.blanks e.stray.index ++ "^"

end Token

end Reckoner
