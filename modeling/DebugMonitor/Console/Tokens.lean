import DebugMonitor.Text.Basic

/-!
# Tokens of a command line

Blanks and tabs separate tokens, and no other character does. A command takes at most two
arguments, so three tokens are kept and the rest of the line is dropped.
-/

namespace DebugMonitor.Console

def isSeparator (c : Char) : Bool := c = ' ' || c = '\t'

def isTokenChar (c : Char) : Bool := !isSeparator c

/-- A line without the separators in front. -/
def skipSeparators (line : Text) : Text := line.dropWhile isSeparator

/-- The token that a text starts with. -/
def word (text : Text) : Text := text.takeWhile isTokenChar

/-- What is left behind the first token. -/
def afterWord (text : Text) : Text := text.dropWhile isTokenChar

/-! ### Every token shortens the line

Skipping separators stops at a character that is none, so the token there is not empty. -/

theorem length_dropWhile_le (p : Char → Bool) (text : Text) :
    (text.dropWhile p).length ≤ text.length :=
  (List.dropWhile_sublist p).length_le

theorem isTokenChar_of_skipSeparators {line rest : Text} {c : Char}
    (h : skipSeparators line = c :: rest) : isTokenChar c = true := by
  have := List.head?_dropWhile_not isSeparator line
  rw [skipSeparators] at h
  simpa [h, isTokenChar] using this

theorem length_afterWord_lt {line rest : Text} {c : Char} (h : skipSeparators line = c :: rest) :
    (afterWord (c :: rest)).length < line.length := by
  have hc := isTokenChar_of_skipSeparators h
  have hword := length_dropWhile_le isTokenChar rest
  have hskip := length_dropWhile_le isSeparator line
  rw [← skipSeparators, h, List.length_cons] at hskip
  rw [afterWord, List.dropWhile_cons, if_pos hc]
  omega

/-! ### Tokens -/

/-- The maximal runs of characters that are no separators. -/
def words (line : Text) : List Text :=
  match h : skipSeparators line with
  | [] => []
  | c :: rest =>
    have := length_afterWord_lt h
    word (c :: rest) :: words (afterWord (c :: rest))
termination_by line.length

/-- A command and two arguments. -/
def maxTokens : Nat := 3

/-- The tokens that a command gets to see. -/
def tokens (line : Text) : List Text := (words line).take maxTokens

end DebugMonitor.Console
