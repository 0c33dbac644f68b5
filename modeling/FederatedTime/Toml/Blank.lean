import FederatedTime.Text.Reader

/-!
# Blanks

What stands between the tokens of a TOML document: spaces and tabs, line ends, comments.
-/

namespace FederatedTime.Toml

open Text (Reader)

def isSpace (c : Char) : Bool := c = ' ' || c = '\t'

/-- Whether a character may stand in a line of text: control characters other than the tab may
not. -/
def isPrintable (c : Char) : Bool := c = '\t' || (' ' ≤ c && c ≠ '\x7f')

def skipSpaces (cs : List Char) : List Char := cs.dropWhile isSpace

/-- The text behind the line end in front, if there is one. -/
def lineEnd? : List Char → Option (List Char)
  | '\n' :: rest => some rest
  | '\r' :: '\n' :: rest => some rest
  | _ => none

/-- The text behind the spaces, tabs and line ends in front. -/
def skipLines : List Char → List Char
  | ' ' :: rest => skipLines rest
  | '\t' :: rest => skipLines rest
  | '\n' :: rest => skipLines rest
  | '\r' :: '\n' :: rest => skipLines rest
  | cs => cs

/-- The text behind the comment in front, if there is one. -/
def skipComment : List Char → List Char
  | '#' :: rest => rest.dropWhile isPrintable
  | cs => cs

/-- The text behind the spaces, line ends and comments in front. The flag tells whether the text
starts inside of a comment; a comment that does not reach the end of its line is left in front. -/
def skipBlanks : (inComment : Bool) → List Char → List Char
  | true, '\n' :: rest => skipBlanks false rest
  | true, '\r' :: '\n' :: rest => skipBlanks false rest
  | true, c :: rest => if isPrintable c then skipBlanks true rest else c :: rest
  | true, [] => []
  | false, '\n' :: rest => skipBlanks false rest
  | false, '\r' :: '\n' :: rest => skipBlanks false rest
  | false, ' ' :: rest => skipBlanks false rest
  | false, '\t' :: rest => skipBlanks false rest
  | false, '#' :: rest => skipBlanks true rest
  | false, cs => cs

/-- Read the end of a statement: spaces, perhaps a comment, and the end of the line or of the
text. -/
def statementEnd : Reader Unit := fun cs =>
  match skipComment (skipSpaces cs) with
  | [] => some ((), [])
  | cs => (lineEnd? cs).map fun rest => ((), rest)

theorem length_skipLines_le (cs : List Char) : (skipLines cs).length ≤ cs.length := by
  fun_induction skipLines cs with
  | case1 rest ih | case2 rest ih | case3 rest ih =>
    exact Nat.le_succ_of_le ih
  | case4 rest ih => exact Nat.le_succ_of_le (Nat.le_succ_of_le ih)
  | case5 => exact Nat.le_refl _

theorem length_lineEnd?_lt {cs rest : List Char} (h : lineEnd? cs = some rest) :
    rest.length < cs.length := by
  unfold lineEnd? at h
  split at h
  · cases h
    exact Nat.lt_succ_self _
  · cases h
    exact Nat.lt_succ_of_lt (Nat.lt_succ_self _)
  · cases h

end FederatedTime.Toml
