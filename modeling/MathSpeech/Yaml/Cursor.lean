import MathSpeech.Text

/-!
# Yaml/Cursor — a place in a YAML text

YAML depends on lines and columns.  A **cursor** is the rest of a text together with the line and
the column at which it begins, and the number of characters before it.
-/

namespace MathSpeech.Yaml

/-! ## Characters -/

/-- The byte order mark, which takes no column. -/
def byteOrderMark : Char := '\uFEFF'

/-- **The line breaks** of YAML. -/
def isBreak (c : Char) : Bool :=
  c = '\n' || c = '\r' || c = '\u0085' || c = '\u2028' || c = '\u2029'

/-- The blanks inside a line. -/
def isGap (c : Char) : Bool := c = ' ' || c = '\t'

/-- A blank or a line break. -/
def isSpace (c : Char) : Bool := isGap c || isBreak c

/-- A character that a YAML text may contain. -/
def isPrintable (c : Char) : Bool :=
  let n := c.toNat
  n = 9 || n = 10 || n = 13 || (0x20 ≤ n && n ≤ 0x7E) || n = 0x85 || (0xA0 ≤ n && n ≤ 0xFFFD)
    || 0x10000 ≤ n

/-- A character of the names of anchors and handles. -/
def isWord (c : Char) : Bool := c.isAlphanum || c = '-' || c = '_'

/-- The value of a hexadecimal digit. -/
def hexDigit? (c : Char) : Option Nat :=
  if c.isDigit then some (c.toNat - '0'.toNat)
  else if 'a' ≤ c && c ≤ 'f' then some (c.toNat - 'a'.toNat + 10)
  else if 'A' ≤ c && c ≤ 'F' then some (c.toNat - 'A'.toNat + 10)
  else none

/-- The number of a text of hexadecimal digits. -/
def hexNumber? (t : Text) : Option Nat :=
  t.foldlM (fun n c => (hexDigit? c).map fun d => n * 16 + d) 0

/-! ## The end of a text

At the end of a text stands nothing, and nothing counts as a space. -/

/-- The text begins with a space, or is at its end. -/
def spaceFollows : Text → Bool
  | [] => true
  | c :: _ => isSpace c

/-- The text begins with a blank other than a tab, with a line break, or is at its end. -/
def plainSpaceFollows : Text → Bool
  | [] => true
  | c :: _ => c = ' ' || isBreak c

/-- The text begins with a line break, or is at its end. -/
def lineEnds : Text → Bool
  | [] => true
  | c :: _ => isBreak c

/-- A line of three dashes or three points, which divides documents, begins here. -/
def dividesDocuments : Text → Bool
  | '-' :: '-' :: '-' :: rest => spaceFollows rest
  | '.' :: '.' :: '.' :: rest => spaceFollows rest
  | _ => false

/-! ## Cursors -/

/-- **A cursor.** -/
structure Cursor where
  rest : Text
  index : Nat := 0
  line : Nat := 0
  column : Nat := 0

namespace Cursor

/-- The cursor after the next character.  A carriage return before a line feed is no line of its
own. -/
def next (c : Cursor) : Cursor :=
  match c.rest with
  | [] => c
  | ch :: rest =>
    let index := c.index + 1
    if isBreak ch && !(ch = '\r' && rest.head? = '\n') then
      { rest, index, line := c.line + 1, column := 0 }
    else if ch = byteOrderMark then { c with rest, index }
    else { c with rest, index, column := c.column + 1 }

/-- The cursor after so many characters. -/
def advance (c : Cursor) : Nat → Cursor
  | 0 => c
  | n + 1 => c.next.advance n

/-- The next character. -/
def head? (c : Cursor) : Option Char := c.rest.head?

/-- The characters of a kind that come next, and the cursor after them. -/
def takeWhile (c : Cursor) (p : Char → Bool) : Text × Cursor :=
  let t := c.rest.takeWhile p
  (t, c.advance t.length)

/-- The cursor after the characters of a kind that come next. -/
def dropWhile (c : Cursor) (p : Char → Bool) : Cursor := (c.takeWhile p).2

/-- **A line break**, if one comes next: the text it stands for, and the cursor after it. -/
def lineBreak? (c : Cursor) : Option (Text × Cursor) :=
  match c.rest with
  | '\r' :: '\n' :: _ => some (['\n'], c.advance 2)
  | '\u2028' :: _ => some (['\u2028'], c.next)
  | '\u2029' :: _ => some (['\u2029'], c.next)
  | ch :: _ => if isBreak ch then some (['\n'], c.next) else none
  | [] => none

/-- The cursor after a comment, if one comes next. -/
def dropComment (c : Cursor) : Cursor :=
  if c.head? = '#' then c.dropWhile fun ch => !isBreak ch else c

/-- **The end of a line**: blanks, a comment, and a break unless the text ends. -/
def endOfLine? (c : Cursor) : Option Cursor :=
  let c := (c.dropWhile (· = ' ')).dropComment
  if lineEnds c.rest then some ((c.lineBreak?.map Prod.snd).getD c) else none

/-- At most so many blanks, up to a column. -/
def indentTo (c : Cursor) (column : Nat) : Cursor :=
  c.advance ((c.rest.take (column - c.column)).takeWhile (· = ' ')).length

end Cursor

end MathSpeech.Yaml
