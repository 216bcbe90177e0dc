import MathSpeech.Yaml.Cursor

/-!
# Yaml/Scalar — the text of a scalar

A scalar is written between quotation marks, as a block of lines, or plainly.  Each form has rules
of its own for what a line break inside it stands for: one break is a blank, more breaks are kept
but for the first.

* `Scalar.quoted`, `Scalar.block`, `Scalar.plain` — the text of a scalar and the cursor after it.
-/

namespace MathSpeech.Yaml

/-- **What can be wrong with a YAML text.** -/
inductive Fault
  /-- The text is no YAML document, or its nodes do not fit together. -/
  | malformed
  /-- A number is asked for where there is none. -/
  | notNumber
  /-- A truth value is asked for where there is none. -/
  | notBoolean
deriving DecidableEq, Repr

namespace Scalar

/-- What a scan gives: its text, and the cursor after it. -/
abbrev Scan := Except Fault (Text × Cursor)

/-- A line break and the breaks after it, folded. -/
def fold (lineBreak breaks : Text) : Text :=
  if lineBreak != ['\n'] then lineBreak ++ breaks
  else if breaks.isEmpty then [' '] else breaks

/-! ## Between quotation marks -/

/-- The characters that a letter after a backslash stands for. -/
def escapes : List (Char × Char) := [
  ('0', '\x00'), ('a', '\x07'), ('b', '\x08'), ('t', '\t'), ('\t', '\t'), ('n', '\n'),
  ('v', '\x0b'), ('f', '\x0c'), ('r', '\r'), ('e', '\x1b'), (' ', ' '), ('"', '"'),
  ('\\', '\\'), ('/', '/'), ('N', '\u0085'), ('_', '\u00a0'), ('L', '\u2028'), ('P', '\u2029')]

/-- The number of hexadecimal digits after a letter after a backslash. -/
def codeLength? : Char → Option Nat
  | 'x' => some 2
  | 'u' => some 4
  | 'U' => some 8
  | _ => none

/-- A character that stands for itself between quotation marks of both kinds. -/
def isOrdinary (c : Char) : Bool := !(c = '\'' || c = '"' || c = '\\' || isSpace c)

/-- The empty lines between two lines of a quoted scalar.  A line that divides documents must not
come there. -/
def quotedBreaks : Nat → Cursor → Scan
  | 0, _ => .error .malformed
  | fuel + 1, c =>
    if dividesDocuments c.rest then .error .malformed
    else
      let c := c.dropWhile isGap
      match c.lineBreak? with
      | some (b, c) => do
        let (bs, c) ← quotedBreaks fuel c
        return (b ++ bs, c)
      | none => return ([], c)

/-- **What a backslash and the characters after it stand for**; the cursor is after the
backslash. -/
def escape (c : Cursor) : Scan :=
  match c.rest with
  | [] => .error .malformed
  | ch :: rest =>
    match escapes.lookup ch with
    | some value => .ok ([value], c.next)
    | none =>
      match codeLength? ch with
      | some length =>
        let digits := rest.take length
        match hexNumber? digits with
        | some n =>
          if digits.length < length then .error .malformed
          else if 0x110000 ≤ n then .error .notNumber
          else .ok ([Char.ofNat n], c.advance (1 + length))
        | none => .error .malformed
      | none =>
        match c.lineBreak? with
        | some (_, c) => quotedBreaks (c.rest.length + 1) c
        | none => .error .malformed

/-- A run of characters without spaces. -/
def quotedRun (double : Bool) : Nat → Cursor → Scan
  | 0, _ => .error .malformed
  | fuel + 1, c => do
    let (t, c) := c.takeWhile isOrdinary
    let more (piece : Text) (c : Cursor) : Scan := do
      let (rest, c) ← quotedRun double fuel c
      return (t ++ piece ++ rest, c)
    match double, c.rest with
    | false, '\'' :: '\'' :: _ => more ['\''] (c.advance 2)
    | true, '\'' :: _ => more ['\''] c.next
    | false, '"' :: _ => more ['"'] c.next
    | false, '\\' :: _ => more ['\\'] c.next
    | true, '\\' :: _ => do
      let (piece, c) ← escape c.next
      more piece c
    | _, _ => return (t, c)

/-- The spaces between two runs. -/
def quotedSpaces (c : Cursor) : Scan :=
  let (gaps, c) := c.takeWhile isGap
  match c.lineBreak? with
  | some (b, c) => do
    let (bs, c) ← quotedBreaks (c.rest.length + 1) c
    return (fold b bs, c)
  | none => if c.rest.isEmpty then .error .malformed else .ok (gaps, c)

/-- Runs and spaces up to the closing mark. -/
def quotedRest (mark : Char) : Nat → Cursor → Scan
  | 0, _ => .error .malformed
  | fuel + 1, c =>
    if c.head? = mark then .ok ([], c.next)
    else do
      let (gaps, c) ← quotedSpaces c
      let (t, c) ← quotedRun (mark = '"') (c.rest.length + 1) c
      let (rest, c) ← quotedRest mark fuel c
      return (gaps ++ t ++ rest, c)

/-- **A scalar between quotation marks**; the cursor is at the opening mark. -/
def quoted (mark : Char) (c : Cursor) : Scan := do
  let c := c.next
  let (t, c) ← quotedRun (mark = '"') (c.rest.length + 1) c
  let (rest, c) ← quotedRest mark (c.rest.length + 1) c
  return (t ++ rest, c)

/-! ## Blocks of lines -/

/-- **What becomes of the line breaks at the end of a block.** -/
inductive Chomping
  | strip
  | clip
  | keep
deriving DecidableEq, Repr

/-- The chomping that a mark stands for. -/
def chomping? : Text → Option Chomping
  | '+' :: _ => some .keep
  | '-' :: _ => some .strip
  | _ => none

/-- The indentation that a digit stands for; zero is none. -/
def increment? (c : Cursor) : Except Fault (Option Nat × Cursor) :=
  match c.rest with
  | ch :: _ =>
    if ch.isDigit then
      if ch = '0' then .error .malformed else .ok (some (ch.toNat - '0'.toNat), c.next)
    else .ok (none, c)
  | [] => .ok (none, c)

/-- **The header of a block**: a chomping and an indentation in any order. -/
def blockHeader (c : Cursor) : Except Fault (Chomping × Option Nat × Cursor) := do
  let (chomping, increment, c) ← match chomping? c.rest with
    | some chomping => do
      let (increment, c) ← increment? c.next
      pure (chomping, increment, c)
    | none => do
      let (increment, c) ← increment? c
      match increment, chomping? c.rest with
      | some _, some chomping => pure (chomping, increment, c.next)
      | _, _ => pure (.clip, increment, c)
  if plainSpaceFollows c.rest then return (chomping, increment, c) else throw .malformed

/-- The empty lines before a block, and the greatest column that blanks reach there. -/
def blockIndentation : Nat → Nat → Cursor → Text × Nat × Cursor
  | 0, widest, c => ([], widest, c)
  | fuel + 1, widest, c =>
    match c.lineBreak? with
    | some (b, c) =>
      let (bs, widest, c) := blockIndentation fuel widest c
      (b ++ bs, widest, c)
    | none =>
      if c.head? = ' ' then blockIndentation fuel (max widest c.next.column) c.next
      else ([], widest, c)

/-- The empty lines between two lines of a block. -/
def blockBreaks (column : Nat) : Nat → Cursor → Text × Cursor
  | 0, c => ([], c)
  | fuel + 1, c =>
    let c := c.indentTo column
    match c.lineBreak? with
    | some (b, c) =>
      let (bs, c) := blockBreaks column fuel c
      (b ++ bs, c)
    | none => ([], c)

/-- The line begins with a blank. -/
def beginsWithGap (c : Cursor) : Bool := (c.head?.map isGap).getD false

/-- **The lines of a block**, after the empty lines `breaks`.  In a folded block a break between two
lines that begin without a blank is folded. -/
def blockLines (folded : Bool) (chomping : Chomping) (column : Nat) :
    Nat → (lineBreak breaks : Text) → Cursor → Text × Cursor
  | 0, _, _, c => ([], c)
  | fuel + 1, lineBreak, breaks, c =>
    if c.column = column ∧ !c.rest.isEmpty then
      let gap := beginsWithGap c
      let (t, c) := c.takeWhile fun ch => !isBreak ch
      let (b, c) := c.lineBreak?.getD ([], c)
      let (bs, c) := blockBreaks column (c.rest.length + 1) c
      let joint : Text :=
        if c.column = column ∧ !c.rest.isEmpty then
          if folded ∧ b = ['\n'] ∧ !gap ∧ !beginsWithGap c then
            (if bs.isEmpty then [' '] else [])
          else b
        else []
      let (rest, c) := blockLines folded chomping column fuel b bs c
      (breaks ++ t ++ joint ++ rest, c)
    else
      let tail : Text := match chomping with
        | .strip => []
        | .clip => lineBreak
        | .keep => lineBreak ++ breaks
      (tail, c)

/-- **A block of lines** inside an indentation; the cursor is at its mark. -/
def block (folded : Bool) (indent : Int) (c : Cursor) : Scan := do
  let (chomping, increment, c) ← blockHeader c.next
  match c.endOfLine? with
  | none => throw .malformed
  | some c =>
    let least := max 1 (indent + 1).toNat
    let (breaks, column, c) := match increment with
      | some n =>
        let column := least + n - 1
        let (bs, c) := blockBreaks column (c.rest.length + 1) c
        (bs, column, c)
      | none =>
        let (bs, widest, c) := blockIndentation (c.rest.length + 1) 0 c
        (bs, max least widest, c)
    return blockLines folded chomping column (c.rest.length + 1) [] breaks c

/-! ## Plain scalars -/

/-- The marks inside a flow collection. -/
def flowMarks : Text := [',', '[', ']', '\x7b', '\x7d']

/-- A colon that ends a plain scalar, because of what follows it. -/
def colonEnds (inFlow : Bool) (rest : Text) : Bool :=
  spaceFollows rest || (inFlow && rest.head?.any fun c => decide (c ∈ flowMarks))

/-- The length of the word that a text begins with. -/
def wordLength (inFlow : Bool) : Text → Nat
  | [] => 0
  | c :: rest =>
    if isSpace c then 0
    else if c = ':' && colonEnds inFlow rest then 0
    else if inFlow && (c = '?' || c ∈ flowMarks) then 0
    else wordLength inFlow rest + 1

/-- The empty lines inside a plain scalar; none at all if a line divides documents. -/
def plainBreaks : Nat → Cursor → Option Text × Cursor
  | 0, c => (none, c)
  | fuel + 1, c =>
    if c.head? = ' ' then plainBreaks fuel c.next
    else match c.lineBreak? with
      | some (b, c) =>
        if dividesDocuments c.rest then (none, c)
        else
          let (bs, c) := plainBreaks fuel c
          (bs.map fun bs => b ++ bs, c)
      | none => (some [], c)

/-- **The spaces after a word**: what they stand for unless the scalar ends here, and whether there
is a line break among them. -/
def plainSpaces (c : Cursor) : Option Text × Bool × Cursor :=
  let (gaps, c) := c.takeWhile (· = ' ')
  match c.lineBreak? with
  | some (b, c) =>
    if dividesDocuments c.rest then (none, true, c)
    else
      let (bs, c) := plainBreaks (c.rest.length + 1) c
      (bs.map (fold b), true, c)
  | none => (if gaps.isEmpty then none else some gaps, false, c)

/-- Words and the spaces between them.  The scalar ends before a comment, before a line that is not
indented enough, and where no word follows. -/
def plainWords (inFlow : Bool) (column : Nat) : Nat → Text → Bool → Cursor → Text × Bool × Cursor
  | 0, _, crossed, c => ([], crossed, c)
  | fuel + 1, gaps, crossed, c =>
    let length := if c.head? = '#' then 0 else wordLength inFlow c.rest
    if length = 0 then ([], crossed, c)
    else
      let word := c.rest.take length
      match plainSpaces (c.advance length) with
      | (some next, crossed, c) =>
        if c.head? = '#' ∨ (!inFlow ∧ c.column < column) then (gaps ++ word, crossed, c)
        else
          let (rest, crossed, c) := plainWords inFlow column fuel next crossed c
          (gaps ++ word ++ rest, crossed, c)
      | (none, crossed, c) => (gaps ++ word, crossed, c)

/-- **A plain scalar** inside an indentation: its text, whether a line break came after its last
word, and the cursor after it. -/
def plain (inFlow : Bool) (indent : Int) (c : Cursor) : Text × Bool × Cursor :=
  plainWords inFlow (indent + 1).toNat (c.rest.length + 1) [] false c

end Scalar

end MathSpeech.Yaml
