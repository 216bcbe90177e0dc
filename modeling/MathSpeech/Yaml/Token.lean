import MathSpeech.OrderedMap
import MathSpeech.Yaml.Scalar

/-!
# Yaml/Token — the tokens of a YAML text

Indentation becomes tokens too: `blockEnd` closes what a deeper column opened.  A key of a mapping
is recognised only at the colon after it, so the places where a **possible key** began are kept, one
for each level of brackets; at the colon a key token is put in there.  A possible key stays on its
line and within 1024 characters.

* `Token.scan` — all tokens of a text.
-/

namespace MathSpeech.Yaml

/-- **A token.** -/
inductive Token
  | versionDirective (major : Nat)
  | tagDirective (handle start : Text)
  | otherDirective
  | documentStart
  | documentEnd
  | blockSequenceStart
  | blockMappingStart
  | blockEnd
  | flowSequenceStart
  | flowSequenceEnd
  | flowMappingStart
  | flowMappingEnd
  | flowEntry
  | blockEntry
  | key
  | value
  | reference (name : Text)
  | anchor (name : Text)
  | tag (handle : Option Text) (suffix : Text)
  | scalar (t : Text) (isPlain : Bool)
deriving DecidableEq, Repr

/-- **A possible key**: the number of the token that it begins with, and where that stands.  One at
the indentation of a block has to turn out to be a key. -/
structure PossibleKey where
  number : Nat
  required : Bool
  index : Nat
  line : Nat
  column : Nat

/-- **A scan under way.** -/
structure Scanner where
  cursor : Cursor
  /-- The number of open brackets. -/
  flow : Nat := 0
  /-- The column of the innermost block, and those of the blocks around it. -/
  indent : Int := -1
  outer : List Int := []
  /-- Whether a key can begin here. -/
  keysAllowed : Bool := true
  /-- The possible keys by level of brackets. -/
  keys : OrderedMap Nat PossibleKey := .empty
  /-- The tokens, the last one first. -/
  tokens : List Token := []

namespace Scanner

/-- What comes next. -/
def rest (s : Scanner) : Text := s.cursor.rest

/-- One more token. -/
def push (s : Scanner) (t : Token) : Scanner := { s with tokens := t :: s.tokens }

/-- One more token, of so many characters. -/
def take (s : Scanner) (t : Token) (length : Nat) : Scanner :=
  { s.push t with cursor := s.cursor.advance length }

/-- Puts a token before all tokens from number `number` on. -/
def splice (s : Scanner) (t : Token) (number : Nat) : Scanner :=
  let later := s.tokens.length - number
  { s with tokens := s.tokens.take later ++ t :: s.tokens.drop later }

/-! ## Indentation -/

/-- Closes the blocks that are indented deeper than a column. -/
def unwindFrom (column indent : Int) : List Int → Int × List Int × Nat
  | [] => (indent, [], 0)
  | outer :: rest =>
    if column < indent then
      let (indent, rest, n) := unwindFrom column outer rest
      (indent, rest, n + 1)
    else (indent, outer :: rest, 0)

/-- **Unwinding**: blocks that are indented deeper than a column end, unless brackets are open. -/
def unwind (s : Scanner) (column : Int) : Scanner :=
  if s.flow = 0 then
    let (indent, outer, n) := unwindFrom column s.indent s.outer
    { s with indent, outer, tokens := List.replicate n .blockEnd ++ s.tokens }
  else s

/-- Whether a column opens a block. -/
def opens (s : Scanner) (column : Nat) : Bool := s.flow = 0 && s.indent < column

/-- The scan inside a block that a column opens. -/
def indented (s : Scanner) (column : Nat) : Scanner :=
  { s with indent := column, outer := s.indent :: s.outer }

/-! ## Possible keys -/

/-- A possible key that is no longer possible. -/
def isStale (c : Cursor) (k : PossibleKey) : Bool := k.line != c.line || 1024 < c.index - k.index

/-- Forgets the possible keys that are no longer possible. -/
def dropStale (s : Scanner) : Except Fault Scanner :=
  let stale := s.keys.entries.filter fun (_, k) => isStale s.cursor k
  if stale.any fun (_, k) => k.required then .error .malformed
  else .ok { s with keys := stale.foldl (fun keys (level, _) => keys.erase level) s.keys }

/-- Forgets the possible key of this level. -/
def dropKey (s : Scanner) : Except Fault Scanner :=
  match s.keys.get? s.flow with
  | some k => if k.required then .error .malformed else .ok { s with keys := s.keys.erase s.flow }
  | none => .ok s

/-- Notes that a key may begin here. -/
def saveKey (s : Scanner) : Except Fault Scanner :=
  if s.keysAllowed then do
    let s ← s.dropKey
    let c := s.cursor
    let k : PossibleKey := {
      number := s.tokens.length, required := s.flow = 0 && s.indent = c.column
      index := c.index, line := c.line, column := c.column }
    return { s with keys := s.keys.insert s.flow k }
  else .ok s

/-! ## Blanks, comments and directives -/

/-- Passes over blanks, comments and line breaks.  Outside brackets a key can begin on every
line. -/
def skip : Nat → Scanner → Scanner
  | 0, s => s
  | fuel + 1, s =>
    let c := (s.cursor.dropWhile (· = ' ')).dropComment
    match c.lineBreak? with
    | some (_, c) => skip fuel { s with cursor := c, keysAllowed := s.keysAllowed || s.flow = 0 }
    | none => { s with cursor := c }

/-- A handle of tags, between exclamation marks; a single mark is one too. -/
def handle? (c : Cursor) : Option (Text × Cursor) :=
  match c.rest with
  | '!' :: rest =>
    if rest.head? = ' ' then some (['!'], c.next)
    else
      let word := rest.takeWhile isWord
      if rest[word.length]? = some '!' then some ('!' :: word ++ ['!'], c.advance (word.length + 2))
      else none
  | _ => none

/-- A character of a tag that is not escaped. -/
def isTagCharacter (c : Char) : Bool := isWord c || c ∈ ";/?:@&=+$,.!~*'()[]".toList

/-- The bytes that begin a text, each after a percent sign. -/
def escapedBytes : Text → List UInt8 × Text
  | '%' :: a :: b :: rest =>
    match hexDigit? a, hexDigit? b with
    | some m, some n =>
      let (bytes, left) := escapedBytes rest
      ((m * 16 + n).toUInt8 :: bytes, left)
    | _, _ => ([], '%' :: a :: b :: rest)
  | t => ([], t)

/-- **The text of a tag**, with escaped characters. -/
def tagText : Nat → Cursor → Except Fault (Text × Cursor)
  | 0, _ => .error .malformed
  | fuel + 1, c => do
    let (t, c) := c.takeWhile isTagCharacter
    if c.head? = '%' then
      let (bytes, left) := escapedBytes c.rest
      if bytes.isEmpty || left.head? = '%' then throw .malformed
      match String.fromUTF8? ⟨bytes.toArray⟩ with
      | none => throw .malformed
      | some s =>
        let (more, c) ← tagText fuel (c.advance (c.rest.length - left.length))
        return (t ++ s.toList ++ more, c)
    else return (t, c)

/-- The text of a tag, with something in it. -/
def filledTagText (c : Cursor) : Except Fault (Text × Cursor) := do
  let (t, c) ← tagText (c.rest.length + 1) c
  if t.isEmpty then throw .malformed else return (t, c)

/-- Digits, of which there has to be one. -/
def digits? (c : Cursor) : Option (Text × Cursor) :=
  let (t, c) := c.takeWhile Char.isDigit
  if t.isEmpty then none else some (t, c)

/-- What a version directive says, after its name. -/
def version (c : Cursor) : Except Fault (Token × Cursor) :=
  match digits? (c.dropWhile (· = ' ')) with
  | some (major, c) =>
    match c.head?, digits? c.next with
    | some '.', some (_, c) =>
      if plainSpaceFollows c.rest then
        .ok (.versionDirective (major.foldl (fun n d => n * 10 + (d.toNat - '0'.toNat)) 0), c)
      else .error .malformed
    | _, _ => .error .malformed
  | none => .error .malformed

/-- What a tag directive says, after its name. -/
def tagHandle (c : Cursor) : Except Fault (Token × Cursor) :=
  match handle? (c.dropWhile (· = ' ')) with
  | some (handle, c) =>
    if c.head? = ' ' then do
      let (start, c) ← filledTagText (c.dropWhile (· = ' '))
      if plainSpaceFollows c.rest then return (.tagDirective handle start, c) else throw .malformed
    else .error .malformed
  | none => .error .malformed

/-- **A directive**; the cursor is at its percent sign. -/
def directive (c : Cursor) : Except Fault (Token × Cursor) := do
  let (name, c) := c.next.takeWhile isWord
  if name.isEmpty || !plainSpaceFollows c.rest then throw .malformed
  let (t, c) ←
    if name = "YAML".toList then version c
    else if name = "TAG".toList then tagHandle c
    else pure (.otherDirective, c.dropWhile fun ch => !isBreak ch)
  match c.endOfLine? with
  | some c => return (t, c)
  | none => throw .malformed

/-! ## Single tokens -/

/-- A token that a scan of characters gives. -/
def give (s : Scanner) (scan : Except Fault (Token × Cursor)) : Except Fault Scanner := do
  let (t, cursor) ← scan
  return { s.push t with cursor }

/-- A directive, at the beginning of a line. -/
def takeDirective (s : Scanner) : Except Fault Scanner := do
  let s ← (s.unwind (-1)).dropKey
  { s with keysAllowed := false }.give (directive s.cursor)

/-- A line that divides documents. -/
def takeDivider (s : Scanner) (t : Token) : Except Fault Scanner := do
  let s ← (s.unwind (-1)).dropKey
  return { s with keysAllowed := false }.take t 3

/-- An opening bracket. -/
def openFlow (s : Scanner) (t : Token) : Except Fault Scanner := do
  let s ← s.saveKey
  return { s with flow := s.flow + 1, keysAllowed := true }.take t 1

/-- A closing bracket. -/
def closeFlow (s : Scanner) (t : Token) : Except Fault Scanner := do
  if s.flow = 0 then throw .malformed
  let s ← s.dropKey
  return { s with flow := s.flow - 1, keysAllowed := false }.take t 1

/-- A comma between brackets. -/
def takeComma (s : Scanner) : Except Fault Scanner := do
  let s ← { s with keysAllowed := true }.dropKey
  return s.take .flowEntry 1

/-- A dash before an entry of a sequence. -/
def takeEntry (s : Scanner) : Except Fault Scanner := do
  if s.flow = 0 && !s.keysAllowed then throw .malformed
  let column := s.cursor.column
  let s := if s.opens column then (s.indented column).push .blockSequenceStart else s
  let s ← { s with keysAllowed := true }.dropKey
  return s.take .blockEntry 1

/-- A question mark before a key. -/
def takeKey (s : Scanner) : Except Fault Scanner := do
  if s.flow = 0 && !s.keysAllowed then throw .malformed
  let column := s.cursor.column
  let s := if s.opens column then (s.indented column).push .blockMappingStart else s
  let s ← { s with keysAllowed := s.flow = 0 }.dropKey
  return s.take .key 1

/-- **A colon before a value.**  If a key could begin before it, it did. -/
def takeValue (s : Scanner) : Except Fault Scanner := do
  match s.keys.get? s.flow with
  | some k =>
    let s := { s with keys := s.keys.erase s.flow, keysAllowed := false }.splice .key k.number
    let s := if s.opens k.column then (s.indented k.column).splice .blockMappingStart k.number
      else s
    return s.take .value 1
  | none =>
    if s.flow = 0 && !s.keysAllowed then throw .malformed
    let column := s.cursor.column
    let s := if s.opens column then (s.indented column).push .blockMappingStart else s
    let s ← { s with keysAllowed := s.flow = 0 }.dropKey
    return s.take .value 1

/-- What can follow the name of an anchor. -/
def endsName : Text → Bool
  | [] => true
  | c :: _ => isSpace c || c ∈ ['?', ':', ',', ']', '\x7d', '%', '@', '\x60']

/-- The name of an anchor or alias, after its mark. -/
def name (c : Cursor) : Except Fault (Text × Cursor) :=
  let (t, c) := c.takeWhile isWord
  if t.isEmpty || !endsName c.rest then .error .malformed else .ok (t, c)

/-- **A tag**: in angle brackets, alone, or after a handle. -/
def tag (c : Cursor) : Except Fault (Token × Cursor) := do
  let (t, c) ← match c.rest.tail with
    | '<' :: _ => do
      let (t, c) ← filledTagText (c.advance 2)
      if c.head? = '>' then pure (Token.tag none t, c.next) else throw .malformed
    | rest =>
      if spaceFollows rest then pure (.tag none ['!'], c.next)
      else if '!' ∈ rest.takeWhile (fun ch => !(ch = ' ' || isBreak ch)) then
        match handle? c with
        | some (handle, c) => do
          let (t, c) ← filledTagText c
          pure (.tag (some handle) t, c)
        | none => throw .malformed
      else do
        let (t, c) ← filledTagText c.next
        pure (.tag (some ['!']) t, c)
  if plainSpaceFollows c.rest then return (t, c) else throw .malformed

/-- A token that may begin a key and that none follows on its line. -/
def takeNamed (s : Scanner) (scan : Cursor → Except Fault (Token × Cursor)) :
    Except Fault Scanner := do
  let s ← s.saveKey
  { s with keysAllowed := false }.give (scan s.cursor)

/-- A block of lines. -/
def takeBlock (s : Scanner) (folded : Bool) : Except Fault Scanner := do
  let s ← { s with keysAllowed := true }.dropKey
  s.give do
    let (t, c) ← Scalar.block folded s.indent s.cursor
    return (.scalar t false, c)

/-- A plain scalar; a key can begin after it if it ends with a line. -/
def takePlain (s : Scanner) : Except Fault Scanner := do
  let s ← s.saveKey
  let (t, keysAllowed, cursor) := Scalar.plain (s.flow != 0) s.indent s.cursor
  return { s.push (.scalar t true) with keysAllowed, cursor }

/-- A character that cannot begin a plain scalar, whatever follows it. -/
def isIndicator (c : Char) : Bool :=
  c ∈ [',', '[', ']', '\x7b', '\x7d', '#', '&', '*', '!', '|', '>', '\'', '"', '%', '@', '\x60']

/-- **What can begin a plain scalar**: some marks only before something else than a space, and of
those only the dash between brackets. -/
def startsPlain (inFlow : Bool) : Text → Bool
  | [] => false
  | c :: rest =>
    if c = '-' then !spaceFollows rest
    else if c = '?' || c = ':' then !inFlow && !spaceFollows rest
    else !isSpace c && !isIndicator c

/-- **The next token.** -/
def fetch (s : Scanner) : Except Fault Scanner :=
  let inFlow := s.flow != 0
  let named (make : Text → Token) := s.takeNamed fun c => do
    let (t, c) ← name c.next
    return (make t, c)
  let quoted (mark : Char) := s.takeNamed fun c => do
    let (t, c) ← Scalar.quoted mark c
    return (.scalar t false, c)
  let plain := if startsPlain inFlow s.rest then s.takePlain else .error .malformed
  if s.cursor.column = 0 && s.rest.head? = '%' then s.takeDirective
  else if s.cursor.column = 0 && dividesDocuments s.rest then
    s.takeDivider (if s.rest.head? = '-' then .documentStart else .documentEnd)
  else match s.rest with
    | '[' :: _ => s.openFlow .flowSequenceStart
    | '\x7b' :: _ => s.openFlow .flowMappingStart
    | ']' :: _ => s.closeFlow .flowSequenceEnd
    | '\x7d' :: _ => s.closeFlow .flowMappingEnd
    | ',' :: _ => s.takeComma
    | '-' :: rest => if spaceFollows rest then s.takeEntry else plain
    | '?' :: rest => if inFlow || spaceFollows rest then s.takeKey else plain
    | ':' :: rest => if inFlow || spaceFollows rest then s.takeValue else plain
    | '*' :: _ => named .reference
    | '&' :: _ => named .anchor
    | '!' :: _ => s.takeNamed tag
    | '|' :: _ => if inFlow then .error .malformed else s.takeBlock false
    | '>' :: _ => if inFlow then .error .malformed else s.takeBlock true
    | '\'' :: _ => quoted '\''
    | '"' :: _ => quoted '"'
    | _ => plain

/-- **All tokens** from here on; every token has a character at least. -/
def run : Nat → Scanner → Except Fault (List Token)
  | 0, _ => .error .malformed
  | fuel + 1, s => do
    let s ← (skip (s.rest.length + 1) s).dropStale
    let s := s.unwind s.cursor.column
    if s.rest.isEmpty then
      let s ← (s.unwind (-1)).dropKey
      return s.tokens.reverse
    else run fuel (← s.fetch)

end Scanner

/-- The text without a byte order mark at its beginning. -/
def Cursor.start (t : Text) : Cursor :=
  let c : Cursor := { rest := t }
  if c.head? = byteOrderMark then c.next else c

/-- **The tokens of a text.** -/
def Token.scan (t : Text) : Except Fault (List Token) :=
  if t.all isPrintable then Scanner.run (t.length + 1) { cursor := .start t } else .error .malformed

end MathSpeech.Yaml
