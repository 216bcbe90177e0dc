import MathSpeech.XPath.Expression
import MathSpeech.XPath.Number

/-!
# XPath/Parser — reading an expression

A **reader** takes something from the beginning of a text and leaves the rest.  There are no tokens:
the names of the operators `or`, `and`, `div` and `mod` are operators wherever an operator can
stand, even if a letter follows.  Expressions may be nested five hundred deep.

* `Expr.parse` — the expression that a whole text stands for.
-/

namespace MathSpeech.XPath

/-- **A reader**: the text is the state, and reading may fail. -/
abbrev Reader := StateT Text Option

namespace Reader

/-! ## Characters -/

/-- Passes over blanks. -/
def skip : Reader Unit := modify fun t => t.dropWhile Number.isBlank

/-- Takes a mark if it comes next. -/
def accept (mark : Text) : Reader Bool := fun t =>
  if mark.isPrefixOf t then some (true, t.drop mark.length) else some (false, t)

/-- Takes a mark that has to come next. -/
def expect (mark : Text) : Reader Unit := do guard (← accept mark)

/-- The character that comes next. -/
def peek : Reader (Option Char) := return (← get).head?

/-- **Repeats a step** on a value until it declines.  A step that does not decline takes a character
at least, so that the length of the text bounds the repetitions. -/
def repeated {α : Type} (step : α → Reader (Option α)) (a : α) : Reader α := do
  loop (← get).length a
where
  /-- At most so many steps. -/
  loop : Nat → α → Reader α
    | 0, a => pure a
    | n + 1, a => do
      match ← step a with
      | some b => loop n b
      | none => pure a

/-! ## Names -/

/-- A character that a name can begin with. -/
def startsName (c : Char) : Bool :=
  let n := c.toNat
  c.isAlpha || c = '_' || (0xC0 ≤ n && n ≤ 0x2FF && n != 0xD7 && n != 0xF7)
    || (0x370 ≤ n && n ≤ 0x1FFF && n != 0x37E) || n = 0x200C || n = 0x200D
    || (0x2070 ≤ n && n ≤ 0x218F) || (0x2C00 ≤ n && n ≤ 0x2FEF) || (0x3001 ≤ n && n ≤ 0xD7FF)
    || (0xF900 ≤ n && n ≤ 0xFDCF) || (0xFDF0 ≤ n && n ≤ 0xFFFD) || (0x10000 ≤ n && n ≤ 0xEFFFF)

/-- A character that a name can go on with. -/
def continuesName (c : Char) : Bool :=
  let n := c.toNat
  startsName c || c.isDigit || c = '-' || c = '.' || n = 0xB7 || (0x300 ≤ n && n ≤ 0x36F)
    || n = 0x203F || n = 0x2040

/-- A name without a colon, if one comes next. -/
def name? : Reader (Option Text) := fun t =>
  match t with
  | c :: _ =>
    if startsName c then some (some (t.takeWhile continuesName), t.dropWhile continuesName)
    else some (none, t)
  | [] => some (none, [])

/-- A name without a colon. -/
def name : Reader Text := do
  match ← name? with
  | some n => return n
  | none => failure

/-- A name with an optional prefix. -/
def qualified : Reader (Option Text × Text) := do
  let first ← name
  if ← accept ":" then return (some first, ← name) else return (none, first)

/-- A text between quotation marks of one kind. -/
def literal : Reader Text := fun t =>
  match t with
  | '"' :: rest => Text.cut '"' rest
  | '\'' :: rest => Text.cut '\'' rest
  | _ => none

/-! ## Steps -/

/-- The test that a name with parentheses stands for. -/
def kindTest (kind : Text) : Reader Test := do
  skip
  if kind = "node".toList then return .node
  else if kind = "text".toList then return .text
  else if kind = "comment".toList then return .comment
  else if kind = "processing-instruction".toList then
    if (← peek) = ')' then return .instruction none
    else
      let target ← literal
      skip
      return .instruction (some target)
  else failure

/-- A test that begins with a name.  A colon makes the name a prefix, unless blanks come before
it. -/
def namedTest (first : Text) : Reader Test := do
  let apart := ((← peek).map Number.isBlank).getD false
  skip
  if ← accept "(" then
    let test ← kindTest first
    expect ")"
    return test
  else if !apart && (← peek) = ':' then
    expect ":"
    if ← accept "*" then return .any (some first) else return .name (some first) (← name)
  else return .name none first

/-- A test. -/
def test : Reader Test := do
  skip
  if ← accept "*" then return .any none else namedTest (← name)

/-- **An axis and a test.**  The name of an axis is one only before a double colon. -/
def axisAndTest : Reader (Axis × Test) := do
  if ← accept "@" then return (.attribute, ← test)
  else match ← name? with
    | none => return (.child, ← test)
    | some first =>
      match Axis.ofName? first with
      | none => return (.child, ← namedTest first)
      | some axis =>
        skip
        if ← accept "::" then return (axis, ← test) else return (.child, ← namedTest first)

section

variable (nested : Reader Expr)

/-- A predicate in brackets, if one comes next. -/
def predicate? : Reader (Option Expr) := do
  skip
  if ← accept "[" then
    skip
    let e ← nested
    expect "]"
    skip
    return some e
  else return none

/-- All predicates that come next. -/
def predicates : Reader (List Expr) :=
  repeated (fun es => return (← predicate? nested).map fun e => es ++ [e]) []

/-- **A step** from an expression.  A point leads nowhere else, and two points to the parent. -/
def step (start : Expr) : Reader Expr := do
  skip
  if ← accept ".." then
    skip
    return .step start .parent .node []
  else if ← accept "." then
    skip
    return start
  else
    let (axis, test) ← axisAndTest
    return .step start axis test (← predicates nested)

/-- The slash or double slash between two steps, if one comes next. -/
def slash? (start : Expr) : Reader (Option Expr) := do
  if ← accept "//" then
    skip
    return some start.andBelow
  else if ← accept "/" then
    skip
    return some start
  else return none

/-- **A chain of steps**, which may begin with a slash. -/
def relativePath (start : Expr) : Reader Expr := do
  skip
  let start := (← slash? start).getD start
  let first ← step nested start
  skip
  repeated (fun e => do
    match ← slash? e with
    | some e =>
      let e ← step nested e
      skip
      return some e
    | none => return none) first

/-- A character that a step can begin with after a slash at the beginning of a path; of the letters
these are the ASCII ones. -/
def startsStep (c : Char) : Bool := c.isAlpha || c = '_' || c = '.' || c = '@' || c = '*'

/-- What follows a slash at the beginning of a path. -/
def fromRoot (e : Expr) : Reader (Option Expr) := do
  if ← accept "//" then
    skip
    return some (← relativePath nested e.andBelow)
  else if ← accept "/" then
    skip
    if ((← peek).map startsStep).getD false then return some (← relativePath nested e)
    else return some e
  else return none

/-- **A location path.** -/
def locationPath : Reader Expr := do
  skip
  if (← peek) = '/' then repeated (fromRoot nested) .root else relativePath nested .here

/-! ## Primary expressions -/

/-- The arguments of a call up to the closing parenthesis, which may be missing at the end of the
text. -/
def arguments : Reader (List Expr) := do
  skip
  if (← peek) = ')' then
    expect ")"
    return []
  else loop (← get).length []
where
  /-- At most so many arguments. -/
  loop : Nat → List Expr → Reader (List Expr)
    | 0, es => pure es
    | n + 1, es => do
      if (← get).isEmpty then return es
      let e ← nested
      if ← accept ")" then return es ++ [e]
      expect ","
      skip
      loop n (es ++ [e])

/-- A call of a function. -/
def call : Reader Expr := do
  let (space, label) ← qualified
  skip
  expect "("
  return .call space label (← arguments nested)

/-- An expression between parentheses; a mere number or text is not changed by them. -/
def grouped : Reader Expr := do
  skip
  let e ← nested
  expect ")"
  match e with
  | .number x => return .number x
  | .literal t => return .literal t
  | e => return .group e

/-- A digit, or a point before a digit. -/
def startsNumber : Text → Bool
  | '.' :: c :: _ => c.isDigit
  | c :: _ => c.isDigit
  | [] => false

/-- **A primary expression.** -/
def primary : Reader Expr := do
  let t ← get
  let e ← if startsNumber t then do
      let (x, rest) ← Number.takeUnsigned? t
      set rest
      pure (Expr.number x)
    else match t with
      | '$' :: rest => do
        set rest
        let (space, label) ← qualified
        pure (.variable space label)
      | '(' :: rest => do
        set rest
        grouped nested
      | '\'' :: _ | '"' :: _ => return .literal (← literal)
      | _ => call nested
  skip
  return e

/-- A primary expression with its predicates, and then perhaps a chain of steps. -/
def filterPath : Reader Expr := do
  let base ← primary nested
  let e ← repeated (fun e => return (← predicate? nested).map fun p => .filter e p) base
  if (← peek) = '/' then relativePath nested e else return e

/-- The names of the tests with parentheses. -/
def kinds : List Text := ["node", "text", "comment", "processing-instruction"]

/-- A double colon inside a text. -/
def hasDoubleColon : Text → Bool
  | ':' :: ':' :: _ => true
  | _ :: t => hasDoubleColon t
  | [] => false

/-- **What begins with a name**: a call, if a parenthesis follows and the name is not that of a
test; else a path. -/
def isCall (t : Text) : Bool :=
  let inName (c : Char) := continuesName c || c = ':'
  let n := t.takeWhile inName
  let rest := (t.dropWhile inName).dropWhile Number.isBlank
  !hasDoubleColon n && rest.head? = '(' && !kinds.contains n

/-- **A path**: the beginning of the text decides of which kind. -/
def path : Reader Expr := do
  skip
  let t ← get
  let e ← match t with
    | '$' :: _ | '(' :: _ | '\'' :: _ | '"' :: _ => filterPath nested
    | '*' :: _ | '/' :: _ | '@' :: _ => locationPath nested
    | '.' :: _ => if startsNumber t then filterPath nested else locationPath nested
    | c :: _ =>
      if c.isDigit then filterPath nested
      else if startsName c || c = ':' then
        if isCall t then filterPath nested else locationPath nested
      else failure
    | [] => failure
  skip
  return e

/-! ## Operators -/

/-- **A chain of operands** that are joined from the left by operators. -/
def chain (operand : Reader Expr) (operator? : Reader (Option (Expr → Expr → Expr))) :
    Reader Expr := do
  let first ← operand
  skip
  repeated (fun e => do
    match ← operator? with
    | some join =>
      skip
      let e' ← operand
      skip
      return some (join e e')
    | none => return none) first

/-- The first of several operators that comes next. -/
def operators : List (String × (Expr → Expr → Expr)) → Reader (Option (Expr → Expr → Expr))
  | [] => return none
  | (mark, join) :: rest => do if ← accept mark then return some join else operators rest

/-- Paths joined by strokes. -/
def unions : Reader Expr := chain (path nested) (operators [("|", .union)])

/-- The minus signs that come next: whether there are any, and whether their number is odd. -/
def minusSigns : Reader (Bool × Bool) :=
  repeated (fun (_, odd) => do
    if ← accept "-" then
      skip
      return some (true, !odd)
    else return none) (false, false)

/-- An operand after minus signs. -/
def unary : Reader Expr := do
  skip
  let (any, odd) ← minusSigns
  let e ← unions nested
  return if any then .signed odd e else e

/-- Products. -/
def products : Reader Expr :=
  chain (unary nested) (operators [("*", .arithmetic .times), ("div", .arithmetic .divide),
    ("mod", .arithmetic .remainder)])

/-- Sums. -/
def sums : Reader Expr :=
  chain (products nested) (operators [("+", .arithmetic .plus), ("-", .arithmetic .minus)])

/-- Comparisons by size. -/
def relations : Reader Expr :=
  chain (sums nested) (operators [("<=", .compare .lessOrEqual), ("<", .compare .less),
    (">=", .compare .greaterOrEqual), (">", .compare .greater)])

/-- Comparisons for equality. -/
def equalities : Reader Expr :=
  chain (relations nested) (operators [("=", .compare .equal), ("!=", .compare .unequal)])

/-- Conjunctions. -/
def conjunctions : Reader Expr := chain (equalities nested) (operators [("and", .and)])

/-- Disjunctions. -/
def disjunctions : Reader Expr := chain (conjunctions nested) (operators [("or", .or)])

end

/-- **An expression** that is nested at most so deep. -/
def expression : Nat → Reader Expr
  | 0 => failure
  | depth + 1 => disjunctions (expression depth)

end Reader

/-- **Reading an expression**: the whole text has to be one. -/
def Expr.parse (t : Text) : Option Expr :=
  match Reader.expression 500 t with
  | some (e, []) => some e
  | _ => none

end MathSpeech.XPath
