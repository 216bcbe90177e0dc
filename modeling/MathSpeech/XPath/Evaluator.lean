import MathSpeech.Evaluator
import MathSpeech.NamedFunctions
import MathSpeech.Settings
import MathSpeech.XPath.Evaluation
import MathSpeech.XPath.Parser

/-!
# XPath/Evaluator — the evaluator of XPath expressions

The evaluator finds the first item of what an expression selects, and takes any value as a
constraint.  Names of custom queries come before expressions.  Whatever cannot be read or has no
value selects nothing and does not hold, and so does everything at a missing node.

Two evaluators are given: `evaluator` reads an expression whenever it is asked, and
`cachedEvaluator` keeps the expressions that it has read.
-/

namespace MathSpeech.XPath

/-- **An item of a result**: a node of the tree, the value of an attribute or text, or a namespace
with its prefix, which is empty for the default one. -/
inductive Item
  | node (address : Address)
  | value (t : Text)
  | binding (label space : Text)
deriving DecidableEq, Repr

/-- **Why an expression cannot be asked about.** -/
inductive Fault
  /-- The node is a comment or a processing instruction. -/
  | notElement
  /-- The expression, a prefix or a namespace has characters that cannot stand in a document. -/
  | forbiddenCharacter
  /-- A prefix or a namespace is empty. -/
  | emptySpace
deriving DecidableEq, Repr

/-- **The item of a node**; the document itself is none. -/
def Node.item? (n : Node) : Option Item :=
  match n.content with
  | .document _ => none
  | .tree (.text t) => some (.value t)
  | .tree _ => some (.node n.address)
  | .attribute _ value => some (.value value)
  | .binding label space => some (.binding label space)

/-- **A result**: the value of an expression with items for nodes. -/
inductive Result
  | items (is : List Item)
  | boolean (b : Bool)
  | number (x : Float)
  | text (t : Text)

/-- The result of a value. -/
def Object.result : Object → Result
  | .nodes ns => .items (ns.filterMap Node.item?)
  | .boolean b => .boolean b
  | .number x => .number x
  | .text t => .text t

/-- The first item of a result, if it is a node set. -/
def Result.first? : Result → Option Item
  | .items is => is.head?
  | _ => none

/-- **The truth of a result.** -/
def Result.holds : Result → Bool
  | .items is => !is.isEmpty
  | .boolean b => b
  | .number x => x != 0 && !x.isNaN
  | .text t => !t.isEmpty

/-- The truth of any value as a result: what is not a number is false. -/
def holdsAsResult : Value → Bool
  | .float x => x != 0 && !x.isNaN
  | v => v.isTrue

/-! ## Custom queries -/

/-- **A custom query**: from a node reference to a list of references. -/
abbrev CustomQuery := Option Item → List (Option Item)

/-- **The setting of an evaluator**: the document, the namespaces and the custom queries. -/
structure Setting where
  environment : Environment
  custom : NamedFunctions CustomQuery

/-- The namespaces that settings give to prefixes. -/
def spacesOf (settings : Value) : OrderedMap Text Text :=
  match Settings.nested? settings "xpath.namespaces" with
  | some (.map entries) => .ofList (entries.filterMap fun
    | (.text label, .text space) => some (label, space)
    | _ => none)
  | _ => .singleton "mathml" Settings.mathmlNamespace

/-- The node of an item; a mere value has none. -/
def Setting.nodeOf? (s : Setting) : Item → Option Node
  | .node address => s.environment.document.nodeAt? address
  | .value _ | .binding _ _ => none

/-! ## Labels -/

/-- **The form of a namespace**: its prefix, if it has one, and itself. -/
def shownBinding (label space : Text) : Text :=
  let start : Text := if label.isEmpty then "None" else label.quoted
  '(' :: start ++ ", " ++ space.quoted ++ ")"

/-- **The form of a node** that has no tag: a comment, an instruction or a value. -/
def shownContent : Content → Text
  | .tree (.comment t) => "<!--" ++ t ++ "-->"
  | .tree (.instruction target []) => "<?" ++ target ++ "?>"
  | .tree (.instruction target data) => "<?" ++ target ++ " " ++ data ++ "?>"
  | _ => []

/-- **The label of an item**: the local name of an element, or else the form of what it is, cut to
forty characters. -/
def Setting.label (s : Setting) : Item → Text
  | .value t => abbreviated t.quoted
  | .binding label space => abbreviated (shownBinding label space)
  | .node address =>
    match (s.environment.document.nodeAt? address).map Node.content with
    | some (.tree (.element name _ _ _)) => name.label
    | some content => abbreviated (shownContent content)
    | none => []

/-! ## Evaluation -/

/-- A character that can stand in a document. -/
def isDocumentCharacter (c : Char) : Bool :=
  let n := c.toNat
  n = 9 || n = 10 || n = 13 || (32 ≤ n && n ≠ 0xFFFE && n ≠ 0xFFFF)

/-- A text that a document could hold; any other is a fault. -/
def accept (t : Text) : Except Fault Unit :=
  if t.all isDocumentCharacter then .ok () else .error .forbiddenCharacter

/-- Namespaces under prefixes, none of which may be empty. -/
def acceptSpaces : List (Text × Text) → Except Fault Unit
  | [] => .ok ()
  | (label, space) :: rest => do
    if label.isEmpty || space.isEmpty then throw .emptySpace
    accept label
    accept space
    acceptSpaces rest

/-- **An expression that can be read in a setting**: the namespaces are looked at first. -/
def Setting.accept (s : Setting) (expression : Text) : Except Fault Unit := do
  acceptSpaces s.environment.spaces.entries
  XPath.accept expression

/-- **The result of an expression that was read**, at an item.  Only elements can be asked. -/
def Setting.resultAt (s : Setting) (item : Option Item) (e : Expr) :
    Except Fault (Option Result) :=
  match item.bind s.nodeOf? with
  | none => .ok none
  | some n =>
    if n.isElement then .ok ((e.evaluate s.environment ⟨n, none⟩).map Object.result)
    else .error .notElement

/-- **The result of an expression** at an item; none if the expression cannot be read or has no
value. -/
def Setting.result (s : Setting) (item : Option Item) (expression : Text) :
    Except Fault (Option Result) := do
  s.accept expression
  match Expr.parse expression with
  | some e => s.resultAt item e
  | none => return none

section

variable {m : Type → Type} [Monad m]

/-- **The evaluator over a way to get results**: custom queries first, then expressions. -/
def Setting.evaluatorWith (s : Setting) (result : Option Item → Text → m (Option Result)) :
    Evaluator m Item where
  query item expression :=
    match s.custom.lookup expression with
    | some f => pure ((f item).head?.bind id)
    | none => do return (← result item expression).bind Result.first?
  holds item expression :=
    match s.custom.lookup expression with
    | some f => pure !(f item).isEmpty
    | none => do return ((← result item expression).map Result.holds).getD false
  label := s.label

end

/-- **The evaluator** that reads every expression anew. -/
def Setting.evaluator (s : Setting) : Evaluator (Except Fault) Item := s.evaluatorWith s.result

/-! ## The cache -/

/-- **A cache**: what reading gave for the expressions asked so far. -/
abbrev Cache := OrderedMap Text (Option Expr)

/-- Evaluation with a cache as the state, which a fault does not undo. -/
abbrev Cached := ExceptT Fault (StateM Cache)

/-- An expression as it is in the cache, or read and put there. -/
def lookUp (expression : Text) : Cached (Option Expr) := do
  match (← get).get? expression with
  | some e => return e
  | none =>
    let e := Expr.parse expression
    modify fun cache => cache.insert expression e
    return e

/-- The result of an expression, which is read only if the cache does not know it. -/
def Setting.cachedResult (s : Setting) (item : Option Item) (expression : Text) :
    Cached (Option Result) := do
  ExceptT.mk (pure (s.accept expression))
  match ← lookUp expression with
  | some e => ExceptT.mk (pure (s.resultAt item e))
  | none => return none

/-- **The evaluator with a cache.** -/
def Setting.cachedEvaluator (s : Setting) : Evaluator Cached Item := s.evaluatorWith s.cachedResult

/-- The short form of an evaluator with its cache. -/
def Setting.summary (s : Setting) (cache : Cache) : Text :=
  let labels := s.environment.spaces.keys.mergeSort Text.atMost
  "XPathEvaluator(namespaces=[" ++ Text.joined ", " (labels.map Text.quoted)
    ++ "], custom_queries=" ++ Text.ofNat s.custom.functions.size
    ++ ", cached=" ++ Text.ofNat cache.size ++ ")"

end MathSpeech.XPath
