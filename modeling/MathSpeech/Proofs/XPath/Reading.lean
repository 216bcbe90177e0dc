import MathSpeech.Store
import MathSpeech.XPath.Parser

/-!
# Proofs/XPath/Reading — the query of an element is read as one step

The shorthands for MathML select an element by its name: `Store.elementQuery` puts an axis and a
prefix before it.  If what stands behind them is a name, the whole text is read as the step to the
node itself, with a test for that name (`Expr.parse_elementQuery`).

A reader that is followed by another hands over a value and a rest (`Reader.bind_of`).  The text is
followed through the readers in this way, from the test outward to the path; the levels of operators
around the path find nothing left to read and add nothing (`Reader.chain_of`).
-/

namespace MathSpeech.XPath

open Store (elementQuery)

/-- **The step to a node itself**, if it is a MathML element of that name. -/
def Expr.toElement (n : Text) : Expr :=
  .step .here .self (.name (some ("mathml" : Text)) n) []

namespace Reader

/-! ## Readers one after the other -/

section

variable {α β : Type}

/-- **A reader hands over** to the next one. -/
theorem bind_of {r : Reader α} {f : α → Reader β} {t rest : Text} {a : α}
    (h : r t = some (a, rest)) : (r >>= f) t = f a rest := by
  change (r t >>= fun p => f p.1 p.2) = _
  rw [h]
  rfl

theorem skip_of {c : Char} (h : Number.isBlank c = false) (t : Text) :
    skip (c :: t) = some ((), c :: t) := by
  have hskip : skip (c :: t) = some ((), (c :: t).dropWhile Number.isBlank) := rfl
  rw [hskip, List.dropWhile_cons, h]
  rfl

theorem accept_append (mark t : Text) : accept mark (mark ++ t) = some (true, t) := by
  rw [accept, List.isPrefixOf_iff_prefix.mpr (List.prefix_append mark t), if_pos rfl,
    List.drop_left]

theorem accept_of_not {mark t : Text} (h : mark.isPrefixOf t = false) :
    accept mark t = some (false, t) := by
  rw [accept, h, if_neg Bool.false_ne_true]

/-- A step that declines at once is not repeated. -/
theorem repeated_of_none {step : α → Reader (Option α)} {a : α} {t rest : Text} (ht : t ≠ [])
    (h : step a t = some (none, rest)) : repeated step a t = some (a, rest) := by
  cases t with
  | nil => exact absurd rfl ht
  | cons c cs =>
    have hloop : repeated step a (c :: cs) = repeated.loop step (cs.length + 1) a (c :: cs) := rfl
    rw [hloop, repeated.loop, bind_of h]
    rfl

end

/-! ## Names -/

/-- **A text that is a name** without a colon. -/
def isLocalName : Text → Bool
  | [] => false
  | c :: t => startsName c && (c :: t).all continuesName

variable {n : Text}

theorem name?_of_isLocalName (h : isLocalName n = true) : name? n = some (some n, []) := by
  cases n with
  | nil => cases h
  | cons c t =>
    obtain ⟨hstart, hall⟩ := Bool.and_eq_true_iff.mp h
    have hname : (c :: t ++ []).takeWhile continuesName = c :: t ++ [].takeWhile continuesName :=
      List.takeWhile_append_of_pos (List.all_eq_true.mp hall)
    have hrest : (c :: t ++ []).dropWhile continuesName = [].dropWhile continuesName :=
      List.dropWhile_append_of_pos (List.all_eq_true.mp hall)
    rw [List.append_nil] at hname hrest
    rw [name?, if_pos hstart, hname, hrest, List.takeWhile_nil, List.append_nil,
      List.dropWhile_nil]

theorem name_of_isLocalName (h : isLocalName n = true) : name n = some (n, []) := by
  rw [name, bind_of (name?_of_isLocalName h)]
  rfl

/-- No name begins with a star. -/
theorem accept_star_of_isLocalName (h : isLocalName n = true) : accept "*" n = some (false, n) := by
  cases n with
  | nil => cases h
  | cons c t =>
    have hstart : startsName c = true := (Bool.and_eq_true_iff.mp h).1
    have hstar : c ≠ '*' := by
      rintro rfl
      exact absurd hstart (by decide)
    refine accept_of_not ?_
    change ('*' == c && _) = false
    rw [beq_eq_false_iff_ne.mpr hstar.symm, Bool.false_and]

/-! ## From the test to the path -/

theorem test_mathml (h : isLocalName n = true) :
    test ("mathml:" ++ n : Text) = some (.name (some ("mathml" : Text)) n, []) := by
  have hskip : skip ("mathml:" ++ n : Text) = some ((), "mathml:" ++ n) := skip_of (c := 'm') rfl _
  have hstar : accept "*" ("mathml:" ++ n : Text) = some (false, "mathml:" ++ n) :=
    accept_of_not rfl
  have hname : name ("mathml:" ++ n : Text) = some (("mathml" : Text), ":" ++ n) := rfl
  have hpeek : peek (":" ++ n : Text) = some (some ':', ":" ++ n) := rfl
  have hskip' : skip (":" ++ n : Text) = some ((), ":" ++ n) := skip_of (c := ':') rfl _
  have hopen : accept "(" (":" ++ n : Text) = some (false, ":" ++ n) := accept_of_not rfl
  have hcolon : expect ":" (":" ++ n : Text) = some ((), n) := by
    rw [expect, bind_of (accept_append ..)]
    rfl
  rw [test, bind_of hskip, bind_of hstar, if_neg Bool.false_ne_true, bind_of hname, namedTest,
    bind_of hpeek, bind_of hskip', bind_of hopen, if_neg Bool.false_ne_true, bind_of hpeek,
    if_pos (by decide), bind_of hcolon, bind_of (accept_star_of_isLocalName h),
    if_neg Bool.false_ne_true, bind_of (name_of_isLocalName h)]
  rfl

theorem axisAndTest_elementQuery (h : isLocalName n = true) :
    axisAndTest (elementQuery n) = some ((.self, .name (some ("mathml" : Text)) n), []) := by
  have hat : accept "@" (elementQuery n) = some (false, elementQuery n) := accept_of_not rfl
  have hname : name? (elementQuery n) = some (some ("self" : Text), "::mathml:" ++ n) := rfl
  have haxis : Axis.ofName? "self" = some .self := rfl
  have hskip : skip ("::mathml:" ++ n : Text) = some ((), "::mathml:" ++ n) :=
    skip_of (c := ':') rfl _
  have hcolons : accept "::" ("::mathml:" ++ n : Text) = some (true, "mathml:" ++ n) :=
    accept_append ..
  rw [axisAndTest, bind_of hat, if_neg Bool.false_ne_true, bind_of hname]
  dsimp only
  rw [haxis]
  dsimp only
  rw [bind_of hskip, bind_of hcolons, if_pos rfl, bind_of (test_mathml h)]
  rfl

theorem skip_elementQuery (n : Text) : skip (elementQuery n) = some ((), elementQuery n) :=
  skip_of (c := 's') rfl _

variable (nested : Reader Expr)

theorem step_elementQuery (h : isLocalName n = true) :
    step nested .here (elementQuery n) = some (.toElement n, []) := by
  have hparent : accept ".." (elementQuery n) = some (false, elementQuery n) := accept_of_not rfl
  have hhere : accept "." (elementQuery n) = some (false, elementQuery n) := accept_of_not rfl
  rw [step, bind_of (skip_elementQuery n), bind_of hparent, if_neg Bool.false_ne_true,
    bind_of hhere, if_neg Bool.false_ne_true, bind_of (axisAndTest_elementQuery h)]
  rfl

theorem relativePath_elementQuery (h : isLocalName n = true) :
    relativePath nested .here (elementQuery n) = some (.toElement n, []) := by
  have hbelow : accept "//" (elementQuery n) = some (false, elementQuery n) := accept_of_not rfl
  have hslash : accept "/" (elementQuery n) = some (false, elementQuery n) := accept_of_not rfl
  have hnone : slash? .here (elementQuery n) = some (none, elementQuery n) := by
    rw [slash?, bind_of hbelow, if_neg Bool.false_ne_true, bind_of hslash,
      if_neg Bool.false_ne_true]
    rfl
  rw [relativePath, bind_of (skip_elementQuery n), bind_of hnone, Option.getD_none,
    bind_of (step_elementQuery nested h)]
  rfl

theorem path_elementQuery (h : isLocalName n = true) :
    path nested (elementQuery n) = some (.toElement n, []) := by
  have hpeek : peek (elementQuery n) = some (some 's', elementQuery n) := rfl
  have hget : (get : Reader Text) (elementQuery n) = some (elementQuery n, elementQuery n) := rfl
  have hlocation : locationPath nested (elementQuery n) = some (.toElement n, []) := by
    rw [locationPath, bind_of (skip_elementQuery n), bind_of hpeek, if_neg (by decide)]
    exact relativePath_elementQuery nested h
  rw [path, bind_of (skip_elementQuery n), bind_of hget]
  -- the text begins with a letter, and the double colon says that it is no call
  change (locationPath nested >>= fun e => skip >>= fun _ => pure e) _ = _
  rw [bind_of hlocation]
  rfl

/-! ## From the path to the expression -/

/-- **An operand that leaves nothing** is a whole chain. -/
theorem chain_of {operand : Reader Expr} {operator? : Reader (Option (Expr → Expr → Expr))}
    {t : Text} {e : Expr} (h : operand t = some (e, [])) :
    chain operand operator? t = some (e, []) := by
  rw [chain, bind_of h]
  rfl

theorem unary_elementQuery {e : Expr} (h : unions nested (elementQuery n) = some (e, [])) :
    unary nested (elementQuery n) = some (e, []) := by
  have hminus : accept "-" (elementQuery n) = some (false, elementQuery n) := accept_of_not rfl
  have hsigns : minusSigns (elementQuery n) = some ((false, false), elementQuery n) := by
    refine repeated_of_none (List.cons_ne_nil _ _) ?_
    dsimp only
    rw [bind_of hminus, if_neg Bool.false_ne_true]
    rfl
  rw [unary, bind_of (skip_elementQuery n), bind_of hsigns]
  dsimp only
  rw [bind_of h]
  rfl

theorem disjunctions_elementQuery (h : isLocalName n = true) :
    disjunctions nested (elementQuery n) = some (.toElement n, []) := by
  have hproducts : products nested (elementQuery n) = some (.toElement n, []) :=
    chain_of (unary_elementQuery nested (chain_of (path_elementQuery nested h)))
  -- around the products stand sums, relations, equalities, conjunctions and disjunctions
  exact chain_of (chain_of (chain_of (chain_of (chain_of hproducts))))

end Reader

/-- **The query of an element is read as the step to it**, whatever the name is. -/
theorem Expr.parse_elementQuery {n : Text} (h : Reader.isLocalName n = true) :
    Expr.parse (elementQuery n) = some (.toElement n) := by
  have hread : Reader.expression 500 (elementQuery n) = some (.toElement n, []) :=
    Reader.disjunctions_elementQuery (Reader.expression 499) h
  rw [Expr.parse, hread]

end MathSpeech.XPath
