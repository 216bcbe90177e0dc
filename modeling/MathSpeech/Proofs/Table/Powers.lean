import MathSpeech.Proofs.Table.Places

/-!
# Proofs/Table/Powers — rules that depend on the exponent

Both elements with an exponent have a rule for squares and one for cubes.  Either applies if the
exponent says the number itself; an alias of it applies if the exponent is wrapped in a row, that
is, if its text is that of a row and its only element says the number.  Aliases have more
constraints than rules, so a wrapped number comes before a plain one, and squares are defined before
cubes (`Table.exponent_decides_the_rule`).
-/

namespace MathSpeech

open Store (elementQuery)
open XPath (Document Address Tree Setting Expr)

/-! ## Powers in trees -/

namespace XPath.Tree

/-- **Has a power**: the element at the place says the number. -/
def hasPower (t : Tree) (place n : Nat) : Bool :=
  t.elements[place - 1]?.any (·.saysNumber (Float.ofNat n))

/-- **Has a wrapped power**: the element at the place has the text of a row, and a single element,
which says the number. -/
def hasWrappedPower (t : Tree) (place n : Nat) : Bool :=
  t.hasTextOf Settings.mathmlNamespace "mrow" place
    && t.elements[place - 1]?.any fun c => c.elements.length = 1 && c.hasPower 1 n

end XPath.Tree

namespace Table

/-! ## Constraints on the exponent -/

/-- The predicate that one of the texts is a number. -/
def sayingNumber (n : Nat) : Text := ("[text()=" : Text) ++ Nat.toDigits 10 n ++ ("]" : Text)

/-- The constraint that the element at a place says a number. -/
def isPower (place n : Nat) : Text := elementAt place ++ sayingNumber n

/-- The constraint that the element at a place has a single element. -/
def isSingleton (place : Nat) : Text := ("count(" : Text) ++ elementAt place ++ ("/*)=1" : Text)

/-- The constraint that the first element of the one at a place says a number. -/
def isInnerPower (place n : Nat) : Text := elementAt place ++ ("/*[1]" : Text) ++ sayingNumber n

/-- The constraints on wrapped powers. -/
def wrappedConstraints (place n : Nat) : List Text :=
  [isLike "mrow" place, isSingleton place, isInnerPower place n]

/-- **An element with an exponent**: its name, the place of the exponent, and the keys of its
rules. -/
structure Powered where
  name : Text
  place : Nat
  plain : Text
  square : Text
  cube : Text
deriving DecidableEq

/-- **The elements with an exponent.** -/
def powered : List Powered := [⟨"msup", 2, "msup", "square", "cube"⟩,
  ⟨"msubsup", 3, "msubsup", "square-sub", "cube-sub"⟩]

/-- The entries for an element with an exponent. -/
def Powered.entries (x : Powered) : List Entry := [
  (⟨elementQuery x.name, []⟩, x.plain),
  (⟨elementQuery x.name, [isPower x.place 2]⟩, x.square),
  (⟨elementQuery x.name, [isPower x.place 3]⟩, x.cube),
  (⟨elementQuery x.name, wrappedConstraints x.place 2⟩, x.square),
  (⟨elementQuery x.name, wrappedConstraints x.place 3⟩, x.cube)]

/-- **The rule for an exponent.** -/
def Powered.key (x : Powered) (t : Tree) : Text :=
  if t.hasWrappedPower x.place 2 then x.square
  else if t.hasWrappedPower x.place 3 then x.cube
  else if t.hasPower x.place 2 then x.square
  else if t.hasPower x.place 3 then x.cube
  else x.plain

theorem entriesAbout_powered : ∀ x ∈ powered, entriesAbout bundled x.name = x.entries := by
  simp only [entriesAbout_eq]
  decide +kernel

theorem parse_isPower : ∀ x ∈ powered, ∀ n ∈ [2, 3], Expr.parse (isPower x.place n)
    = some (Expr.here.toPlace x.place [.sayingNumber (Float.ofNat n)]) := by
  decide

theorem parse_isSingleton : ∀ x ∈ powered, Expr.parse (isSingleton x.place)
    = some (.compare .equal
      (.call none "count" [.step (Expr.here.toPlace x.place []) .child (.any none) []])
      (.number (Float.ofNat 1))) := by
  decide +kernel

theorem parse_isInnerPower : ∀ x ∈ powered, ∀ n ∈ [2, 3], Expr.parse (isInnerPower x.place n)
    = some ((Expr.here.toPlace x.place []).toPlace 1 [.sayingNumber (Float.ofNat n)]) := by
  decide +kernel

theorem likenesses_of_powered : ∀ x ∈ powered, (("mrow" : Text), x.place) ∈ likenesses := by
  decide

theorem place_of_powered : ∀ x ∈ powered, 1 ≤ x.place ∧ x.place < 2 ^ 53 := by
  decide

/-- **The choice between the rules for exponents**: the entries with more constraints come first,
and squares before cubes. -/
theorem chosen?_powered {x : Powered} (hx : x ∈ powered) (affirmed : Text → Bool) :
    chosen? bundled x.name affirmed = some (
      if (wrappedConstraints x.place 2).all affirmed then x.square
      else if (wrappedConstraints x.place 3).all affirmed then x.cube
      else if affirmed (isPower x.place 2) then x.square
      else if affirmed (isPower x.place 3) then x.cube
      else x.plain) := by
  rw [chosen?, entriesAbout_powered x hx, Powered.entries]
  simp only [List.filter_cons, List.filter_nil, List.all_cons, List.all_nil, Bool.and_true]
  -- how many constraints an entry has is known, whatever they are
  cases (wrappedConstraints x.place 2).all affirmed <;>
    cases (wrappedConstraints x.place 3).all affirmed <;>
    cases affirmed (isPower x.place 2) <;> cases affirmed (isPower x.place 3) <;> rfl

/-- **A constraint that an element says a number**, if its path is read from a start that finds at
most one tree. -/
theorem affirms_sayingNumber {s : Setting} {a : Address} {t : Tree} {c : Text} {start : Expr}
    {place n : Nat}
    (hparse : Expr.parse c = some (start.toPlace place [.sayingNumber (Float.ofNat n)]))
    {o : Option Tree} (hstart : start.Finds s.environment ⟨⟨a, .tree t⟩, none⟩ o.toList)
    (hplace : 1 ≤ place ∧ place < 2 ^ 53) :
    s.affirms ⟨a, .tree t⟩ c = o.any (·.hasPower place n) := by
  rw [Setting.affirms_of_finds hparse (hstart.toPlace hplace (XPath.picks_sayingNumber _))]
  cases o with
  | none => rfl
  | some u =>
    rw [Option.any_some, Tree.hasPower, Option.elim_some]
    cases u.elements[place - 1]? with
    | none => rfl
    | some e =>
      rw [Option.toList_some, List.filter_singleton, Option.any_some]
      cases e.saysNumber (Float.ofNat n) <;> rfl

section

variable {d : Document} {a : Address} {t : Tree} {x : Powered} (hx : x ∈ powered)
include hx

/-- **A power is affirmed** if the element at the place says it. -/
theorem affirms_isPower {n : Nat} (hn : n ∈ [2, 3]) :
    (defaultSetting d).affirms ⟨a, .tree t⟩ (isPower x.place n) = t.hasPower x.place n :=
  affirms_sayingNumber (o := some t) (parse_isPower x hx n hn) (Expr.finds_here rfl)
    (place_of_powered x hx)

/-- **A wrapped power affirms the constraints on it.** -/
theorem all_wrappedConstraints {n : Nat} (hn : n ∈ [2, 3]) :
    (wrappedConstraints x.place n).all ((defaultSetting d).affirms ⟨a, .tree t⟩)
      = t.hasWrappedPower x.place n := by
  have hfinds : (Expr.here.toPlace x.place []).Finds (defaultSetting d).environment
      ⟨⟨a, .tree t⟩, none⟩ t.elements[x.place - 1]?.toList :=
    (Expr.finds_here rfl).toPlace (o := some t) (place_of_powered x hx) XPath.picks_nil
  have hrow := affirms_isLike (d := d) (a := a) (t := t) (likenesses_of_powered x hx)
  have hsingle := Setting.affirms_of_boolean (parse_isSingleton x hx)
    ((hfinds.elements XPath.picks_nil).compare_count (by decide))
  have hinner := affirms_sayingNumber (parse_isInnerPower x hx n hn) hfinds (by decide)
  have hall : (wrappedConstraints x.place n).all ((defaultSetting d).affirms ⟨a, .tree t⟩)
      = ((defaultSetting d).affirms ⟨a, .tree t⟩ (isLike "mrow" x.place)
        && ((defaultSetting d).affirms ⟨a, .tree t⟩ (isSingleton x.place)
          && (defaultSetting d).affirms ⟨a, .tree t⟩ (isInnerPower x.place n))) := by
    rw [wrappedConstraints, List.all_cons, List.all_cons, List.all_cons, List.all_nil,
      Bool.and_true]
  rw [hall, hrow, hsingle, hinner, Tree.hasWrappedPower]
  cases t.elements[x.place - 1]? <;> rfl

/-- **The exponent decides** between the rules. -/
theorem chosen?_key :
    chosen? bundled x.name ((defaultSetting d).affirms ⟨a, .tree t⟩) = some (x.key t) := by
  rw [chosen?_powered hx, all_wrappedConstraints hx (by decide),
    all_wrappedConstraints hx (by decide), affirms_isPower hx (by decide),
    affirms_isPower hx (by decide), Powered.key]

end

/-! ## What is retrieved -/

/-- **The exponent decides the rule.**  The store that is made by default is asked about an element
with an exponent in any document, by an evaluator with the default namespaces, whatever its cache
has read before.  What it retrieves is the rule for squares if the exponent is a wrapped two, else
the rule for cubes if it is a wrapped three, and then in the same way if it says these numbers
itself; and the plain rule in all other cases. -/
theorem exponent_decides_the_rule {f : Folder}
    (hf : f.has (Path.ofText bundledName) = false) (log : Log) (debug : Bool) :
    ∃ s, (createStore f log debug (tablesOf Settings.defaults)).1 = .ok s
      ∧ ∀ d a t, d.nodeAt? a = some ⟨a, .tree t⟩ →
        ∀ x ∈ powered, t.isNamed Settings.mathmlNamespace x.name = true →
          Retrieves s d a (x.key t) :=
  ⟨_, createStore_defaults hf log debug, fun _ _ _ hnode _ hx ht =>
    retrieves_of_chosen hnode ht (chosen?_key hx) debug⟩

/-- A power whose exponent is a row: of the texts around a comment the second says the number. -/
def powerDocument : Document where
  children := [.element ⟨Settings.mathmlNamespace, "msup", "msup"⟩ [] []
    [.element ⟨Settings.mathmlNamespace, "mi", "mi"⟩ [] [] [.text "x"],
      .element ⟨Settings.mathmlNamespace, "mrow", "mrow"⟩ [] []
        [.element ⟨Settings.mathmlNamespace, "mn", "mn"⟩ [] []
          [.text "n", .comment [], .text "3"]]]]

theorem exponent_decides_the_rule_powerDocument :
    ∃ s, (createStore ⟨.empty⟩ {} false (tablesOf Settings.defaults)).1 = .ok s
      ∧ ∃ atom, ((s.retrieve (defaultSetting powerDocument).cachedEvaluator
          (some (.node [.child 0]))).run.run .empty).run.1 = .ok (some atom)
        ∧ atom.key = "cube" := by
  obtain ⟨s, hs, hrule⟩ := exponent_decides_the_rule (f := ⟨.empty⟩) rfl {} false
  obtain ⟨atom, hgives, hkey⟩ := hrule powerDocument [.child 0] _ rfl
    ⟨"msup", 2, "msup", "square", "cube"⟩ (.head _) rfl
  exact ⟨s, hs, atom, hgives.run_empty, hkey.trans (by decide)⟩

end Table

end MathSpeech
