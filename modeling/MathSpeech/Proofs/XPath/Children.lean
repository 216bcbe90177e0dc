import MathSpeech.Proofs.Decimal.Whole
import MathSpeech.Proofs.XPath.Truth

/-!
# Proofs/XPath/Children — what expressions find among the children of an element

A list of nodes **shows** trees if its nodes are these trees one by one, in the order of a document
(`Shows`).  An expression **finds** trees if its value shows them (`Expr.Finds`).  A step to the
children finds the children that pass its test, its predicates pick some of them, and so the paths
`./*[k]` and those that go on from there find what is said of the trees alone.  Comparisons of what
is found compare the texts of trees.
-/

namespace MathSpeech.XPath

/-! ## Trees -/

namespace Tree

/-- The trees directly below. -/
def children : Tree → List Tree
  | .element _ _ _ children => children
  | _ => []

/-- An element. -/
def isElement : Tree → Bool
  | .element .. => true
  | _ => false

/-- A text. -/
def isText : Tree → Bool
  | .text _ => true
  | _ => false

/-- **An element of a name** in a namespace. -/
def isNamed (space label : Text) : Tree → Bool
  | .element name .. => name.label = label && name.space = space
  | _ => false

/-- **The elements directly below.** -/
def elements (t : Tree) : List Tree := t.children.filter isElement

/-- **Says a number**: one of the texts directly below stands for it. -/
def saysNumber (t : Tree) (x : Float) : Bool :=
  (t.children.filter isText).any fun u => Number.ofText u.innerText == x

/-- **Has the text of a name**: the element at the place has the text of an element of the name. -/
def hasTextOf (t : Tree) (space label : Text) (place : Nat) : Bool :=
  t.elements[place - 1]?.any fun c =>
    t.children.any fun r => r.isNamed space label && r.innerText = c.innerText

theorem isElement_of_isNamed {space label : Text} {t : Tree} (h : t.isNamed space label = true) :
    t.isElement = true := by
  cases t with
  | element => rfl
  | _ => cases h

end Tree

/-! ## Nodes that show trees -/

/-- **Nodes that show trees**: they are these trees one by one, in ascending order. -/
structure Shows (ns : List Node) (ts : List Tree) : Prop where
  ascending : ns.Pairwise Ascending
  contents : List.Forall₂ (fun n t => n.content = .tree t) ns ts

theorem forall₂_content_mapIdx {ts : List Tree} {f : Nat → Tree → Node}
    (hf : ∀ i t, (f i t).content = .tree t) :
    List.Forall₂ (fun n t => n.content = .tree t) (ts.mapIdx f) ts := by
  induction ts generalizing f with
  | nil => exact .nil
  | cons t rest ih =>
    rw [List.mapIdx_cons]
    exact .cons (hf 0 t) (ih fun i => hf (i + 1))

theorem pairwise_children (n : Node) : n.children.Pairwise Ascending := by
  rw [Node.children, List.pairwise_iff_getElem]
  intro i j hi hj hlt
  rw [List.getElem_mapIdx, List.getElem_mapIdx]
  have hne : i ≠ j := Nat.ne_of_lt hlt
  refine ⟨by simpa using hne, ?_⟩
  rw [Address.precedes_append]
  simp [Address.precedes, Step.precedes, hne, hlt]

theorem shows_children {n : Node} {t : Tree} (h : n.content = .tree t) :
    Shows n.children t.children where
  ascending := pairwise_children n
  contents := by
    have hchildren : n.content.children = t.children := by
      rw [h]
      cases t <;> rfl
    rw [Node.children, hchildren]
    exact forall₂_content_mapIdx fun _ _ => rfl

/-- The tree that a node is, if it is one. -/
def Node.tree? (n : Node) : Option Tree :=
  match n.content with
  | .tree t => some t
  | _ => none

theorem Node.text_eq_innerText {n : Node} {t : Tree} (h : n.content = .tree t)
    (ht : t.isElement = true ∨ t.isText = true) : n.text = t.innerText := by
  rw [Node.text, h]
  cases t with
  | element | text => rfl
  | comment | instruction => obtain ht | ht := ht <;> cases ht

namespace Shows

variable {ns : List Node} {ts : List Tree}

theorem nil : Shows [] [] := ⟨.nil, .nil⟩

theorem singleton {n : Node} {t : Tree} (h : n.content = .tree t) : Shows [n] [t] :=
  ⟨List.pairwise_singleton .., .cons h .nil⟩

theorem filter (h : Shows ns ts) {p : Node → Bool} {q : Tree → Bool}
    (hpq : ∀ {n t}, n.content = .tree t → p n = q t) : Shows (ns.filter p) (ts.filter q) where
  ascending := h.ascending.filter p
  contents := List.rel_filter (fun _ _ hn => Iff.of_eq (congrArg (· = true) (hpq hn))) h.contents

/-- The node and the tree at the same place. -/
theorem getElem? (h : Shows ns ts) (i : Nat) : Shows ns[i]?.toList ts[i]?.toList := by
  have hcontents := h.contents
  induction hcontents generalizing i with
  | nil => exact nil
  | cons hfirst hrest ih =>
    cases i with
    | zero => exact singleton hfirst
    | succ i => exact ih ⟨(List.pairwise_cons.mp h.ascending).2, hrest⟩ i

theorem exists_of_mem (h : Shows ns ts) {n : Node} (hn : n ∈ ns) :
    ∃ t ∈ ts, n.content = .tree t := by
  obtain ⟨-, hcontents⟩ := h
  induction hcontents with
  | nil => cases hn
  | cons hfirst _ ih =>
    obtain rfl | hn := List.mem_cons.mp hn
    · exact ⟨_, List.mem_cons_self, hfirst⟩
    · obtain ⟨t, ht, hcontent⟩ := ih hn
      exact ⟨t, List.mem_cons_of_mem _ ht, hcontent⟩

theorem length_eq (h : Shows ns ts) : ns.length = ts.length := h.contents.length_eq

/-- The texts of nodes that show elements and texts, as values. -/
theorem singles_eq (h : Shows ns ts) (hspoken : ∀ t ∈ ts, t.isElement = true ∨ t.isText = true) :
    Object.singles ns = ts.map fun t => .text t.innerText := by
  obtain ⟨-, hcontents⟩ := h
  induction hcontents with
  | nil => rfl
  | @cons n t ns ts hfirst hrest ih =>
    have htext := Node.text_eq_innerText hfirst (hspoken t List.mem_cons_self)
    have hsingles : Object.singles (n :: ns) = .text n.text :: Object.singles ns := rfl
    rw [hsingles, htext, ih fun u hu => hspoken u (List.mem_cons_of_mem t hu), List.map_cons]

end Shows

/-! ## Predicates -/

/-- **A number as a predicate** picks the node at that place. -/
theorem keepFrom_number {k : Nat} (hk : k < 2 ^ 53) (size index : Nat) (ns : List Node) :
    keepFrom (fun _ => some (.number (Float.ofNat k))) size index ns
      = some (if index ≤ k then ns[k - index]?.toList else []) := by
  induction ns generalizing index with
  | nil => split <;> rfl
  | cons n rest ih =>
    have hplace : holdsAt index (.number (Float.ofNat k)) = decide (k = index) :=
      Decimal.ofNat_beq_ofNat (.inl hk)
    have hstep : keepFrom (fun _ => some (.number (Float.ofNat k))) size index (n :: rest)
        = some (if k = index then n :: (if index + 1 ≤ k then rest[k - (index + 1)]?.toList else [])
          else if index + 1 ≤ k then rest[k - (index + 1)]?.toList else []) := by
      rw [keepFrom, ih]
      simp only [Option.bind_eq_bind, Option.bind_some, hplace, Option.pure_def,
        decide_eq_true_eq]
    rw [hstep]
    obtain hlt | rfl | hgt := Nat.lt_trichotomy k index
    · rw [if_neg (by omega), if_neg (by omega), if_neg (by omega)]
    · rw [if_pos rfl, if_neg (by omega), if_pos le_rfl, Nat.sub_self]
      rfl
    · have hplaces : k - index = k - (index + 1) + 1 := by omega
      rw [if_neg (by omega), if_pos (by omega), if_pos (by omega), hplaces,
        List.getElem?_cons_succ]

/-- **A truth value as a predicate** picks the nodes of which it is true. -/
theorem keepFrom_boolean {predicate : Focus → Option Object} {ns : List Node} {p : Node → Bool}
    (h : ∀ n ∈ ns, ∀ place, predicate ⟨n, place⟩ = some (.boolean (p n))) (size index : Nat) :
    keepFrom predicate size index ns = some (ns.filter p) := by
  induction ns generalizing index with
  | nil => rfl
  | cons n rest ih =>
    rw [keepFrom, h n List.mem_cons_self, ih fun m hm => h m (List.mem_cons_of_mem n hm),
      List.filter_cons]
    cases hn : p n <;> rfl

/-- **What predicates pick** from trees, whatever nodes show them. -/
def Picks (env : Environment) (predicates : List Expr) (pick : List Tree → List Tree) : Prop :=
  ∀ ns ts, Shows ns ts → ∃ ms, Expr.keepAll env predicates ns = some ms ∧ Shows ms (pick ts)

section Picks

variable {env : Environment} {predicates : List Expr} {pick : List Tree → List Tree}

theorem picks_nil : Picks env [] id := fun ns _ h => ⟨ns, rfl, h⟩

theorem Picks.number (h : Picks env predicates pick) {k : Nat} (hk : 1 ≤ k ∧ k < 2 ^ 53) :
    Picks env (.number (Float.ofNat k) :: predicates) fun ts => pick ts[k - 1]?.toList := by
  intro ns ts hshows
  obtain ⟨ms, hkeep, hms⟩ := h _ _ (hshows.getElem? (k - 1))
  refine ⟨ms, ?_, hms⟩
  have hnumber : keep ((Expr.number (Float.ofNat k)).evaluate env) ns = some ns[k - 1]?.toList := by
    have hevaluate : (Expr.number (Float.ofNat k)).evaluate env
        = fun _ => some (.number (Float.ofNat k)) := rfl
    rw [keep, hevaluate, keepFrom_number hk.2, if_pos hk.1]
  rw [Expr.keepAll, hnumber]
  exact hkeep

theorem Picks.boolean (h : Picks env predicates pick) {e : Expr} {q : Tree → Bool}
    (he : ∀ {n t place}, n.content = .tree t →
      e.evaluate env ⟨n, place⟩ = some (.boolean (q t))) :
    Picks env (e :: predicates) fun ts => pick (ts.filter q) := by
  intro ns ts hshows
  let p (n : Node) : Bool := n.tree?.any q
  have hpq : ∀ {n t}, n.content = .tree t → p n = q t := fun {n t} hn => by
    simp only [p, Node.tree?, hn, Option.any_some]
  obtain ⟨ms, hkeep, hms⟩ := h _ _ (hshows.filter hpq)
  refine ⟨ms, ?_, hms⟩
  have hboolean : keep (e.evaluate env) ns = some (ns.filter p) := by
    refine keepFrom_boolean (fun n hn place => ?_) _ _
    obtain ⟨t, -, ht⟩ := hshows.exists_of_mem hn
    rw [he ht, hpq ht]
  rw [Expr.keepAll, hboolean]
  exact hkeep

end Picks

/-! ## Steps to the children -/

/-- **What an expression finds**: trees that its value shows. -/
def Expr.Finds (env : Environment) (e : Expr) (focus : Focus) (ts : List Tree) : Prop :=
  ∃ ns, e.evaluate env focus = some (.nodes ns) ∧ Shows ns ts

section Finds

variable {env : Environment} {focus : Focus}

theorem Expr.finds_here {t : Tree} (h : focus.node.content = .tree t) :
    Expr.here.Finds env focus [t] := ⟨_, rfl, .singleton h⟩

/-- **A step to the children** of a tree, if there is one, finds those that pass the test and are
picked by the predicates. -/
theorem Expr.Finds.child {start : Expr} {o : Option Tree} (h : start.Finds env focus o.toList)
    {test : Test} {p : Node → Bool} (htest : test.resolve? env .child = some p) {q : Tree → Bool}
    (hpq : ∀ {n t}, n.content = .tree t → p n = q t) {predicates : List Expr}
    {pick : List Tree → List Tree} (hpick : Picks env predicates pick) :
    (Expr.step start .child test predicates).Finds env focus
      (o.elim [] fun t => pick (t.children.filter q)) := by
  obtain ⟨ns, hstart, hns⟩ := h
  have hstep : ∀ found, gatherNodes (fun n => Expr.keepAll env predicates
      ((env.document.onAxis n .child).filter p)) ns = some found →
      (Expr.step start .child test predicates).evaluate env focus = some (.nodes found) := by
    intro found hfound
    rw [Expr.evaluate, hstart]
    simp only [Option.bind_eq_bind, Option.bind_some, Object.nodes?, htest, hfound,
      Option.pure_def]
  cases o with
  | none =>
    obtain rfl : ns = [] := List.length_eq_zero_iff.mp hns.length_eq
    exact ⟨[], hstep [] rfl, .nil⟩
  | some t =>
    obtain ⟨n, rfl⟩ := List.length_eq_one_iff.mp hns.length_eq
    have hn : n.content = .tree t := (List.forall₂_cons.mp hns.contents).1
    obtain ⟨ms, hkeep, hms⟩ := hpick _ _ ((shows_children hn).filter hpq)
    refine ⟨ms, hstep ms ?_, hms⟩
    have hchildren : env.document.onAxis n .child = n.children := rfl
    rw [gatherNodes, hchildren, hkeep]
    exact congrArg some (union_nil_of_pairwise hms.ascending)

/-! ## What is said of what is found -/

/-- What is found holds as a constraint if there is something. -/
theorem Expr.Finds.exists_evaluate {e : Expr} {ts : List Tree} (h : e.Finds env focus ts) :
    ∃ x, e.evaluate env focus = some x ∧ x.result.holds = !ts.isEmpty := by
  obtain ⟨ns, hvalue, hns⟩ := h
  refine ⟨_, hvalue, ?_⟩
  have hdocuments : ∀ n ∈ ns, ¬n.IsDocument := by
    rintro n hn ⟨children, hdocument⟩
    obtain ⟨t, -, ht⟩ := hns.exists_of_mem hn
    cases hdocument.symm.trans ht
  rw [Object.holds_result_nodes hdocuments, Bool.eq_iff_iff, Bool.not_eq_true', Bool.not_eq_true',
    List.isEmpty_eq_false_iff, List.isEmpty_eq_false_iff, ← List.length_pos_iff,
    ← List.length_pos_iff, hns.length_eq]

/-- A comparison of two values. -/
theorem Expr.evaluate_compare {e e' : Expr} {x y : Object} (h : e.evaluate env focus = some x)
    (h' : e'.evaluate env focus = some y) (c : Comparison) :
    (Expr.compare c e e').evaluate env focus = some (.boolean (x.compare c y)) := by
  rw [Expr.evaluate, h, h']
  rfl

/-- **Trees that are found have a text in common** with others. -/
theorem Expr.Finds.compare {e e' : Expr} {ts us : List Tree} (h : e.Finds env focus ts)
    (h' : e'.Finds env focus us) (hts : ∀ t ∈ ts, t.isElement = true ∨ t.isText = true)
    (hus : ∀ u ∈ us, u.isElement = true ∨ u.isText = true) :
    (Expr.compare .equal e e').evaluate env focus
      = some (.boolean (ts.any fun t => us.any fun u => t.innerText = u.innerText)) := by
  obtain ⟨ns, hvalue, hns⟩ := h
  obtain ⟨ms, hvalue', hms⟩ := h'
  rw [evaluate_compare hvalue hvalue' .equal, Object.compare, hns.singles_eq hts,
    hms.singles_eq hus, List.any_map]
  simp only [List.any_map]
  rfl

/-- **A tree that is found stands for a number.** -/
theorem Expr.Finds.compare_number {e : Expr} {ts : List Tree} (h : e.Finds env focus ts)
    (hts : ∀ t ∈ ts, t.isElement = true ∨ t.isText = true) (x : Float) :
    (Expr.compare .equal e (.number x)).evaluate env focus
      = some (.boolean (ts.any fun t => Number.ofText t.innerText == x)) := by
  obtain ⟨ns, hvalue, hns⟩ := h
  rw [evaluate_compare hvalue rfl .equal, Object.compare, hns.singles_eq hts, List.any_map]
  · rfl
  · intro _ h
    cases h
  · intro _ h
    cases h

/-- **The number of trees that are found.** -/
theorem Expr.Finds.compare_count {e : Expr} {ts : List Tree} (h : e.Finds env focus ts) {k : Nat}
    (hk : k < 2 ^ 53) :
    (Expr.compare .equal (.call none "count" [e]) (.number (Float.ofNat k))).evaluate env focus
      = some (.boolean (ts.length = k)) := by
  obtain ⟨ns, hvalue, hns⟩ := h
  have hname : Function.ofName? "count" = some .count := rfl
  have hcount : (Expr.call none "count" [e]).evaluate env focus
      = some (.number (Float.ofNat ns.length)) := by
    rw [Expr.evaluate, Expr.evaluateAll, Expr.evaluateAll, hvalue, hname]
    rfl
  rw [evaluate_compare hcount rfl .equal, ← hns.length_eq]
  exact congrArg (fun b => some (Object.boolean b)) (Decimal.ofNat_beq_ofNat (.inr hk))

/-! ## Paths -/

/-- **The step to the element at a place** among the children. -/
def Expr.toPlace (start : Expr) (k : Nat) (predicates : List Expr) : Expr :=
  .step start .child (.any none) (.number (Float.ofNat k) :: predicates)

/-- The step to the MathML elements of a name among the children. -/
def Expr.toNamed (label : Text) : Expr :=
  .step .here .child (.name (some ("mathml" : Text)) label) []

/-- The statement that one of the texts directly below stands for a number. -/
def Expr.sayingNumber (x : Float) : Expr :=
  .compare .equal (.step .here .child .text []) (.number x)

/-- A step to the elements among the children of a tree, if there is one. -/
theorem Expr.Finds.elements {start : Expr} {o : Option Tree} (h : start.Finds env focus o.toList)
    {predicates : List Expr} {pick : List Tree → List Tree} (hpick : Picks env predicates pick) :
    (Expr.step start .child (.any none) predicates).Finds env focus
      (o.elim [] fun t => pick t.elements) := by
  refine h.child (p := Axis.isPrincipal .child) rfl (q := Tree.isElement) ?_ hpick
  rintro ⟨address, content⟩ t rfl
  cases t <;> rfl

/-- The element at a place, if the predicates pick it. -/
theorem Expr.Finds.toPlace {start : Expr} {o : Option Tree} (h : start.Finds env focus o.toList)
    {k : Nat} (hk : 1 ≤ k ∧ k < 2 ^ 53) {predicates : List Expr} {pick : List Tree → List Tree}
    (hpick : Picks env predicates pick) :
    (start.toPlace k predicates).Finds env focus
      (o.elim [] fun t => pick t.elements[k - 1]?.toList) :=
  h.elements (hpick.number hk)

/-- The MathML elements of a name among the children. -/
theorem Expr.finds_toNamed {t : Tree} (h : focus.node.content = .tree t) {space : Text}
    (hspace : env.space? "mathml" = some space) (label : Text) :
    (Expr.toNamed label).Finds env focus (t.children.filter (Tree.isNamed space label)) := by
  refine (finds_here h).child (o := some t) (p := matchesName .child space label) ?_ ?_ picks_nil
  · rw [Test.resolve?, hspace]
    rfl
  · rintro ⟨address, content⟩ t rfl
    cases t with
    | element name => exact congrArg (decide (name.label = label) && ·) (Bool.false_or _)
    | _ => rfl

/-- **An element at a place has the text of a name** if an element of the name is equal to it. -/
theorem Expr.evaluate_hasTextOf {t : Tree} (h : focus.node.content = .tree t) {space : Text}
    (hspace : env.space? "mathml" = some space) (label : Text) {place : Nat}
    (hplace : 1 ≤ place ∧ place < 2 ^ 53) :
    (Expr.compare .equal (.toNamed label) (Expr.here.toPlace place [])).evaluate env focus
      = some (.boolean (t.hasTextOf space label place)) := by
  have hfound : (Expr.here.toPlace place []).Finds env focus t.elements[place - 1]?.toList :=
    (finds_here h).toPlace (o := some t) hplace picks_nil
  have helements : ∀ c ∈ t.elements[place - 1]?.toList, c.isElement = true := fun c hc =>
    (List.mem_filter.mp (List.mem_of_getElem? (Option.mem_toList.mp hc))).2
  have hnamed : ∀ r ∈ t.children.filter (Tree.isNamed space label), r.isElement = true :=
    fun r hr => Tree.isElement_of_isNamed (List.mem_filter.mp hr).2
  rw [(finds_toNamed h hspace label).compare hfound (fun r hr => .inl (hnamed r hr))
    fun c hc => .inl (helements c hc), List.any_filter, Tree.hasTextOf]
  cases t.elements[place - 1]? with
  | none => simp
  | some c => simp only [Option.toList_some, List.any_cons, List.any_nil, Bool.or_false,
      Option.any_some]

/-- The texts among the children. -/
theorem Expr.finds_texts {t : Tree} (h : focus.node.content = .tree t) :
    (Expr.step .here .child .text []).Finds env focus (t.children.filter Tree.isText) := by
  refine (finds_here h).child (o := some t) rfl ?_ picks_nil
  rintro ⟨address, content⟩ t rfl
  cases t <;> rfl

/-- **A tree says a number** if one of the texts directly below stands for it. -/
theorem Expr.evaluate_sayingNumber {t : Tree} (h : focus.node.content = .tree t) (x : Float) :
    (Expr.sayingNumber x).evaluate env focus = some (.boolean (t.saysNumber x)) :=
  (finds_texts h).compare_number (fun _ hu => .inr (List.mem_filter.mp hu).2) x

theorem picks_sayingNumber (x : Float) :
    Picks env [.sayingNumber x] fun ts => ts.filter fun t => t.saysNumber x :=
  picks_nil.boolean fun hn => Expr.evaluate_sayingNumber hn x

end Finds

end MathSpeech.XPath
