import MathSpeech.Proofs.XPath.Alike
import MathSpeech.XPath.Evaluator

/-!
# Proofs/XPath/Resembling — values that no local function can tell apart

Of a node, operations look at its text and at its name; most functions ask for no more than the
expanded name.  Nodes **resemble** each other if they agree in this, and values do if they are the
same, or node sets that resemble each other node by node (`Object.Resembles`).  Resembling values
convert and compare alike.  A function is **local** if it asks neither for a prefix nor for
something elsewhere in the document (`Function.isLocal`); it gives the same value for resembling
arguments (`Function.apply_congr`).
-/

namespace MathSpeech.XPath

/-! ## Nodes -/

/-- **Nodes that resemble each other**, the prefixes of their names apart. -/
structure Node.Resembles (n m : Node) : Prop where
  text : n.text = m.text
  name : n.name?.map Name.expanded = m.name?.map Name.expanded
  item : n.item?.isSome = m.item?.isSome

theorem Tree.Alike.resembles {a b : Address} {t u : Tree} (h : t.Alike u) :
    Node.Resembles ⟨a, .tree t⟩ ⟨b, .tree u⟩ := by
  have htext := h.innerText
  obtain rfl | ⟨_, _, _, _, _, _, _, _, rfl, rfl, hname, -⟩ := h.eq_or_element
  · exact ⟨rfl, rfl, by cases t <;> rfl⟩
  · exact ⟨htext, congrArg some hname, rfl⟩

theorem Corresponds.resembles {a b : Address} {n m : Node} (h : Corresponds a b n m) :
    n.Resembles m := by
  obtain ⟨path, halike⟩ := h
  exact halike.resembles

/-- What is seen of a node. -/
def Node.seen (n : Node) : Text × Option (Text × Text) × Bool :=
  (n.text, n.name?.map Name.expanded, n.item?.isSome)

theorem Node.resembles_of_seen {n m : Node} (h : n.seen = m.seen) : n.Resembles m := by
  obtain ⟨htext, hname, hitem⟩ := (Prod.ext_iff.trans (and_congr_right' Prod.ext_iff)).mp h
  exact ⟨htext, hname, hitem⟩

/-! ## Values -/

/-- **Values that resemble each other**: the same, or resembling node sets. -/
inductive Object.Resembles : Object → Object → Prop
  | nodes {ns ms : List Node} (h : List.Forall₂ Node.Resembles ns ms) :
    Resembles (.nodes ns) (.nodes ms)
  | same (x : Object) : Resembles x x

section Nodes

variable {ns ms : List Node}

theorem isEmpty_eq_of_resembles (h : List.Forall₂ Node.Resembles ns ms) :
    ns.isEmpty = ms.isEmpty := by
  cases h <;> rfl

/-- A part of the expanded name. -/
theorem nameOf_congr (choose : Text × Text → Text) (h : List.Forall₂ Node.Resembles ns ms) :
    Function.nameOf (fun name => choose name.expanded) ns
      = Function.nameOf (fun name => choose name.expanded) ms := by
  cases h with
  | nil => rfl
  | cons hfirst _ =>
    have hname := congrArg (Option.map choose) hfirst.name
    rw [Option.map_map, Option.map_map] at hname
    exact congrArg (·.getD []) hname

theorem singles_congr (h : List.Forall₂ Node.Resembles ns ms) :
    Object.singles ns = Object.singles ms := by
  induction h with
  | nil => rfl
  | cons hfirst _ ih => exact congrArg₂ (fun t ts => Object.text t :: ts) hfirst.text ih

theorem total_congr (h : List.Forall₂ Node.Resembles ns ms) :
    Function.total ns = Function.total ms := by
  have hfold : ∀ x : Float, ns.foldl (fun x n => x + Number.ofText n.text) x
      = ms.foldl (fun x n => x + Number.ofText n.text) x := by
    induction h with
    | nil => exact fun _ => rfl
    | cons hfirst _ ih =>
      intro x
      rw [List.foldl_cons, List.foldl_cons, hfirst.text, ih]
  exact hfold 0

/-- There are items among both or among neither. -/
theorem isEmpty_items_congr (h : List.Forall₂ Node.Resembles ns ms) :
    (ns.filterMap Node.item?).isEmpty = (ms.filterMap Node.item?).isEmpty := by
  induction h with
  | nil => rfl
  | @cons n m _ _ hfirst _ ih =>
    have hitem := hfirst.item
    rw [List.filterMap_cons, List.filterMap_cons]
    cases hn : n.item? <;> cases hm : m.item? <;> rw [hn, hm] at hitem
    · exact ih
    · cases hitem
    · cases hitem
    · rfl

end Nodes

namespace Object

variable {x y x' y' : Object}

/-! ## Conversions -/

theorem Resembles.toText (h : x.Resembles y) : x.toText = y.toText := by
  cases h with
  | nodes h =>
    cases h with
    | nil => rfl
    | cons hfirst _ => exact hfirst.text
  | same => rfl

theorem Resembles.toNumber (h : x.Resembles y) : x.toNumber = y.toNumber := by
  cases h with
  | nodes h => exact congrArg Number.ofText (Resembles.nodes h).toText
  | same => rfl

theorem Resembles.toBoolean (h : x.Resembles y) : x.toBoolean = y.toBoolean := by
  cases h with
  | nodes h => exact congrArg (!·) (isEmpty_eq_of_resembles h)
  | same => rfl

/-- What is made of a node set. -/
theorem Resembles.map_nodes? {α : Type} {f : List Node → α} (h : x.Resembles y)
    (hf : ∀ {ns ms}, List.Forall₂ Node.Resembles ns ms → f ns = f ms) :
    x.nodes?.map f = y.nodes?.map f := by
  cases h with
  | nodes h => exact congrArg some (hf h)
  | same => rfl

theorem Resembles.holds_result (h : x.Resembles y) : x.result.holds = y.result.holds := by
  cases h with
  | nodes h => exact congrArg (!·) (isEmpty_items_congr h)
  | same => rfl

/-! ## Comparisons -/

theorem compare_nodes_left {ns ms : List Node} (h : List.Forall₂ Node.Resembles ns ms)
    (c : Comparison) (y : Object) : compare c (.nodes ns) y = compare c (.nodes ms) y := by
  cases y <;> simp only [compare, singles_congr h, isEmpty_eq_of_resembles h]

theorem compare_nodes_right {ns ms : List Node} (h : List.Forall₂ Node.Resembles ns ms)
    (c : Comparison) (x : Object) : compare c x (.nodes ns) = compare c x (.nodes ms) := by
  cases x <;> simp only [compare, singles_congr h, isEmpty_eq_of_resembles h]

/-- **Resembling values compare alike.** -/
theorem Resembles.compare (hx : x.Resembles x') (hy : y.Resembles y') (c : Comparison) :
    x.compare c y = x'.compare c y' := by
  have hleft : x.compare c y = x'.compare c y := by
    cases hx with
    | nodes h => exact compare_nodes_left h c y
    | same => rfl
  have hright : x'.compare c y = x'.compare c y' := by
    cases hy with
    | nodes h => exact compare_nodes_right h c x'
    | same => rfl
  rw [hleft, hright]

end Object

/-! ## Functions -/

namespace Function

open Object (Resembles)

/-- **A local function** asks neither for a prefix nor for what stands elsewhere in the document. -/
def isLocal : Function → Bool
  | .name | .lang | .id => Bool.false
  | _ => Bool.true

variable {focus focus' : Focus} {as as' : List Object}

theorem map_toText_congr (h : List.Forall₂ Resembles as as') :
    as.map Object.toText = as'.map Object.toText := by
  rw [← List.forall₂_eq_eq_eq]
  exact List.rel_map (fun _ _ h => h.toText) h

/-- **A local function gives the same value for resembling arguments**, seen from nodes that
resemble each other at the same place. -/
theorem apply_congr {f : Function} (hf : f.isLocal = Bool.true) (d d' : Document)
    (hnode : focus.node.Resembles focus'.node) (hplace : focus.place = focus'.place)
    (h : List.Forall₂ Resembles as as') : f.apply d focus as = f.apply d' focus' as' := by
  have htexts := map_toText_congr h
  have hlabel : nameOf Name.label [focus.node] = nameOf Name.label [focus'.node] :=
    nameOf_congr Prod.snd (.cons hnode .nil)
  have hspace : nameOf Name.space [focus.node] = nameOf Name.space [focus'.node] :=
    nameOf_congr Prod.fst (.cons hnode .nil)
  rcases h with _ | ⟨hfirst, _ | ⟨hsecond, _ | ⟨hthird, _ | ⟨_, _⟩⟩⟩⟩
  · cases f <;> first
      | exact absurd hf Bool.false_ne_true
      | simp only [apply, hplace, hlabel, hspace, hnode.text, List.map_nil]
  · have hcount := hfirst.map_nodes? (f := fun ns => Object.number (Float.ofNat ns.length))
      fun h => by rw [h.length_eq]
    have hlabels := hfirst.map_nodes? (f := fun ns => Object.text (nameOf Name.label ns))
      fun h => congrArg Object.text (nameOf_congr Prod.snd h)
    have hspaces := hfirst.map_nodes? (f := fun ns => Object.text (nameOf Name.space ns))
      fun h => congrArg Object.text (nameOf_congr Prod.fst h)
    have htotal := hfirst.map_nodes? (f := fun ns => Object.number (total ns))
      fun h => by rw [total_congr h]
    cases f <;> first
      | exact absurd hf Bool.false_ne_true
      | simp only [apply, hcount, hlabels, hspaces, htotal, hfirst.toText, hfirst.toNumber,
          hfirst.toBoolean, List.map_cons, List.map_nil]
  · cases f <;> first
      | exact absurd hf Bool.false_ne_true
      | simp only [apply, hfirst.toText, hsecond.toText, hsecond.toNumber, List.map_cons,
          List.map_nil]
  · cases f <;> first
      | exact absurd hf Bool.false_ne_true
      | simp only [apply, hfirst.toText, hsecond.toText, hsecond.toNumber, hthird.toText,
          hthird.toNumber, List.map_cons, List.map_nil]
  · cases f <;> first
      | exact absurd hf Bool.false_ne_true
      | simp only [apply, htexts]

end Function

end MathSpeech.XPath
