import MathSpeech.XPath.Evaluation
import Mathlib.Data.List.Forall2

/-!
# Proofs/XPath/Alike — trees that look the same from above

Two trees are **alike** if they differ in nothing but the prefixes of their names, the namespaces in
scope and the order of attributes (`Tree.Alike`).  They may stand anywhere, in two documents or in
one.  A node of the one **corresponds** to the node of the other at the end of the same path
(`Corresponds`).  The axes that lead down take corresponding nodes to corresponding nodes, in the
same order, and node sets of such nodes are united alike.
-/

namespace MathSpeech.XPath

/-! ## Trees -/

/-- **The expanded name**: the namespace and the local name, without the prefix. -/
def Name.expanded (name : Name) : Text × Text := (name.space, name.label)

/-- Attributes by their expanded names. -/
def byName (as : List (Name × Text)) : List ((Text × Text) × Text) :=
  as.map fun (name, value) => (name.expanded, value)

/-- **The same attributes**: the same values under each expanded name, in whatever order the names
come. -/
def SameAttributes (as as' : List (Name × Text)) : Prop :=
  ∀ name, (byName as).filter (·.1 = name) = (byName as').filter (·.1 = name)

/-- **Attributes of distinct names are the same** in whatever order they come. -/
theorem sameAttributes_of_perm {as as' : List (Name × Text)} (h : (byName as).Perm (byName as'))
    (hnames : ((byName as).map Prod.fst).Nodup) : SameAttributes as as' := by
  intro name
  have hperm := h.filter (·.1 = name)
  have hdistinct := hnames.sublist ((List.filter_sublist (p := (·.1 = name))).map Prod.fst)
  match hfiltered : (byName as).filter (·.1 = name) with
  | [] =>
    rw [hfiltered] at hperm ⊢
    exact (List.nil_perm.mp hperm).symm
  | [x] =>
    rw [hfiltered] at hperm ⊢
    exact List.singleton_perm.mp hperm
  | x :: y :: rest =>
    have hx : x ∈ (byName as).filter (·.1 = name) := hfiltered ▸ List.mem_cons_self
    have hy : y ∈ (byName as).filter (·.1 = name) :=
      hfiltered ▸ List.mem_cons_of_mem x List.mem_cons_self
    have hsame : x.1 = y.1 := (of_decide_eq_true (List.mem_filter.mp hx).2).trans
      (of_decide_eq_true (List.mem_filter.mp hy).2).symm
    rw [hfiltered] at hdistinct
    exact absurd (hsame ▸ List.mem_cons_self) (List.nodup_cons.mp hdistinct).1

mutual

/-- **Trees that are alike**: the same but for prefixes, namespaces in scope and the order of
attributes. -/
def Tree.Alike : Tree → Tree → Prop
  | .element name _ as children, .element name' _ as' children' =>
    name.expanded = name'.expanded ∧ SameAttributes as as' ∧ ForestAlike children children'
  | .text t, .text t' => t = t'
  | .comment t, .comment t' => t = t'
  | .instruction target data, .instruction target' data' => target = target' ∧ data = data'
  | _, _ => False

/-- Lists of trees that are alike, one by one. -/
def ForestAlike : List Tree → List Tree → Prop
  | [], [] => True
  | t :: ts, u :: us => t.Alike u ∧ ForestAlike ts us
  | _, _ => False

end

mutual

theorem Tree.Alike.innerText : ∀ {t u : Tree}, t.Alike u → t.innerText = u.innerText
  | .element _ _ _ _, .element _ _ _ _, h => ForestAlike.forestText h.2.2
  | .text _, .text _, h => h
  | .comment _, .comment _, _ => rfl
  | .instruction _ _, .instruction _ _, _ => rfl

theorem ForestAlike.forestText : ∀ {ts us : List Tree}, ForestAlike ts us →
    forestText ts = forestText us
  | [], [], _ => rfl
  | _ :: _, _ :: _, h => congrArg₂ (· ++ ·) h.1.innerText (ForestAlike.forestText h.2)

end

/-- **Alike trees are the same, or elements** of the same name but for its prefix, with the same
attributes. -/
theorem Tree.Alike.eq_or_element : ∀ {t u : Tree}, t.Alike u → t = u
    ∨ ∃ name bindings as children name' bindings' as' children',
      t = .element name bindings as children ∧ u = .element name' bindings' as' children'
        ∧ name.expanded = name'.expanded ∧ SameAttributes as as'
  | .element .., .element .., h => .inr ⟨_, _, _, _, _, _, _, _, rfl, rfl, h.1, h.2.1⟩
  | .text _, .text _, h => .inl (congrArg Tree.text h)
  | .comment _, .comment _, h => .inl (congrArg Tree.comment h)
  | .instruction .., .instruction .., h => .inl (congrArg₂ Tree.instruction h.1 h.2)

theorem ForestAlike.forall₂_mapIdx {R : Node → Node → Prop} :
    ∀ {ts us : List Tree}, ForestAlike ts us → ∀ {f g : Nat → Tree → Node},
      (∀ i t u, t.Alike u → R (f i t) (g i u)) → List.Forall₂ R (ts.mapIdx f) (us.mapIdx g)
  | [], [], _, _, _, _ => .nil
  | t :: ts, u :: us, h, f, g, hfg => by
    rw [List.mapIdx_cons, List.mapIdx_cons]
    exact .cons (hfg 0 t u h.1) (h.2.forall₂_mapIdx fun i => hfg (i + 1))

/-! ## Nodes -/

/-- **Corresponding nodes** below two addresses: alike trees at the end of the same path. -/
inductive Corresponds (a b : Address) : Node → Node → Prop
  | mk (path : Address) {t u : Tree} (h : t.Alike u) :
    Corresponds a b ⟨a ++ path, .tree t⟩ ⟨b ++ path, .tree u⟩

/-- What lies below a common address is ordered by the paths. -/
theorem Address.precedes_append (a p q : Address) :
    Address.precedes (a ++ p) (a ++ q) = Address.precedes p q := by
  induction a with
  | nil => rfl
  | cons s rest ih => rw [List.cons_append, List.cons_append, Address.precedes, if_pos rfl, ih]

section

variable {a b : Address} {n m : Node} {ns ms ns' ms' : List Node}

/-! ## Node sets -/

theorem Corresponds.insert (h : Corresponds a b n m) (hs : List.Forall₂ (Corresponds a b) ns ms) :
    List.Forall₂ (Corresponds a b) (NodeSet.insert n ns) (NodeSet.insert m ms) := by
  induction hs with
  | nil => exact .cons h .nil
  | cons hfirst hrest ih =>
    obtain ⟨path, halike⟩ := h
    obtain ⟨path', halike'⟩ := hfirst
    simp only [NodeSet.insert, List.append_right_inj, Address.precedes_append]
    split
    · exact .cons ⟨path', halike'⟩ hrest
    · split
      · exact .cons ⟨path, halike⟩ (.cons ⟨path', halike'⟩ hrest)
      · exact .cons ⟨path', halike'⟩ ih

/-- **Unions of corresponding node sets correspond.** -/
theorem forall₂_union (hs : List.Forall₂ (Corresponds a b) ns ms)
    (hs' : List.Forall₂ (Corresponds a b) ns' ms') :
    List.Forall₂ (Corresponds a b) (NodeSet.union ns ns') (NodeSet.union ms ms') := by
  induction hs with
  | nil => exact hs'
  | cons h _ ih => exact h.insert ih

/-! ## Axes -/

mutual

theorem Tree.Alike.forall₂_treeNodes (path : Address) : ∀ {t u : Tree}, t.Alike u →
    List.Forall₂ (Corresponds a b) (treeNodes (a ++ path) t) (treeNodes (b ++ path) u)
  | .element _ _ _ _, .element _ _ _ _, h =>
    .cons ⟨path, h⟩ (ForestAlike.forall₂_forestNodes path 0 h.2.2)
  | .text _, .text _, h => .cons ⟨path, h⟩ .nil
  | .comment _, .comment _, h => .cons ⟨path, h⟩ .nil
  | .instruction _ _, .instruction _ _, h => .cons ⟨path, h⟩ .nil

theorem ForestAlike.forall₂_forestNodes (path : Address) (index : Nat) :
    ∀ {ts us : List Tree}, ForestAlike ts us →
      List.Forall₂ (Corresponds a b) (forestNodes (a ++ path) index ts)
        (forestNodes (b ++ path) index us)
  | [], [], _ => .nil
  | t :: ts, u :: us, h => by
    rw [forestNodes, forestNodes, List.append_assoc, List.append_assoc]
    exact List.rel_append (h.1.forall₂_treeNodes (path ++ [.child index]))
      (h.2.forall₂_forestNodes path (index + 1))

end

/-- The trees below alike trees are alike. -/
theorem Tree.Alike.children : ∀ {t u : Tree}, t.Alike u →
    ForestAlike (Content.tree t).children (Content.tree u).children
  | .element _ _ _ _, .element _ _ _ _, h => h.2.2
  | .text _, .text _, _ => trivial
  | .comment _, .comment _, _ => trivial
  | .instruction _ _, .instruction _ _, _ => trivial

theorem Corresponds.children (h : Corresponds a b n m) :
    List.Forall₂ (Corresponds a b) n.children m.children := by
  obtain ⟨path, halike⟩ := h
  refine halike.children.forall₂_mapIdx fun i t u htu => ?_
  rw [List.append_assoc, List.append_assoc]
  exact ⟨path ++ [.child i], htu⟩

theorem Corresponds.descendants (h : Corresponds a b n m) :
    List.Forall₂ (Corresponds a b) n.descendants m.descendants := by
  obtain ⟨path, halike⟩ := h
  exact halike.children.forall₂_forestNodes path 0

/-- **The axes that lead down.** -/
def Axis.leadsDown : Axis → Bool
  | .self | .child | .descendant | .descendantOrSelf => true
  | _ => false

/-- **The axes that lead down** take corresponding nodes to corresponding nodes. -/
theorem Corresponds.onAxis (h : Corresponds a b n m) {axis : Axis} (haxis : axis.leadsDown = true)
    (d d' : Document) :
    List.Forall₂ (Corresponds a b) (d.onAxis n axis) (d'.onAxis m axis) := by
  cases axis with
  | self => exact .cons h .nil
  | child => exact h.children
  | descendant => exact h.descendants
  | descendantOrSelf => exact .cons h h.descendants
  | _ => cases haxis

end

end MathSpeech.XPath
