import MathSpeech.Proofs.XPath.Resembling

/-!
# Proofs/XPath/Downward — expressions that look only downwards

An expression **looks only downwards** if its paths lead down from the node that it is seen from, if
it asks for attributes of that node alone, and if it calls only local functions (`Expr.looksDown`).
What such an expression sees is the tree of the node, so from corresponding nodes it has resembling
values, in whatever documents these are and whatever surrounds them there (`Expr.rel_evaluate`).
The induction carries more for a path: its node sets correspond node by node, so that further steps
can be taken from them.
-/

namespace MathSpeech.XPath

/-! ## Expressions -/

/-- An attribute of the node that the expression is seen from, by its name. -/
def Expr.isOwnAttribute : Expr → Bool
  | .step .here .attribute (.name none _) [] => true
  | _ => false

theorem Expr.exists_of_isOwnAttribute {e : Expr} (h : e.isOwnAttribute = true) :
    ∃ label, e = .step .here .attribute (.name none label) [] := by
  unfold isOwnAttribute at h
  split at h
  · exact ⟨_, rfl⟩
  · cases h

mutual

/-- **An expression that looks only downwards**; if `asPath`, its value has to be a set of nodes
that further steps can be taken from. -/
def Expr.looksDown : Expr → Bool → Bool
  | .number _, asPath | .literal _, asPath => !asPath
  | .variable _ _, _ | .here, _ => true
  | .root, _ => false
  | .step start axis test predicates, asPath =>
    (start.looksDown true && axis.leadsDown && Expr.allLookDown predicates)
      || (!asPath && (Expr.step start axis test predicates).isOwnAttribute)
  | .group e, asPath => e.looksDown asPath
  | .filter base predicate, _ => base.looksDown true && predicate.looksDown false
  | .union a b, _ => a.looksDown true && b.looksDown true
  | .or a b, asPath | .and a b, asPath | .compare _ a b, asPath | .arithmetic _ a b, asPath =>
    !asPath && (a.looksDown false && b.looksDown false)
  | .signed _ e, asPath => !asPath && e.looksDown false
  | .call space label arguments, asPath =>
    !asPath && (space.isNone && (Function.ofName? label).all Function.isLocal
      && Expr.allLookDown arguments)

/-- Expressions that all look only downwards. -/
def Expr.allLookDown : List Expr → Bool
  | [] => true
  | e :: rest => e.looksDown false && Expr.allLookDown rest

end

/-! ## Related computations -/

theorem rel_bind {α α' β β' : Type} {R : α → α' → Prop} {S : β → β' → Prop} {x : Option α}
    {y : Option α'} {f : α → Option β} {g : α' → Option β'} (h : Option.Rel R x y)
    (hf : ∀ u v, R u v → Option.Rel S (f u) (g v)) : Option.Rel S (x >>= f) (y >>= g) := by
  cases h with
  | none => exact .none
  | some h => exact hf _ _ h

theorem rel_map {α α' β β' : Type} {R : α → α' → Prop} {S : β → β' → Prop} {x : Option α}
    {y : Option α'} {f : α → β} {g : α' → β'} (h : Option.Rel R x y)
    (hf : ∀ u v, R u v → S (f u) (g v)) : Option.Rel S (x.map f) (y.map g) := by
  cases h with
  | none => exact .none
  | some h => exact .some (hf _ _ h)

theorem map_eq_of_rel {α α' β : Type} {R : α → α' → Prop} {x : Option α} {y : Option α'}
    {f : α → β} {g : α' → β} (h : Option.Rel R x y) (hf : ∀ u v, R u v → f u = g v) :
    x.map f = y.map g := by
  cases h with
  | none => rfl
  | some h => exact congrArg some (hf _ _ h)

theorem rel_mono {α α' : Type} {R S : α → α' → Prop} {x : Option α} {y : Option α'}
    (h : Option.Rel R x y) (hR : ∀ u v, R u v → S u v) : Option.Rel S x y := by
  cases h with
  | none => exact .none
  | some h => exact .some (hR _ _ h)

theorem rel_of_eq {α : Type} {R : α → α → Prop} {x y : Option α} (h : x = y) (hR : ∀ u, R u u) :
    Option.Rel R x y := by
  subst h
  cases x with
  | none => exact .none
  | some u => exact .some (hR u)

/-- What a path gives at two places, and what any expression does. -/
inductive Object.Agree (a b : Address) : Bool → Object → Object → Prop
  | path {asPath : Bool} {ns ms : List Node} (h : List.Forall₂ (Corresponds a b) ns ms) :
    Agree a b asPath (.nodes ns) (.nodes ms)
  | value {x y : Object} (h : x.Resembles y) : Agree a b false x y

/-- **Corresponding views**: corresponding nodes at the same place. -/
structure Focus.Corresponds (a b : Address) (focus focus' : Focus) : Prop where
  node : XPath.Corresponds a b focus.node focus'.node
  place : focus.place = focus'.place

section

variable {a b : Address} {n m : Node} {ns ms : List Node} {x y : Object} {asPath : Bool}

theorem forall₂_resembles (h : List.Forall₂ (Corresponds a b) ns ms) :
    List.Forall₂ Node.Resembles ns ms := h.imp fun _ _ => Corresponds.resembles

theorem Object.Agree.resembles (h : Object.Agree a b asPath x y) : x.Resembles y := by
  cases h with
  | path h => exact .nodes (forall₂_resembles h)
  | value h => exact h

/-- A path has node sets that correspond. -/
theorem Object.Agree.nodes? (h : Object.Agree a b true x y) :
    Option.Rel (List.Forall₂ (Corresponds a b)) x.nodes? y.nodes? := by
  cases h with
  | path h => exact .some h

/-! ## Tests -/

theorem Corresponds.isPrincipal (h : Corresponds a b n m) (axis : Axis) :
    axis.isPrincipal n = axis.isPrincipal m := by
  obtain ⟨path, halike⟩ := h
  obtain rfl | ⟨name, _, _, _, name', _, _, _, rfl, rfl, -⟩ := halike.eq_or_element
  · rfl
  · cases axis <;> rfl

theorem Corresponds.matchesName (h : Corresponds a b n m) (axis : Axis) (space label : Text) :
    matchesName axis space label n = matchesName axis space label m := by
  rw [XPath.matchesName, XPath.matchesName, h.isPrincipal]
  obtain ⟨path, halike⟩ := h
  obtain rfl | ⟨name, _, _, _, name', _, _, _, rfl, rfl, hname, -⟩ := halike.eq_or_element
  · rfl
  · have hspace : name.space = name'.space := congrArg Prod.fst hname
    have hlabel : name.label = name'.label := congrArg Prod.snd hname
    simp only [Node.name?, hspace, hlabel]

theorem Corresponds.matchesSpace (h : Corresponds a b n m) (axis : Axis) (space : Text) :
    matchesSpace axis space n = matchesSpace axis space m := by
  rw [XPath.matchesSpace, XPath.matchesSpace, h.isPrincipal]
  obtain ⟨path, halike⟩ := h
  obtain rfl | ⟨name, _, _, _, name', _, _, _, rfl, rfl, hname, -⟩ := halike.eq_or_element
  · rfl
  · have hspace : name.space = name'.space := congrArg Prod.fst hname
    simp only [Node.name?, hspace]

variable {env env' : Environment} (hspaces : env.spaces = env'.spaces)
include hspaces

/-- **A test passes corresponding nodes alike**, where prefixes stand for the same namespaces. -/
theorem Test.rel_resolve? (axis : Axis) (test : Test) :
    Option.Rel (fun p p' => ∀ {n m}, Corresponds a b n m → p n = p' m) (test.resolve? env axis)
      (test.resolve? env' axis) := by
  have hspace : ∀ label, env.space? label = env'.space? label := fun label => by
    rw [Environment.space?, Environment.space?, hspaces]
  cases test with
  | name space label =>
    cases space with
    | none => exact .some fun h => h.matchesName axis [] label
    | some label' =>
      simp only [Test.resolve?, hspace]
      cases env'.space? label' with
      | none => exact .none
      | some space => exact .some fun h => h.matchesName axis space label
  | any space =>
    cases space with
    | none => exact .some fun h => h.isPrincipal axis
    | some label' =>
      simp only [Test.resolve?, hspace]
      cases env'.space? label' with
      | none => exact .none
      | some space => exact .some fun h => h.matchesSpace axis space
  | node => exact .some fun _ => rfl
  | text | comment | instruction =>
    refine .some ?_
    rintro _ _ ⟨path, halike⟩
    obtain rfl | ⟨name, _, _, _, name', _, _, _, rfl, rfl, -⟩ := halike.eq_or_element <;> rfl

end

/-! ## Predicates -/

section

variable {a b : Address} {ns ms : List Node}

theorem holdsAt_congr {x y : Object} (h : x.Resembles y) (index : Nat) :
    holdsAt index x = holdsAt index y := by
  cases h with
  | nodes h => exact (Object.Resembles.nodes h).toBoolean
  | same => rfl

/-- **A predicate keeps corresponding nodes alike.** -/
theorem rel_keepFrom {p p' : Focus → Option Object}
    (hp : ∀ {focus focus'}, Focus.Corresponds a b focus focus' →
      Option.Rel Object.Resembles (p focus) (p' focus'))
    (h : List.Forall₂ (Corresponds a b) ns ms) (size index : Nat) :
    Option.Rel (List.Forall₂ (Corresponds a b)) (keepFrom p size index ns)
      (keepFrom p' size index ms) := by
  induction h generalizing index with
  | nil => exact .some .nil
  | cons hfirst _ ih =>
    rw [keepFrom, keepFrom]
    refine rel_bind (hp ⟨hfirst, rfl⟩) fun x y hxy => rel_bind (ih (index + 1)) ?_
    intro kept kept' hkept
    rw [holdsAt_congr hxy]
    cases holdsAt index y with
    | true => exact .some (.cons hfirst hkept)
    | false => exact .some hkept

theorem rel_keep {p p' : Focus → Option Object}
    (hp : ∀ {focus focus'}, Focus.Corresponds a b focus focus' →
      Option.Rel Object.Resembles (p focus) (p' focus'))
    (h : List.Forall₂ (Corresponds a b) ns ms) :
    Option.Rel (List.Forall₂ (Corresponds a b)) (keep p ns) (keep p' ms) := by
  rw [keep, keep, h.length_eq]
  exact rel_keepFrom hp h ms.length 1

/-- **What corresponding nodes lead to** corresponds. -/
theorem rel_gatherNodes {f f' : Node → Option (List Node)}
    (hf : ∀ {n m}, Corresponds a b n m →
      Option.Rel (List.Forall₂ (Corresponds a b)) (f n) (f' m))
    (h : List.Forall₂ (Corresponds a b) ns ms) :
    Option.Rel (List.Forall₂ (Corresponds a b)) (gatherNodes f ns) (gatherNodes f' ms) := by
  induction h with
  | nil => exact .some .nil
  | cons hfirst _ ih =>
    exact rel_bind (hf hfirst) fun _ _ hfound => rel_bind ih fun _ _ hothers =>
      .some (forall₂_union hfound hothers)

end

/-! ## Own attributes -/

/-- **Nodes in ascending order.** -/
def Ascending (n m : Node) : Prop := n.address ≠ m.address ∧ n.address.precedes m.address = true

theorem union_nil_of_pairwise {ns : List Node} (h : ns.Pairwise Ascending) :
    NodeSet.union ns [] = ns := by
  induction ns with
  | nil => rfl
  | cons n rest ih =>
    obtain ⟨hfirst, hrest⟩ := List.pairwise_cons.mp h
    have hunion : NodeSet.union (n :: rest) [] = NodeSet.insert n (NodeSet.union rest []) := rfl
    rw [hunion, ih hrest]
    cases rest with
    | nil => rfl
    | cons m others =>
      obtain ⟨hne, hprecedes⟩ := hfirst m List.mem_cons_self
      rw [NodeSet.insert, if_neg hne, if_pos hprecedes]

theorem pairwise_attributes (n : Node) : n.attributes.Pairwise Ascending := by
  rw [Node.attributes, List.pairwise_iff_getElem]
  intro i j hi hj hlt
  rw [List.getElem_mapIdx, List.getElem_mapIdx]
  have hne : i ≠ j := Nat.ne_of_lt hlt
  refine ⟨by simpa using hne, ?_⟩
  rw [Address.precedes_append]
  simp [Address.precedes, Step.precedes, hne, hlt]

theorem map_seen_filter_mapIdx {label : Text} {as : List (Name × Text)}
    {f : Nat → Name × Text → Node} (hf : ∀ i x, (f i x).content = .attribute x.1 x.2) :
    ((as.mapIdx f).filter (matchesName .attribute [] label)).map Node.seen
      = ((byName as).filter (·.1 = ([], label))).map fun x => (x.2, some x.1, true) := by
  induction as generalizing f with
  | nil => rfl
  | cons x rest ih =>
    have hfirst : matchesName .attribute [] label (f 0 x)
        = decide (x.1.expanded = ([], label)) := by
      simp [matchesName, Axis.isPrincipal, Node.name?, hf, Name.expanded, and_comm]
    have hseen : (f 0 x).seen = (x.2, some x.1.expanded, true) := by
      simp [Node.seen, Node.text, Node.name?, Node.item?, hf]
    have hrest := ih fun i => hf (i + 1)
    rw [byName] at hrest ⊢
    rw [List.mapIdx_cons, List.map_cons, List.filter_cons, List.filter_cons, hfirst]
    split
    · rw [List.map_cons, List.map_cons, hseen, hrest]
    · exact hrest

/-- The attributes of a name, by what is seen of them. -/
theorem map_seen_attributes (n : Node) (label : Text) :
    (n.attributes.filter (matchesName .attribute [] label)).map Node.seen
      = ((byName n.content.attributes).filter (·.1 = ([], label))).map
          fun x => (x.2, some x.1, true) :=
  map_seen_filter_mapIdx fun _ _ => rfl

theorem Tree.Alike.attributes {t u : Tree} (h : t.Alike u) :
    SameAttributes (Content.tree t).attributes (Content.tree u).attributes := by
  obtain rfl | ⟨_, _, _, _, _, _, _, _, rfl, rfl, -, hattributes⟩ := h.eq_or_element
  · exact fun _ => rfl
  · exact hattributes

/-- **The attributes of a name** of corresponding nodes resemble each other. -/
theorem Corresponds.forall₂_attributes {a b : Address} {n m : Node} (h : Corresponds a b n m)
    (label : Text) : List.Forall₂ Node.Resembles
      (n.attributes.filter (XPath.matchesName .attribute [] label))
      (m.attributes.filter (XPath.matchesName .attribute [] label)) := by
  have hseen : (n.attributes.filter (XPath.matchesName .attribute [] label)).map Node.seen
      = (m.attributes.filter (XPath.matchesName .attribute [] label)).map Node.seen := by
    obtain ⟨path, halike⟩ := h
    rw [map_seen_attributes, map_seen_attributes, halike.attributes ([], label)]
  rw [← List.forall₂_eq_eq_eq, List.forall₂_map_left_iff, List.forall₂_map_right_iff] at hseen
  exact hseen.imp fun _ _ => Node.resembles_of_seen

/-- The value of an own attribute. -/
theorem Expr.evaluate_ownAttribute (env : Environment) (focus : Focus) (label : Text) :
    (Expr.step .here .attribute (.name none label) []).evaluate env focus
      = some (.nodes (focus.node.attributes.filter (matchesName .attribute [] label))) := by
  have hunion := union_nil_of_pairwise
    ((pairwise_attributes focus.node).filter (matchesName .attribute [] label))
  exact congrArg (fun ns => some (Object.nodes ns)) hunion

/-! ## Values -/

section

variable {a b : Address} {env env' : Environment}

theorem Expr.rel_evaluate_ownAttribute {e : Expr} (h : e.isOwnAttribute = true)
    {focus focus' : Focus} (hfocus : focus.Corresponds a b focus') :
    Option.Rel (Object.Agree a b false) (e.evaluate env focus) (e.evaluate env' focus') := by
  obtain ⟨label, rfl⟩ := Expr.exists_of_isOwnAttribute h
  rw [Expr.evaluate_ownAttribute, Expr.evaluate_ownAttribute]
  exact .some (.value (.nodes (hfocus.node.forall₂_attributes label)))

mutual

/-- **Expressions that look only downwards have resembling values** when seen from corresponding
nodes, and those of paths correspond node by node. -/
theorem Expr.rel_evaluate (hspaces : env.spaces = env'.spaces) :
    ∀ (e : Expr) {asPath : Bool}, e.looksDown asPath = true →
    ∀ {focus focus' : Focus}, focus.Corresponds a b focus' →
      Option.Rel (Object.Agree a b asPath) (e.evaluate env focus) (e.evaluate env' focus')
  | .number x, false, _, _, _, _ => .some (.value (.same _))
  | .literal t, false, _, _, _, _ => .some (.value (.same _))
  | .variable _ _, _, _, _, _, _ => .none
  | .here, _, _, _, _, hfocus => .some (.path (.cons hfocus.node .nil))
  | .root, _, h, _, _, _ => nomatch h
  | .step start axis test predicates, asPath, h, focus, focus', hfocus => by
    rw [Expr.looksDown, Bool.or_eq_true] at h
    obtain hpath | hown := h
    · rw [Bool.and_eq_true, Bool.and_eq_true] at hpath
      obtain ⟨⟨hstart, haxis⟩, hpredicates⟩ := hpath
      rw [Expr.evaluate, Expr.evaluate]
      refine rel_bind (start.rel_evaluate hspaces hstart hfocus) fun _ _ hx => ?_
      refine rel_bind hx.nodes? fun ns ms hns => ?_
      refine rel_bind (Test.rel_resolve? (a := a) (b := b) hspaces axis test) fun p p' hp => ?_
      refine rel_bind (rel_gatherNodes (fun h => ?_) hns) fun _ _ hfound => .some (.path hfound)
      have hpasses := List.rel_filter (fun _ _ h => Iff.of_eq (congrArg (· = true) (hp h)))
        (h.onAxis haxis env.document env'.document)
      exact Expr.rel_keepAll hspaces predicates hpredicates hpasses
    · cases asPath with
      | true => cases hown
      | false => exact Expr.rel_evaluate_ownAttribute hown hfocus
  | .group e, _, h, _, _, hfocus => e.rel_evaluate hspaces h hfocus
  | .filter base predicate, asPath, h, focus, focus', hfocus => by
    obtain ⟨hbase, hpredicate⟩ := Bool.and_eq_true_iff.mp h
    rw [Expr.evaluate, Expr.evaluate]
    refine rel_bind (base.rel_evaluate hspaces hbase hfocus) fun _ _ hx => ?_
    cases hx with
    | path hns =>
      refine rel_map (rel_keep (fun h => ?_) hns) fun _ _ hkept => .path hkept
      exact rel_mono (predicate.rel_evaluate hspaces hpredicate h) fun _ _ => Object.Agree.resembles
  | .union x y, asPath, h, focus, focus', hfocus => by
    obtain ⟨hx, hy⟩ := Bool.and_eq_true_iff.mp h
    rw [Expr.evaluate, Expr.evaluate]
    refine rel_bind (x.rel_evaluate hspaces hx hfocus) fun _ _ hx => ?_
    refine rel_bind hx.nodes? fun _ _ hns => ?_
    refine rel_bind (y.rel_evaluate hspaces hy hfocus) fun _ _ hy => ?_
    exact rel_bind hy.nodes? fun _ _ hms => .some (.path (forall₂_union hns hms))
  | .or x y, false, h, focus, focus', hfocus => by
    obtain ⟨hx, hy⟩ : x.looksDown false = true ∧ y.looksDown false = true :=
      Bool.and_eq_true_iff.mp h
    rw [Expr.evaluate, Expr.evaluate]
    refine rel_bind (x.rel_evaluate hspaces hx hfocus) fun _ v hx => ?_
    rw [hx.resembles.toBoolean]
    cases v.toBoolean with
    | true => exact .some (.value (.same _))
    | false =>
      refine rel_bind (y.rel_evaluate hspaces hy hfocus) fun _ _ hy => ?_
      rw [hy.resembles.toBoolean]
      exact .some (.value (.same _))
  | .and x y, false, h, focus, focus', hfocus => by
    obtain ⟨hx, hy⟩ : x.looksDown false = true ∧ y.looksDown false = true :=
      Bool.and_eq_true_iff.mp h
    rw [Expr.evaluate, Expr.evaluate]
    refine rel_bind (x.rel_evaluate hspaces hx hfocus) fun _ v hx => ?_
    rw [hx.resembles.toBoolean]
    cases v.toBoolean with
    | true =>
      refine rel_bind (y.rel_evaluate hspaces hy hfocus) fun _ _ hy => ?_
      rw [hy.resembles.toBoolean]
      exact .some (.value (.same _))
    | false => exact .some (.value (.same _))
  | .compare c x y, false, h, focus, focus', hfocus => by
    obtain ⟨hx, hy⟩ : x.looksDown false = true ∧ y.looksDown false = true :=
      Bool.and_eq_true_iff.mp h
    rw [Expr.evaluate, Expr.evaluate]
    refine rel_bind (x.rel_evaluate hspaces hx hfocus) fun _ _ hx => ?_
    refine rel_bind (y.rel_evaluate hspaces hy hfocus) fun _ _ hy => ?_
    rw [hx.resembles.compare hy.resembles]
    exact .some (.value (.same _))
  | .arithmetic o x y, false, h, focus, focus', hfocus => by
    obtain ⟨hx, hy⟩ : x.looksDown false = true ∧ y.looksDown false = true :=
      Bool.and_eq_true_iff.mp h
    rw [Expr.evaluate, Expr.evaluate]
    refine rel_bind (x.rel_evaluate hspaces hx hfocus) fun _ _ hx => ?_
    refine rel_bind (y.rel_evaluate hspaces hy hfocus) fun _ _ hy => ?_
    rw [hx.resembles.toNumber, hy.resembles.toNumber]
    exact .some (.value (.same _))
  | .signed minus e, false, h, focus, focus', hfocus => by
    rw [Expr.evaluate, Expr.evaluate]
    refine rel_bind (e.rel_evaluate hspaces h hfocus) fun _ _ hx => ?_
    rw [hx.resembles.toNumber]
    exact .some (.value (.same _))
  | .call none label arguments, false, h, focus, focus', hfocus => by
    obtain ⟨hlocal, harguments⟩ : (Function.ofName? label).all Function.isLocal = true
        ∧ Expr.allLookDown arguments = true := Bool.and_eq_true_iff.mp h
    rw [Expr.evaluate, Expr.evaluate]
    refine rel_bind (Expr.rel_evaluateAll hspaces arguments harguments hfocus) fun _ _ has => ?_
    cases hf : Function.ofName? label with
    | none => exact .none
    | some f =>
      rw [hf] at hlocal
      have hsame := Function.apply_congr hlocal env.document env'.document hfocus.node.resembles
        hfocus.place has
      exact rel_of_eq hsame fun _ => .value (.same _)

theorem Expr.rel_evaluateAll (hspaces : env.spaces = env'.spaces) :
    ∀ (es : List Expr), Expr.allLookDown es = true →
    ∀ {focus focus' : Focus}, focus.Corresponds a b focus' →
      Option.Rel (List.Forall₂ Object.Resembles) (Expr.evaluateAll env es focus)
        (Expr.evaluateAll env' es focus')
  | [], _, _, _, _ => .some .nil
  | e :: rest, h, focus, focus', hfocus => by
    obtain ⟨he, hrest⟩ := Bool.and_eq_true_iff.mp h
    rw [Expr.evaluateAll, Expr.evaluateAll]
    refine rel_bind (e.rel_evaluate hspaces he hfocus) fun _ _ hx => ?_
    exact rel_bind (Expr.rel_evaluateAll hspaces rest hrest hfocus) fun _ _ hxs =>
      .some (.cons hx.resembles hxs)

theorem Expr.rel_keepAll (hspaces : env.spaces = env'.spaces) :
    ∀ (ps : List Expr), Expr.allLookDown ps = true →
    ∀ {ns ms : List Node}, List.Forall₂ (Corresponds a b) ns ms →
      Option.Rel (List.Forall₂ (Corresponds a b)) (Expr.keepAll env ps ns)
        (Expr.keepAll env' ps ms)
  | [], _, _, _, hns => .some hns
  | p :: rest, h, ns, ms, hns => by
    obtain ⟨hp, hrest⟩ := Bool.and_eq_true_iff.mp h
    rw [Expr.keepAll, Expr.keepAll]
    refine rel_bind (rel_keep (fun h => ?_) hns) fun _ _ hkept => ?_
    · exact rel_mono (p.rel_evaluate hspaces hp h) fun _ _ => Object.Agree.resembles
    · exact Expr.rel_keepAll hspaces rest hrest hkept

end

end

end MathSpeech.XPath
