import MathSpeech.Store.Lookup

/-!
# Proofs/Selection/Alike — evaluators that answer alike

Selection and lookup only put questions to the evaluator and go on with the answers.  So if the
questions to two evaluators, in whatever monads, are related by a relation that single results and
sequences respect (`Congruent`), then so are the selections and the lookups by them.  And if two
evaluators test all entries of a store alike, each at a node of its own, then what is found at the
two nodes is the same (`Store.retrieve_congr`, `Store.lookup_congr`).
-/

namespace MathSpeech

variable {m m' : Type → Type} [Monad m] [Monad m']

/-- **A relation of computations** in two monads that single results and sequences respect. -/
structure Congruent (R : ∀ α : Type, m α → m' α → Prop) : Prop where
  pure : ∀ {α : Type} (a : α), R α (pure a) (pure a)
  bind : ∀ {α β : Type} {x : m α} {y : m' α} {f : α → m β} {g : α → m' β},
    R α x y → (∀ a, R β (f a) (g a)) → R β (x >>= f) (y >>= g)

/-- **Two evaluators answer alike**, up to a relation of computations. -/
structure Evaluator.Alike {ν : Type} (R : ∀ α : Type, m α → m' α → Prop) (ev : Evaluator m ν)
    (ev' : Evaluator m' ν) : Prop where
  query : ∀ node e, R (Option ν) (ev.query node e) (ev'.query node e)
  holds : ∀ node e, R Bool (ev.holds node e) (ev'.holds node e)

namespace Evaluator.Alike

variable {ν : Type} {R : ∀ α : Type, m α → m' α → Prop} {ev : Evaluator m ν} {ev' : Evaluator m' ν}

theorem allHold (h : ev.Alike R ev') (hR : Congruent R) (node : Option ν) (cs : List Text) :
    R Bool (Selection.allHold ev node cs) (Selection.allHold ev' node cs) := by
  induction cs with
  | nil => exact hR.pure true
  | cons c rest ih =>
    refine hR.bind (h.holds node c) fun holds => ?_
    cases holds with
    | true => exact ih
    | false => exact hR.pure false

variable [DecidableEq ν]

theorem test (h : ev.Alike R ev') (hR : Congruent R) (node : Option ν) (p : Rule.Precondition) :
    R Bool (Selection.test ev node p) (Selection.test ev' node p) := by
  refine hR.bind (h.query node p.query) fun found => ?_
  by_cases hself : found = node
  · rw [if_pos hself, if_pos hself]
    exact h.allHold hR node p.constraints
  · rw [if_neg hself, if_neg hself]
    exact hR.pure false

theorem applicable (h : ev.Alike R ev') (hR : Congruent R) (node : Option ν)
    (entries : List Entry) :
    R (List Entry) (Selection.applicable ev node entries)
      (Selection.applicable ev' node entries) := by
  induction entries with
  | nil => exact hR.pure []
  | cons e rest ih =>
    refine hR.bind (h.test hR node e.1) fun holds => ?_
    cases holds with
    | true => exact hR.bind ih fun others => hR.pure (e :: others)
    | false => exact ih

/-- **Evaluators that answer alike select alike.** -/
theorem select (h : ev.Alike R ev') (hR : Congruent R) (node : Option ν) (entries : List Entry) :
    R (Option Text) (Selection.select ev node entries) (Selection.select ev' node entries) :=
  hR.bind (h.applicable hR node entries) fun _ => hR.pure _

theorem retrieve (h : ev.Alike R ev') (hR : Congruent R) (s : Store) (node : Option ν) :
    R (Option Atom) (s.retrieve ev node) (s.retrieve ev' node) :=
  hR.bind (h.select hR node s.entries) fun _ => hR.pure _

/-- **What is found with evaluators that answer alike** is alike. -/
theorem lookup (h : ev.Alike R ev') (hR : Congruent R) (s : Store) (node : Option ν)
    (domain style : Option Text) :
    R Store.Found (s.lookup ev node domain style) (s.lookup ev' node domain style) := by
  cases node with
  | none => exact hR.pure _
  | some n => exact hR.bind (h.retrieve hR s (some n)) fun _ => hR.pure _

end Evaluator.Alike

/-! ## The same verdicts -/

section Verdicts

variable {ν : Type} [DecidableEq ν] {ev ev' : Evaluator m ν} {node node' : Option ν}

theorem Selection.applicable_congr {entries : List Entry}
    (h : ∀ e ∈ entries, test ev node e.1 = test ev' node' e.1) :
    applicable ev node entries = applicable ev' node' entries := by
  induction entries with
  | nil => rfl
  | cons e rest ih =>
    rw [applicable, applicable, h e List.mem_cons_self,
      ih fun e' he' => h e' (List.mem_cons_of_mem e he')]

variable {s : Store}
  (h : ∀ e ∈ s.entries, Selection.test ev node e.1 = Selection.test ev' node' e.1)
include h

/-- **Where all entries are tested alike, the same is retrieved.** -/
theorem Store.retrieve_congr : s.retrieve ev node = s.retrieve ev' node' := by
  rw [retrieve, retrieve, Selection.select, Selection.select, Selection.applicable_congr h]

/-- **Where all entries are tested alike, the same is found**, if there are nodes. -/
theorem Store.lookup_congr (hnode : node.isSome = node'.isSome) (domain style : Option Text) :
    s.lookup ev node domain style = s.lookup ev' node' domain style := by
  have hretrieve := retrieve_congr h
  cases node <;> cases node' <;> cases hnode
  · rfl
  · rw [lookup, lookup, hretrieve]

end Verdicts

end MathSpeech
