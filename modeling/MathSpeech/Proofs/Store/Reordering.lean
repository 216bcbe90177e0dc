import MathSpeech.Proofs.Selection.Ranking
import MathSpeech.Proofs.Store.Consistent
import MathSpeech.Proofs.Store.Frozen
import Mathlib.Data.List.Sort
import Mathlib.Logic.Equiv.Fin.Rotate

/-!
# Proofs/Store/Reordering — the order of definitions counts within a key and within a rank

Definitions may be moved past one another if they have neither the key nor the number of constraints
in common: a **reordering** keeps the order of those that do (`Store.Reordering`).  Two facts carry
`Store.Reordering.sound`.

* What a definition does at a key depends on the store only at that key (`Store.AgreesAt`), so each
  definition finds there what the earlier ones with its key have left, and gets the same answer.
* Hence the same definitions succeed, and the entries of each rank are registered in the same order;
  a selection looks at no more than that.
-/

namespace MathSpeech.Store

open Rule (Action)
open Selection (ranked)

/-! ## Positions -/

/-- **A bijection that is monotone on a part of the positions** brings this part, in order, to the
part that corresponds to it, in order. -/
theorem map_filter_finRange {n n' : Nat} (e : Fin n ≃ Fin n') {part : Fin n → Bool}
    {part' : Fin n' → Bool} (hpart : ∀ i, part' (e i) = part i)
    (hmono : ∀ i j, part i = true → part j = true → i < j → e i < e j) :
    ((List.finRange n).filter part).map e = (List.finRange n').filter part' := by
  have hsorted : ((List.finRange n).filter part).Pairwise (· < ·) :=
    (List.sortedLT_finRange n).pairwise.filter part
  have hsorted' : ((List.finRange n').filter part').Pairwise (· < ·) :=
    (List.sortedLT_finRange n').pairwise.filter part'
  have himage : (((List.finRange n).filter part).map e).Pairwise (· < ·) :=
    List.pairwise_map.mpr <| hsorted.imp_of_mem fun hi hj =>
      hmono _ _ (List.mem_filter.mp hi).2 (List.mem_filter.mp hj).2
  refine himage.eq_of_mem_iff hsorted' fun j => ?_
  simp only [List.mem_map, List.mem_filter, List.mem_finRange, true_and]
  constructor
  · rintro ⟨i, hi, rfl⟩
    rw [hpart, hi]
  · intro hj
    exact ⟨e.symm j, by rw [← hpart, e.apply_symm_apply, hj], e.apply_symm_apply j⟩

/-- The first items of a list, by their positions. -/
theorem take_eq_map_filter {α : Type} (xs : List α) (count : Nat) :
    xs.take count
      = ((List.finRange xs.length).filter fun i => decide (i.val < count)).map fun i => xs[i] := by
  induction xs generalizing count with
  | nil => rw [List.take_nil]; rfl
  | cons x rest ih =>
    cases count with
    | zero => simp
    | succ count => simp [List.finRange_succ, List.filter_map, Function.comp_def, ih]

/-! ## Locality -/

/-- **Two stores agree at a key**: they have the same atom of it, and both or none are frozen. -/
structure AgreesAt (s t : Store) (key : Text) : Prop where
  frozen : s.frozen = t.frozen
  atom : s.atoms.get? key = t.atoms.get? key

namespace AgreesAt

variable {s t u : Store} {key : Text} {d : Definition}

theorem refl (s : Store) (key : Text) : AgreesAt s s key := ⟨rfl, rfl⟩

theorem symm (h : AgreesAt s t key) : AgreesAt t s key := ⟨h.frozen.symm, h.atom.symm⟩

theorem trans (h : AgreesAt s t key) (h' : AgreesAt t u key) : AgreesAt s u key :=
  ⟨h.frozen.trans h'.frozen, h.atom.trans h'.atom⟩

theorem atomFor (h : AgreesAt s t key) (category : Text) :
    s.atomFor key category = t.atomFor key category := by
  rw [Store.atomFor, Store.atomFor, h.atom]

theorem inOrder (h : AgreesAt s t d.registration.key) : d.inOrder s = d.inOrder t := by
  cases d with
  | other key query constraints => exact congrArg Option.isSome h.atom
  | _ => rfl

theorem fst_perform (h : AgreesAt s t d.registration.key) : (d.perform s).1 = (d.perform t).1 := by
  rw [d.perform_eq, d.perform_eq, h.frozen, h.inOrder]
  cases t.frozen <;> cases d.inOrder t <;> rfl

/-- **A definition gets the same answer** from stores that agree at its key. -/
theorem answer (h : AgreesAt s t d.registration.key) :
    (Call.define d).answer s = (Call.define d).answer t := by
  cases d with
  | rule key category domain text query constraints =>
    refine congrArg Call.Answer.defined ?_
    simp only [define, h.frozen]
    split
    · rfl
    · cases splitDomain? domain with
      | none => rfl
      | some pair => cases Action.parse text <;> rfl
  | rules key category texts query constraints =>
    refine congrArg Call.Answer.definedSome ?_
    simp only [defineMappings, h.frozen]
    split
    · rfl
    · split <;> rfl
  | actions key category p placed =>
    refine congrArg Call.Answer.added ?_
    have hatom := h.atomFor category
    simp only [Definition.registration] at hatom
    simp only [addRule, h.frozen, hatom]
    split <;> rfl
  | other key query constraints =>
    refine congrArg Call.Answer.defined ?_
    have hatom : s.atoms.contains key = t.atoms.contains key := congrArg Option.isSome h.atom
    simp only [defineAlias, h.frozen, hatom]
    split
    · rfl
    · split <;> rfl

/-- A definition with another key changes nothing at a key. -/
theorem perform_apart (s : Store) (hkey : d.registration.key ≠ key) :
    AgreesAt (d.perform s).2 s key := by
  obtain ⟨hd, -, horder⟩ | hd := d.perform_cases s
  · rw [hd]
    exact ⟨d.frozen_enter s, (Definition.get?_atoms_enter horder key).trans (if_neg hkey)⟩
  · rw [hd]
    exact refl s key

/-- A definition keeps an agreement, whatever its key is. -/
theorem perform (h : AgreesAt s t key) (d : Definition) :
    AgreesAt (d.perform s).2 (d.perform t).2 key := by
  by_cases hkey : d.registration.key = key
  · subst hkey
    have horder := h.inOrder
    rw [d.perform_eq, d.perform_eq, h.frozen, horder]
    split
    · rename_i hentered
      have hd : d.inOrder t = true := (Bool.and_eq_true_iff.mp hentered).2
      refine ⟨by rw [d.frozen_enter, d.frozen_enter, h.frozen], ?_⟩
      rw [Definition.get?_atoms_enter (horder.trans hd), Definition.get?_atoms_enter hd,
        if_pos rfl, if_pos rfl, h.atomFor]
    · exact h
  · exact (perform_apart s hkey).trans (h.trans (perform_apart t hkey).symm)

/-- **Only the definitions with its key matter at a key.** -/
theorem afterAll_filter (h : AgreesAt s t key) (ds : List Definition) :
    AgreesAt (s.afterAll ds) (t.afterAll (ds.filter (·.registration.key = key))) key := by
  induction ds generalizing s t with
  | nil => exact h
  | cons d rest ih =>
    rw [afterAll_cons, List.filter_cons]
    split
    · exact ih (h.perform d)
    · rename_i hkey
      exact ih ((perform_apart s (by simpa using hkey)).trans h)

end AgreesAt

/-! ## One definition of a list -/

section Positions

variable (s : Store) (ds : List Definition)

/-- **The store that a definition of a list finds.** -/
def before (i : Fin ds.length) : Store := s.afterAll (ds.take i)

/-- **The answer to a definition of a list**, one made after the other. -/
def answerTo (i : Fin ds.length) : Call.Answer := (Call.define ds[i]).answer (s.before ds i)

/-- Whether a definition of a list succeeds. -/
def succeeds (i : Fin ds.length) : Bool := (ds[i].perform (s.before ds i)).1

/-- **The record** lists what succeeds. -/
theorem record_eq_map : s.record ds
    = ((List.finRange ds.length).filter (s.succeeds ds)).map fun i => ds[i].registration := by
  induction ds generalizing s with
  | nil => rfl
  | cons d rest ih =>
    have hfirst : s.succeeds (d :: rest) ⟨0, Nat.succ_pos _⟩ = (d.perform s).1 := rfl
    have hlater : ((List.finRange rest.length).map Fin.succ).filter (s.succeeds (d :: rest))
        = ((List.finRange rest.length).filter ((d.perform s).2.succeeds rest)).map Fin.succ :=
      List.filter_map
    have hsplit : List.finRange (d :: rest).length
        = ⟨0, Nat.succ_pos _⟩ :: (List.finRange rest.length).map Fin.succ := List.finRange_succ
    rw [record, ih, hsplit, List.filter_cons, hfirst, hlater]
    split
    · rw [List.map_cons, List.map_map]
      rfl
    · rw [List.map_map]
      rfl

theorem entries_afterAll :
    (s.afterAll ds).entries = s.entries ++ (s.record ds).map Registration.entry := by
  refine record_induction (fun h t => t.entries = s.entries ++ h.map Registration.entry)
    (fun h t d ht _ => ?_) (h := []) (List.append_nil s.entries).symm ds
  rw [d.entries_enter, ht, List.map_append, List.map_singleton, List.append_assoc]

/-- The entries of one rank: those from before, and those of the definitions that succeed. -/
theorem ranked_entries_afterAll (count : Nat) :
    ranked (s.afterAll ds).entries count
      = ranked s.entries count
        ++ ((List.finRange ds.length).filter fun i =>
          s.succeeds ds i && decide (ds[i].registration.precondition.specificity = count)).map
            fun i => ds[i].registration.entry := by
  rw [entries_afterAll, record_eq_map, ranked, List.filter_append, List.map_map, List.filter_map,
    List.filter_filter]
  refine congrArg (ranked s.entries count ++ ·) (congrArg (List.map _) ?_)
  exact List.filter_congr fun i _ => Bool.and_comm ..

/-- Definitions leave the settings of a store alone. -/
theorem settings_afterAll : (s.afterAll ds).debug = s.debug
    ∧ (s.afterAll ds).defaultDomain = s.defaultDomain
    ∧ (s.afterAll ds).defaultStyle = s.defaultStyle := by
  refine record_induction (fun _ t => t.debug = s.debug ∧ t.defaultDomain = s.defaultDomain
    ∧ t.defaultStyle = s.defaultStyle) (fun _ t d ht _ => ?_) (h := []) ⟨rfl, rfl, rfl⟩ ds
  cases d <;> exact ht

end Positions

/-- How an atom is answered with depends on the store only by whether it reports. -/
theorem answer_congr {s t : Store} (hdebug : s.debug = t.debug) : s.answer = t.answer := by
  funext domain style atom
  cases atom with
  | none => rfl
  | some a => rw [answer, answer, hdebug]

/-! ## Gathered names -/

/-- **A field gathers names of atoms**: a registration adds those of its atom, and entries count for
nothing. -/
structure GathersNames (field : Store → List Text) (names : Atom → List Text) : Prop where
  mem_register : ∀ s key category p placed t, t ∈ field (s.register key category p placed)
    ↔ t ∈ field s ∨ t ∈ names ((s.atomFor key category).addAll placed)
  entries : ∀ s entries, field { s with entries } = field s

theorem gathersNames_domains : GathersNames Store.domains Atom.domains where
  mem_register _ _ _ _ _ _ := mem_appendUnique
  entries _ _ := rfl

theorem gathersNames_styles : GathersNames Store.styles Atom.styles where
  mem_register _ _ _ _ _ _ := mem_appendUnique
  entries _ _ := rfl

theorem gathersNames_categories : GathersNames Store.categories categoryNames where
  mem_register _ _ _ _ _ _ := by rw [categories_register, mem_appendUnique]
  entries _ _ := rfl

/-- **The names that a definition adds**: those of its atom, if it succeeds. -/
def added (names : Atom → List Text) (s : Store) : Definition → List Text
  | .other .. => []
  | d@(.rule ..) | d@(.rules ..) | d@(.actions ..) =>
    if (d.perform s).1 then
      names ((s.atomFor d.registration.key d.registration.category).addAll d.registration.placed)
    else []

namespace GathersNames

variable {field : Store → List Text} {names : Atom → List Text}

theorem mem_perform (h : GathersNames field names) (s : Store) (d : Definition) (t : Text) :
    t ∈ field (d.perform s).2 ↔ t ∈ field s ∨ t ∈ added names s d := by
  obtain ⟨hd, -, -⟩ | hd := d.perform_cases s
  · cases d with
    | other key query constraints =>
      rw [hd]
      exact (Iff.of_eq (congrArg (t ∈ ·) (h.entries ..))).trans (or_iff_left List.not_mem_nil).symm
    | _ =>
      rw [added, hd]
      exact h.mem_register ..
  · have hnone : added names s d = [] := by
      cases d <;> simp [added, hd]
    rw [hd, hnone, or_iff_left List.not_mem_nil]

/-- **The names that are gathered after definitions**: those from before, and those that the
definitions add. -/
theorem mem_afterAll (h : GathersNames field names) (s : Store) (ds : List Definition) (t : Text) :
    t ∈ field (s.afterAll ds)
      ↔ t ∈ field s ∨ ∃ i : Fin ds.length, t ∈ added names (s.before ds i) ds[i] := by
  induction ds generalizing s with
  | nil => exact (or_iff_left fun ⟨i, _⟩ => i.elim0).symm
  | cons d rest ih =>
    rw [afterAll_cons, ih, h.mem_perform, or_assoc]
    refine or_congr_right ?_
    exact (Fin.exists_fin_succ (P := fun i => t ∈ added names (s.before (d :: rest) i)
      (d :: rest)[i])).symm

end GathersNames

/-- What a definition adds depends on the store only at its key. -/
theorem AgreesAt.added {s t : Store} {d : Definition} (h : AgreesAt s t d.registration.key)
    (names : Atom → List Text) : Store.added names s d = Store.added names t d := by
  cases d with
  | other key query constraints => rfl
  | _ => rw [Store.added, Store.added, h.fst_perform, h.atomFor]

/-! ## Reorderings -/

/-- **A feature of definitions is kept in order**: of two that have it in common the earlier one
stays earlier. -/
def KeepsOrder {α : Type} {ds ds' : List Definition} (place : Fin ds.length ≃ Fin ds'.length)
    (feature : Definition → α) : Prop :=
  ∀ i j, i < j → feature ds[i] = feature ds[j] → place i < place j

/-- **A reordering** of definitions: each gets another place, and those with the same key, and those
with the same number of constraints, keep their order. -/
structure Reordering (ds ds' : List Definition) where
  place : Fin ds.length ≃ Fin ds'.length
  same : ∀ i, ds'[place i] = ds[i]
  key : KeepsOrder place fun d => d.registration.key
  count : KeepsOrder place fun d => d.registration.precondition.specificity

theorem KeepsOrder.lt_iff {α : Type} {ds ds' : List Definition}
    {place : Fin ds.length ≃ Fin ds'.length} {feature : Definition → α}
    (h : KeepsOrder place feature) {i j : Fin ds.length} (hij : feature ds[i] = feature ds[j]) :
    place i < place j ↔ i < j := by
  refine ⟨fun hplace => ?_, fun hlt => h i j hlt hij⟩
  obtain hlt | heq | hgt := lt_trichotomy i j
  · exact hlt
  · exact absurd (heq ▸ hplace) (lt_irrefl _)
  · exact absurd (h j i hgt hij.symm) (lt_asymm hplace)

/-- What is listed of definitions that share a feature which is kept in order is listed in the same
order from their new places. -/
theorem KeepsOrder.map_filter {α β : Type} {ds ds' : List Definition}
    {place : Fin ds.length ≃ Fin ds'.length} {feature : Definition → α}
    (h : KeepsOrder place feature) {a : α} {part : Fin ds.length → Bool}
    {part' : Fin ds'.length → Bool} {f : Fin ds.length → β} {f' : Fin ds'.length → β}
    (hpart : ∀ i, part' (place i) = part i) (hf : ∀ i, f' (place i) = f i)
    (hshared : ∀ i, part i = true → feature ds[i] = a) :
    ((List.finRange ds'.length).filter part').map f'
      = ((List.finRange ds.length).filter part).map f := by
  rw [← map_filter_finRange place hpart fun i j hi hj hlt =>
    h i j hlt ((hshared i hi).trans (hshared j hj).symm), List.map_map]
  exact List.map_congr_left fun i _ => hf i

namespace Reordering

variable {ds ds' : List Definition} (r : Reordering ds ds') (s : Store)
include r

/-- **Before a definition stand the same definitions with its key**, in the same order. -/
theorem filter_take (i : Fin ds.length) :
    (ds'.take (r.place i)).filter (·.registration.key = ds[i].registration.key)
      = (ds.take i).filter (·.registration.key = ds[i].registration.key) := by
  have hpositions : ∀ (xs : List Definition) (count : Nat) (key : Text),
      (xs.take count).filter (·.registration.key = key)
        = ((List.finRange xs.length).filter fun j =>
          decide (xs[j].registration.key = key) && decide (j.val < count)).map fun j => xs[j] := by
    intro xs count key
    rw [take_eq_map_filter, List.filter_map, List.filter_filter]
    rfl
  rw [hpositions, hpositions]
  refine r.key.map_filter (a := ds[i].registration.key) (fun j => ?_) r.same fun j hj => ?_
  · rw [r.same]
    by_cases hkey : ds[j].registration.key = ds[i].registration.key
    · exact congrArg _ (decide_eq_decide.mpr (r.key.lt_iff hkey))
    · rw [decide_eq_false hkey, Bool.false_and, Bool.false_and]
  · exact of_decide_eq_true (Bool.and_eq_true_iff.mp hj).1

/-- **A definition finds its key as before.** -/
theorem agreesAt_before (i : Fin ds.length) :
    AgreesAt (s.before ds' (r.place i)) (s.before ds i) ds[i].registration.key := by
  have hplace := (AgreesAt.refl s ds[i].registration.key).afterAll_filter (ds'.take (r.place i))
  rw [r.filter_take] at hplace
  exact hplace.trans ((AgreesAt.refl s _).afterAll_filter (ds.take i)).symm

/-- **Every key is left as before.** -/
theorem agreesAt_afterAll (key : Text) : AgreesAt (s.afterAll ds') (s.afterAll ds) key := by
  have hfilter : ds'.filter (·.registration.key = key) = ds.filter (·.registration.key = key) := by
    have hpositions : ∀ xs : List Definition, xs.filter (·.registration.key = key)
        = ((List.finRange xs.length).filter fun j => decide (xs[j].registration.key = key)).map
          fun j => xs[j] := fun xs => by
      conv_lhs => rw [← List.map_getElem_finRange xs, List.filter_map]
      rfl
    rw [hpositions, hpositions]
    exact r.key.map_filter (a := key) (fun j => by rw [r.same]) r.same
      fun j hj => of_decide_eq_true hj
  have hafter := (AgreesAt.refl s key).afterAll_filter ds'
  rw [hfilter] at hafter
  exact hafter.trans ((AgreesAt.refl s key).afterAll_filter ds).symm

theorem answerTo_place (i : Fin ds.length) : s.answerTo ds' (r.place i) = s.answerTo ds i := by
  rw [answerTo, answerTo, r.same, (r.agreesAt_before s i).answer]

theorem succeeds_place (i : Fin ds.length) : s.succeeds ds' (r.place i) = s.succeeds ds i := by
  rw [succeeds, succeeds, r.same, (r.agreesAt_before s i).fst_perform]

/-- **The entries of a rank are registered in the same order.** -/
theorem ranked_entries (count : Nat) :
    ranked (s.afterAll ds').entries count = ranked (s.afterAll ds).entries count := by
  rw [ranked_entries_afterAll, ranked_entries_afterAll]
  refine congrArg (ranked s.entries count ++ ·) ?_
  refine r.count.map_filter (a := count) (fun i => ?_) (fun i => by rw [r.same]) fun i hi => ?_
  · rw [r.same, r.succeeds_place]
  · exact of_decide_eq_true (Bool.and_eq_true_iff.mp hi).2

/-- **The same names are gathered.** -/
theorem mem_field {field : Store → List Text} {names : Atom → List Text}
    (h : GathersNames field names) (t : Text) :
    t ∈ field (s.afterAll ds') ↔ t ∈ field (s.afterAll ds) := by
  rw [h.mem_afterAll, h.mem_afterAll]
  refine or_congr_right ?_
  refine (r.place.exists_congr fun i => ?_).symm
  rw [r.same, (r.agreesAt_before s i).added names]

section Found

variable {ε ν : Type} [DecidableEq ν] (ev : Evaluator (Except ε) ν) (node : Option ν)

theorem toOption_retrieve :
    ((s.afterAll ds').retrieve ev node).toOption = ((s.afterAll ds).retrieve ev node).toOption := by
  have hselect := Selection.toOption_select_congr ev node (r.ranked_entries s)
  have hatom : (s.afterAll ds').atomOf = (s.afterAll ds).atomOf :=
    funext fun key => congrArg (Option.bind key) (funext fun k => (r.agreesAt_afterAll s k).atom)
  have hretrieve : ∀ t : Store, (t.retrieve ev node).toOption
      = (Selection.select ev node t.entries).toOption.map t.atomOf := fun t => by
    rw [retrieve]
    cases Selection.select ev node t.entries <;> rfl
  rw [hretrieve, hretrieve, hselect, hatom]

theorem toOption_lookup (domain style : Option Text) :
    ((s.afterAll ds').lookup ev node domain style).toOption
      = ((s.afterAll ds).lookup ev node domain style).toOption := by
  cases node with
  | none => rfl
  | some n =>
    have hlookup : ∀ xs : List Definition,
        ((s.afterAll xs).lookup ev (some n) domain style).toOption
          = ((s.afterAll xs).retrieve ev (some n)).toOption.map
            (s.answer (orDefault s.defaultDomain domain) (orDefault s.defaultStyle style)) := by
      intro xs
      obtain ⟨hdebug, hdomain, hstyle⟩ := s.settings_afterAll xs
      rw [lookup, hdomain, hstyle, answer_congr hdebug]
      cases (s.afterAll xs).retrieve ev (some n) <;> rfl
    rw [hlookup, hlookup, r.toOption_retrieve]

end Found

end Reordering

/-- **Reordered definitions do the same.**  Whether the store is frozen or not, each definition gets
the same answer as before, every key has the same atom at the end, and the same domains, styles and
categories are gathered.  By an evaluator that is a function the same atom is retrieved and the same
is found at every node, for every domain and style; where it fails after the one order, it fails
after the other. -/
theorem reordered_definitions_agree {ε ν : Type} [DecidableEq ν] {ds ds' : List Definition}
    (r : Reordering ds ds') (s : Store) (ev : Evaluator (Except ε) ν) (node : Option ν) :
    (∀ i, s.answerTo ds' (r.place i) = s.answerTo ds i)
      ∧ (∀ key, (s.afterAll ds').atoms.get? key = (s.afterAll ds).atoms.get? key)
      ∧ (∀ t, t ∈ (s.afterAll ds').domains ↔ t ∈ (s.afterAll ds).domains)
      ∧ (∀ t, t ∈ (s.afterAll ds').styles ↔ t ∈ (s.afterAll ds).styles)
      ∧ (∀ t, t ∈ (s.afterAll ds').categories ↔ t ∈ (s.afterAll ds).categories)
      ∧ ((s.afterAll ds').retrieve ev node).toOption = ((s.afterAll ds).retrieve ev node).toOption
      ∧ ∀ domain style, ((s.afterAll ds').lookup ev node domain style).toOption
        = ((s.afterAll ds).lookup ev node domain style).toOption :=
  ⟨r.answerTo_place s, fun key => (r.agreesAt_afterAll s key).atom,
    r.mem_field s gathersNames_domains, r.mem_field s gathersNames_styles,
    r.mem_field s gathersNames_categories, r.toOption_retrieve s ev node,
    r.toOption_lookup s ev node⟩

/-- A rule, an alias of it, and a rule of another key, with none, one and two constraints. -/
def threeDefinitions : List Definition :=
  [.rule "a" "A" "default.default" "[t] \"a\"" "self::mi" [],
    .other "a" "self::mi" ["c"],
    .rules "b" "B" (Mappings.set .empty "default" "short" "[n] .") "self::mi" ["c", "d"]]

/-- The same, the last first. -/
def rotatedDefinitions : List Definition :=
  [.rules "b" "B" (Mappings.set .empty "default" "short" "[n] .") "self::mi" ["c", "d"],
    .rule "a" "A" "default.default" "[t] \"a\"" "self::mi" [],
    .other "a" "self::mi" ["c"]]

/-- The alias has to stay behind the rule that makes its key; nothing else is tied. -/
def rotation : Reordering threeDefinitions rotatedDefinitions where
  place := (finRotate 3 : Fin 3 ≃ Fin 3)
  same
    | ⟨0, _⟩ => rfl
    | ⟨1, _⟩ => rfl
    | ⟨2, _⟩ => rfl
  key := by unfold KeepsOrder; decide +kernel
  count := by unfold KeepsOrder; decide +kernel

theorem reordered_definitions_agree_rotation :
    let s := blank .mathml false defaultName defaultName
    let node : ListedNode := { address := [], tag := some "mi", facts := ["c", "d"], form := "" }
    let ev : Evaluator (Except Unit) ListedNode := ListedNode.evaluator.lift
    (∀ i, s.answerTo rotatedDefinitions (rotation.place i) = s.answerTo threeDefinitions i)
      ∧ ((s.afterAll rotatedDefinitions).retrieve ev (some node)).toOption.isSome = true
      ∧ ((s.afterAll rotatedDefinitions).retrieve ev (some node)).toOption
        = ((s.afterAll threeDefinitions).retrieve ev (some node)).toOption := by
  intro s node ev
  obtain ⟨hanswers, -, -, -, -, hretrieve, -⟩ :=
    reordered_definitions_agree rotation s ev (some node)
  exact ⟨hanswers, by decide +kernel, hretrieve⟩

end MathSpeech.Store
