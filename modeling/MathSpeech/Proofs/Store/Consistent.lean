import MathSpeech.Proofs.Store.Atom
import MathSpeech.Proofs.Store.Run
import MathSpeech.Proofs.Store.Selected
import Mathlib.Data.List.Nodup

/-!
# Proofs/Store/Consistent — the parts of a store belong together

A store keeps its rules twice over, as atoms by key and as entries in the order of registration, and
it keeps lists of the names that occur in the atoms.  Each part can be read off the history of the
run that led to the store: the entries are those registered, and the atom of a key is the one that
the actions registered under the key make of a new atom (`Store.Reflects`).  That the parts
fit each other (`Store.Consistent`) follows.
-/

namespace MathSpeech.Store

open Rule (Action Precondition)

/-! ## Gathered names -/

theorem appendUnique_cons_of_mem {known : List Text} {t : Text} (h : t ∈ known)
    (rest : List Text) : appendUnique known (t :: rest) = appendUnique known rest :=
  congrArg (appendUnique · rest) (if_pos h)

theorem appendUnique_cons_of_notMem {known : List Text} {t : Text} (h : t ∉ known)
    (rest : List Text) : appendUnique known (t :: rest) = appendUnique (known ++ [t]) rest :=
  congrArg (appendUnique · rest) (if_neg h)

theorem mem_appendUnique {known ts : List Text} {t : Text} :
    t ∈ appendUnique known ts ↔ t ∈ known ∨ t ∈ ts := by
  induction ts generalizing known with
  | nil => exact (or_iff_left List.not_mem_nil).symm
  | cons first rest ih =>
    by_cases hknown : first ∈ known
    · have hfirst : t = first → t ∈ known := fun h => h ▸ hknown
      rw [appendUnique_cons_of_mem hknown, ih, List.mem_cons, ← or_assoc,
        or_iff_left_of_imp hfirst]
    · rw [appendUnique_cons_of_notMem hknown, ih, List.mem_cons, ← or_assoc, List.mem_append,
        List.mem_singleton]

theorem nodup_appendUnique {known : List Text} (h : known.Nodup) (ts : List Text) :
    (appendUnique known ts).Nodup := by
  induction ts generalizing known with
  | nil => exact h
  | cons first rest ih =>
    by_cases hnew : first ∈ known
    · rw [appendUnique_cons_of_mem hnew]
      exact ih h
    · rw [appendUnique_cons_of_notMem hnew]
      refine ih (List.nodup_append.mpr ⟨h, List.nodup_singleton first, ?_⟩)
      rintro t ht u hu rfl
      exact hnew (List.mem_singleton.mp hu ▸ ht)

/-- **A list gathers names of atoms**: it has the names of all of them, each once. -/
structure Gathers (names : Atom → List Text) (atoms : OrderedMap Text Atom) (gathered : List Text) :
    Prop where
  nodup : gathered.Nodup
  mem_iff : ∀ t, t ∈ gathered ↔ ∃ atom ∈ atoms.values, t ∈ names atom

theorem gathers_empty (names : Atom → List Text) : Gathers names .empty [] where
  nodup := List.nodup_nil
  mem_iff t := by simp [OrderedMap.values, OrderedMap.empty]

/-- An atom that only gained names is gathered by adding its names. -/
theorem Gathers.insert {names : Atom → List Text} {atoms : OrderedMap Text Atom}
    {gathered : List Text} (h : Gathers names atoms gathered) {key : Text} {atom : Atom}
    (hgain : ∀ old, atoms.get? key = some old → names old ⊆ names atom) :
    Gathers names (atoms.insert key atom) (appendUnique gathered (names atom)) where
  nodup := nodup_appendUnique h.nodup _
  mem_iff t := by
    rw [mem_appendUnique, h.mem_iff]
    simp only [OrderedMap.mem_values]
    constructor
    · rintro (⟨old, ⟨k, hk⟩, ht⟩ | ht)
      · by_cases hkey : key = k
        · subst hkey
          exact ⟨atom, ⟨key, OrderedMap.get?_insert_self ..⟩, hgain old hk ht⟩
        · exact ⟨old, ⟨k, by rw [OrderedMap.get?_insert, if_neg hkey, hk]⟩, ht⟩
      · exact ⟨atom, ⟨key, OrderedMap.get?_insert_self ..⟩, ht⟩
    · rintro ⟨other, ⟨k, hk⟩, ht⟩
      rw [OrderedMap.get?_insert] at hk
      split at hk
      · cases hk
        exact .inr ht
      · exact .inl ⟨other, ⟨k, hk⟩, ht⟩

/-- The category of an atom, if it is not empty. -/
def categoryNames (atom : Atom) : List Text :=
  if atom.category.isEmpty then [] else [atom.category]

theorem categories_register (s : Store) (key category : Text) (p : Precondition)
    (placed : List (Text × Text × Action)) :
    (s.register key category p placed).categories
      = appendUnique s.categories (categoryNames ((s.atomFor key category).addAll placed)) := by
  rw [categoryNames]
  split
  · rename_i hempty
    exact if_pos hempty
  · rename_i hfilled
    exact if_neg hfilled

/-! ## Reading a store off its history -/

/-- **The actions placed under a key**, in the order in which they were. -/
def placedUnder (h : List Registration) (key : Text) : List (Text × Text × Action) :=
  (h.filter (·.key = key)).flatMap (·.placed)

/-- **The atom of a key**: the first registration of the key makes it, and every registration adds
to it. -/
def atomOf? (h : List Registration) (key : Text) : Option Atom :=
  (h.find? (·.key = key)).map fun first => (Atom.new key first.category).addAll (placedUnder h key)

theorem atomOf?_concat (h : List Registration) (r : Registration) (key : Text) :
    atomOf? (h ++ [r]) key = if r.key = key then
      some (((atomOf? h key).getD (.new key r.category)).addAll r.placed) else atomOf? h key := by
  have hplaced : placedUnder (h ++ [r]) key
      = placedUnder h key ++ if r.key = key then r.placed else [] := by
    rw [placedUnder, List.filter_append, List.flatMap_append]
    by_cases hr : r.key = key <;> simp [placedUnder, hr]
  rw [atomOf?, atomOf?, hplaced, List.find?_append]
  cases hfirst : h.find? (·.key = key) with
  | some first => by_cases hr : r.key = key <;> simp [hr, Atom.addAll_append]
  | none =>
    have hnone : placedUnder h key = [] := by
      rw [placedUnder, List.filter_eq_nil_iff.mpr (List.find?_eq_none.mp hfirst), List.flatMap_nil]
    by_cases hr : r.key = key <;> simp [hr, hnone]

/-- **A store reflects a history.** -/
structure Reflects (h : List Registration) (s : Store) : Prop where
  entries : s.entries = h.map Registration.entry
  atoms : ∀ key, s.atoms.get? key = atomOf? h key
  domains : Gathers Atom.domains s.atoms s.domains
  styles : Gathers Atom.styles s.atoms s.styles
  categories : Gathers categoryNames s.atoms s.categories

theorem reflects_blank (kind : Kind) (debug : Bool) (defaultDomain defaultStyle : Text) :
    Reflects [] (blank kind debug defaultDomain defaultStyle) where
  entries := rfl
  atoms _ := rfl
  domains := gathers_empty Atom.domains
  styles := gathers_empty Atom.styles
  categories := gathers_empty categoryNames

/-- The atom of a key only gains names by a registration, if additions to an atom lose none. -/
theorem gain_of_addAll {names : Atom → List Text}
    (hadd : ∀ a placed, names a ⊆ names (a.addAll placed)) (s : Store) (key category : Text)
    (placed : List (Text × Text × Action)) (old : Atom) (hold : s.atoms.get? key = some old) :
    names old ⊆ names ((s.atomFor key category).addAll placed) := by
  rw [atomFor, hold, Option.getD_some]
  exact hadd old placed

theorem Reflects.categories_register {h : List Registration} {s : Store} (hs : Reflects h s)
    (key category : Text) (p : Precondition) (placed : List (Text × Text × Action)) :
    Gathers categoryNames (s.register key category p placed).atoms
      (s.register key category p placed).categories := by
  have hgain : ∀ (a : Atom) placed, categoryNames a ⊆ categoryNames (a.addAll placed) :=
    fun a _ => List.Subset.refl (categoryNames a)
  rw [Store.categories_register]
  exact hs.categories.insert (gain_of_addAll hgain s key category placed)

/-- **Entering a definition** is reflected by its registration. -/
theorem Reflects.enter {h : List Registration} {s : Store} {d : Definition} (hs : Reflects h s)
    (horder : d.inOrder s = true) : Reflects (h ++ [d.registration]) (d.enter s) where
  entries := by rw [d.entries_enter, hs.entries, List.map_append, List.map_singleton]
  atoms key := by
    rw [Definition.get?_atoms_enter horder, atomOf?_concat]
    split
    · rename_i hkey
      rw [atomFor, hs.atoms]
    · exact hs.atoms key
  domains := by
    cases d with
    | other key query constraints => exact hs.domains
    | _ => exact hs.domains.insert (gain_of_addAll Atom.domains_subset_addAll s _ _ _)
  styles := by
    cases d with
    | other key query constraints => exact hs.styles
    | _ => exact hs.styles.insert (gain_of_addAll Atom.styles_subset_addAll s _ _ _)
  categories := by
    cases d with
    | other key query constraints => exact hs.categories
    | _ => exact hs.categories_register _ _ _ _

theorem Reflects.freeze {h : List Registration} {s : Store} (hs : Reflects h s) :
    Reflects h s.freeze := ⟨hs.entries, hs.atoms, hs.domains, hs.styles, hs.categories⟩

/-- **The store after a run reflects the history of the run.** -/
theorem reflects_run (kind : Kind) (debug : Bool) (defaultDomain defaultStyle : Text)
    (calls : List Call) :
    let s := blank kind debug defaultDomain defaultStyle
    Reflects (history s calls) (run s calls) :=
  run_induction Reflects (fun _ _ _ => Reflects.enter) (fun _ _ => Reflects.freeze)
    (reflects_blank kind debug defaultDomain defaultStyle) calls

/-! ## Consistency -/

/-- **A consistent store**, filled by the registrations of a history. -/
structure Consistent (h : List Registration) (s : Store) : Prop where
  /-- The entries are those registered, in order. -/
  entries : s.entries = h.map Registration.entry
  /-- A key has an entry exactly when it has an atom. -/
  keys : ∀ key, key ∈ s.entries.map Prod.snd ↔ key ∈ s.atoms.keys
  /-- An atom is stored under its own key. -/
  key_eq : ∀ key atom, s.atoms.get? key = some atom → atom.key = key
  /-- Every atom has an action for the default domain and style. -/
  default : ∀ atom ∈ s.atoms.values, (atom.mappings.find? defaultName defaultName).isSome
  /-- The names that occur in the atoms, each once. -/
  domains : s.domains.Nodup ∧ ∀ t, t ∈ s.domains ↔ ∃ atom ∈ s.atoms.values, t ∈ atom.domains
  styles : s.styles.Nodup ∧ ∀ t, t ∈ s.styles ↔ ∃ atom ∈ s.atoms.values, t ∈ atom.styles
  categories : s.categories.Nodup
    ∧ ∀ t, t ∈ s.categories ↔ t ≠ [] ∧ ∃ atom ∈ s.atoms.values, atom.category = t

theorem mem_categoryNames {atom : Atom} {t : Text} :
    t ∈ categoryNames atom ↔ t ≠ [] ∧ atom.category = t := by
  rw [categoryNames]
  cases hcategory : atom.category with
  | nil => simp [eq_comm]
  | cons c rest =>
    simp only [List.isEmpty_cons, Bool.false_eq_true, if_false, List.mem_singleton]
    constructor
    · rintro rfl
      exact ⟨List.cons_ne_nil c rest, rfl⟩
    · rintro ⟨-, rfl⟩
      rfl

theorem exists_of_atomOf? {h : List Registration} {key : Text} {atom : Atom}
    (hatom : atomOf? h key = some atom) :
    ∃ category, atom = (Atom.new key category).addAll (placedUnder h key) := by
  obtain ⟨first, -, rfl⟩ := Option.map_eq_some_iff.mp hatom
  exact ⟨first.category, rfl⟩

theorem isSome_atomOf?_iff {h : List Registration} {key : Text} :
    (atomOf? h key).isSome ↔ key ∈ (h.map Registration.entry).map Prod.snd := by
  rw [atomOf?, Option.isSome_map, List.find?_isSome, List.map_map, List.mem_map]
  simp only [decide_eq_true_eq]
  rfl

/-- **A store that reflects a history is consistent.** -/
theorem Reflects.consistent {h : List Registration} {s : Store} (hs : Reflects h s) :
    Consistent h s where
  entries := hs.entries
  keys key := by
    rw [hs.entries, ← isSome_atomOf?_iff, ← hs.atoms, ← OrderedMap.contains_iff]
    rfl
  key_eq key atom hatom := by
    rw [hs.atoms] at hatom
    obtain ⟨category, rfl⟩ := exists_of_atomOf? hatom
    rfl
  default atom hmem := by
    obtain ⟨key, hatom⟩ := OrderedMap.mem_values.mp hmem
    rw [hs.atoms] at hatom
    obtain ⟨category, rfl⟩ := exists_of_atomOf? hatom
    rw [Atom.find?_addAll, Atom.find?_new, if_pos ⟨rfl, rfl⟩, Option.isSome_or, Option.isSome_some,
      Bool.or_true]
  domains := ⟨hs.domains.nodup, hs.domains.mem_iff⟩
  styles := ⟨hs.styles.nodup, hs.styles.mem_iff⟩
  categories := by
    refine ⟨hs.categories.nodup, fun t => ?_⟩
    rw [hs.categories.mem_iff]
    simp only [mem_categoryNames]
    constructor
    · rintro ⟨atom, hmem, hne, hcategory⟩
      exact ⟨hne, atom, hmem, hcategory⟩
    · rintro ⟨hne, atom, hmem, hcategory⟩
      exact ⟨atom, hmem, hne, hcategory⟩

/-- **Every run ends in a consistent store**, in which a selection, by whatever evaluator, yields
only keys that have an atom. -/
theorem consistent_run {m : Type → Type} [Monad m] [LawfulMonad m] {ν : Type} [DecidableEq ν]
    (kind : Kind) (debug : Bool) (defaultDomain defaultStyle : Text) (calls : List Call)
    (ev : Evaluator m ν) (node : Option ν) :
    let s := run (blank kind debug defaultDomain defaultStyle) calls
    Consistent (history (blank kind debug defaultDomain defaultStyle) calls) s
      ∧ Yields (fun key => ∀ k ∈ key, ∃ atom, s.atoms.get? k = some atom)
        (Selection.select ev node s.entries) := by
  intro s
  have hs := (reflects_run kind debug defaultDomain defaultStyle calls).consistent
  refine ⟨hs, (Selection.yields_select ev node s.entries).mono fun key hkey k hk => ?_⟩
  exact OrderedMap.mem_keys.mp ((hs.keys k).mp (hkey k hk))

/-- An evaluator that agrees with everything. -/
def agreeing : Evaluator Id Nat where
  query node _ := node
  holds _ _ := true
  label _ := []

/-- A run with a rule and an alias of it, an alias without a rule, and a rule after freezing. -/
def lateRun : List Call :=
  [.define (.rule "mi" "Mathml" "default.short" "[t] \"x\"" "self::mi" []),
    .define (.other "mi" "self::mn" []), .define (.other "mo" "self::mo" []), .freeze,
    .defaultMathml "mo" "[n] ."]

theorem consistent_run_lateRun :
    ∃ h : List Registration,
      h.map Registration.entry
          = ([({ query := "self::mi" }, "mi"), ({ query := "self::mn" }, "mi")] : List Entry)
        ∧ Consistent h (run (blank .mathml false defaultName defaultName) lateRun) :=
  ⟨history (blank .mathml false defaultName defaultName) lateRun, by decide +kernel,
    (consistent_run .mathml false defaultName defaultName lateRun agreeing none).1⟩

end MathSpeech.Store
