import MathSpeech.Proofs.Table.Definitions

/-!
# Proofs/Table/Taken — what a store takes from a table

A rule of a table is **taken** if its entry is well formed and one of its texts can be used; this
does not depend on the store.  An alias is taken if its entry is well formed and its key has an atom
once all rules are in.  The definitions of a table do nothing else than register what is taken,
first the rules and then the aliases (`afterAll_definitions`).
-/

namespace MathSpeech.Table

open Rule (Action)
open Store (Definition usable?)

/-! ## Rules -/

namespace RuleDefinition

/-- The actions of the rule texts that can be used. -/
def placed (d : RuleDefinition) : List (Text × Text × Action) :=
  d.mappings.triples.filterMap usable?

/-- The rule texts that cannot be used, with their domains and styles. -/
def dropped (d : RuleDefinition) : List (Text × Text × Text) :=
  d.mappings.triples.filter fun t => (usable? t).isNone

/-- The definition that a well-formed rule makes. -/
def definition (d : RuleDefinition) : Definition :=
  .rules d.key d.category d.mappings d.query d.constraints

/-- The entry under which a rule is registered. -/
def entry (d : RuleDefinition) : Entry := (⟨d.query, d.constraints⟩, d.key)

end RuleDefinition

/-- **The rule that is taken from an entry**, if one is: the entry is well formed, and one of the
rule texts can be used. -/
def takenRule? (entry : Value) : Option RuleDefinition :=
  (RuleDefinition.read entry).toOption.filter fun d => !d.placed.isEmpty

theorem takenRule?_eq_some_iff {entry : Value} {d : RuleDefinition} :
    takenRule? entry = some d ↔ RuleDefinition.read entry = .ok d ∧ d.placed ≠ [] := by
  rw [takenRule?, Option.filter_eq_some_iff]
  cases RuleDefinition.read entry <;> simp [Except.toOption]

/-- **The rules that are taken from a table**, in order. -/
def takenRules (data : Value) : List RuleDefinition :=
  (sectionItems data "rules").filterMap takenRule?

theorem mem_takenRules {data : Value} {d : RuleDefinition} :
    d ∈ takenRules data ↔ ∃ v ∈ sectionItems data "rules",
      RuleDefinition.read v = .ok d ∧ d.placed ≠ [] := by
  simp only [takenRules, List.mem_filterMap, takenRule?_eq_some_iff]

/-! ## Aliases -/

namespace AliasDefinition

/-- The definition that a well-formed alias makes. -/
def definition (d : AliasDefinition) : Definition := .other d.key d.query d.constraints

/-- The entry under which an alias is registered. -/
def entry (d : AliasDefinition) : Entry := (⟨d.query, d.constraints⟩, d.key)

end AliasDefinition

/-- **The alias that a store takes from an entry**, if it takes one: the entry is well formed, and
its key has an atom. -/
def takenAlias? (s : Store) (entry : Value) : Option AliasDefinition :=
  (AliasDefinition.read entry).toOption.filter fun d => s.atoms.contains d.key

theorem takenAlias?_eq_some_iff {s : Store} {entry : Value} {d : AliasDefinition} :
    takenAlias? s entry = some d
      ↔ AliasDefinition.read entry = .ok d ∧ s.atoms.contains d.key = true := by
  rw [takenAlias?, Option.filter_eq_some_iff]
  cases AliasDefinition.read entry <;> simp [Except.toOption]

/-- The store with all rules of a table in. -/
def withRules (s : Store) (data : Value) : Store := s.afterAll (ruleDefinitions data)

/-- **The aliases that a store takes from a table**, in order; the rules of the table come first. -/
def takenAliases (s : Store) (data : Value) : List AliasDefinition :=
  (sectionItems data "aliases").filterMap (takenAlias? (withRules s data))

theorem mem_takenAliases {s : Store} {data : Value} {d : AliasDefinition} :
    d ∈ takenAliases s data ↔ ∃ v ∈ sectionItems data "aliases",
      AliasDefinition.read v = .ok d ∧ (withRules s data).atoms.contains d.key = true := by
  simp only [takenAliases, List.mem_filterMap, takenAlias?_eq_some_iff]

/-- **The entries that a store takes from a table**: those of the rules, then those of the
aliases. -/
def takenEntries (s : Store) (data : Value) : List Entry :=
  (takenRules data).map RuleDefinition.entry ++ (takenAliases s data).map AliasDefinition.entry

/-! ## The store after a table -/

theorem frozen_withRules (s : Store) (data : Value) :
    (withRules s data).frozen = s.frozen := s.frozen_afterAll (ruleDefinitions data)

/-- The definitions of well-formed entries that pass a test are those of the entries that pass. -/
theorem filter_filterMap_map {α : Type} {read? : Value → Option α} {definition : α → Definition}
    {passes : Definition → Bool} (items : List Value) :
    (items.filterMap fun v => (read? v).map definition).filter passes
      = (items.filterMap fun v => (read? v).filter fun d => passes (definition d)).map
          definition := by
  induction items with
  | nil => rfl
  | cons v rest ih =>
    rw [List.filterMap_cons, List.filterMap_cons]
    cases read? v with
    | none => exact ih
    | some d =>
      rw [Option.map_some, Option.filter_some, List.filter_cons]
      split
      · exact congrArg _ ih
      · exact ih

/-- **The rules of a table** register those that are taken. -/
theorem withRules_eq {s : Store} (hs : s.frozen = false) (data : Value) :
    withRules s data
      = s.registerAll ((takenRules data).map fun d => d.definition.registration) := by
  have hfilter : (ruleDefinitions data).filter (fun d => !d.registration.placed.isEmpty)
      = (takenRules data).map RuleDefinition.definition := filter_filterMap_map _
  have hafter : withRules s data
      = ((ruleDefinitions data).filter fun d => !d.registration.placed.isEmpty).foldl
          (fun s d => d.enter s) s := by
    refine Store.afterAll_eq_foldl_enter (fun s => s.frozen = false) (fun _ h => h) ?_ hs
    intro s hs d hd
    obtain ⟨v, -, hv⟩ := List.mem_filterMap.mp hd
    obtain ⟨rule, -, rfl⟩ := Option.map_eq_some_iff.mp hv
    exact ⟨rfl, fun _ => (Definition.frozen_enter ..).trans hs⟩
  rw [hafter, hfilter, Store.registerAll, List.foldl_map, List.foldl_map]
  rfl

/-- Entering aliases only adds their entries. -/
theorem foldl_enter_aliases (s : Store) (ds : List AliasDefinition) :
    (ds.map AliasDefinition.definition).foldl (fun s d => d.enter s) s
      = { s with entries := s.entries ++ ds.map AliasDefinition.entry } := by
  induction ds generalizing s with
  | nil => rw [List.map_nil, List.map_nil, List.append_nil, List.foldl_nil]
  | cons d rest ih =>
    rw [List.map_cons, List.foldl_cons, ih]
    exact congrArg (fun entries => { s with entries }) (List.append_assoc s.entries [d.entry] _)

/-- **The aliases of a table** add the entries of those that are taken. -/
theorem afterAll_aliasDefinitions {s : Store} (hs : s.frozen = false) (data : Value) :
    s.afterAll (aliasDefinitions data) = { s with entries := s.entries
      ++ ((sectionItems data "aliases").filterMap (takenAlias? s)).map AliasDefinition.entry } := by
  have hfilter : (aliasDefinitions data).filter (fun d => s.atoms.contains d.registration.key)
      = ((sectionItems data "aliases").filterMap (takenAlias? s)).map AliasDefinition.definition :=
    filter_filterMap_map _
  have hafter : s.afterAll (aliasDefinitions data)
      = ((aliasDefinitions data).filter fun d => s.atoms.contains d.registration.key).foldl
          (fun s d => d.enter s) s := by
    -- an alias leaves the atoms alone, so each is in order if it is in order at first
    refine Store.afterAll_eq_foldl_enter
      (fun s' => s'.frozen = false ∧ s'.atoms = s.atoms) (fun _ h => h.1) ?_ ⟨hs, rfl⟩
    intro s' hs' d hd
    obtain ⟨v, -, hv⟩ := List.mem_filterMap.mp hd
    obtain ⟨definition, -, rfl⟩ := Option.map_eq_some_iff.mp hv
    refine ⟨?_, fun _ => ⟨(Definition.frozen_enter ..).trans hs'.1, hs'.2⟩⟩
    rw [Definition.inOrder, hs'.2]
    rfl
  rw [hafter, hfilter, foldl_enter_aliases]

/-- **The store after a table**: the rules that are taken are registered, and the entries of the
aliases that are taken stand behind theirs. -/
theorem afterAll_definitions {s : Store} (hs : s.frozen = false) {data : Value}
    (hdata : data.isMap = true) :
    s.afterAll (definitions data) = { withRules s data with
      entries := (withRules s data).entries
        ++ (takenAliases s data).map AliasDefinition.entry } := by
  rw [definitions, if_pos hdata, Store.afterAll_append]
  exact afterAll_aliasDefinitions ((frozen_withRules s data).trans hs) data

/-- **The entries after a table**: those before, and behind them those that are taken. -/
theorem entries_definitions {s : Store} (hs : s.frozen = false) {data : Value}
    (hdata : data.isMap = true) :
    (s.afterAll (definitions data)).entries = s.entries ++ takenEntries s data := by
  rw [afterAll_definitions hs hdata, withRules_eq hs, Store.entries_registerAll, List.map_map,
    takenEntries, ← List.append_assoc]
  rfl

end MathSpeech.Table
