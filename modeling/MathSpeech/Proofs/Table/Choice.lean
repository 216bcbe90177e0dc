import MathSpeech.Proofs.Store.Reordering
import MathSpeech.Proofs.Table.ContextFree
import MathSpeech.Proofs.XPath.Choice

/-!
# Proofs/Table/Choice — the rule of a table that is chosen at an element

A covering table whose aliases have keys of its rules is taken as a whole by a new store.  What it
chooses at an element is the most constrained of the entries about its name whose constraints are
affirmed (`Table.chosen?`): the atom of that key is retrieved, and the action that a lookup finds is
the reply of what the table places under the key (`Table.IsCovering.gives_of_chosen`).  The bundled
table is such a table.
-/

namespace MathSpeech

open Rule (Action)
open Store (elementQuery placedUnder)
open XPath (Document Address Tree Setting Cached)

/-- The only action placed is the reply to every request, if it is the one for the defaults. -/
theorem Atom.reply_singleton (action : Action) (domain style : Text) :
    Atom.reply [(defaultName, defaultName, action)] domain style = action := by
  have hlatest : ∀ domain style, Mappings.latest? [(defaultName, defaultName, action)] domain style
      = if defaultName = domain ∧ defaultName = style then some action else none :=
    fun domain style => Mappings.latest?_cons ..
  have hfallback : ((Mappings.latest? [(defaultName, defaultName, action)] defaultName
      defaultName).getD .silence) = action := by
    rw [hlatest, if_pos ⟨rfl, rfl⟩]
    rfl
  rw [reply, hfallback]
  simp only [hlatest]
  by_cases h : defaultName = domain ∧ defaultName = style
  · rw [if_pos h]
  · rw [if_neg h]
    dsimp only
    split
    · split <;> rfl
    · rfl

namespace Table

/-! ## The entries of the table -/

/-- **A covering table whose aliases have keys of its rules** is taken as a whole. -/
theorem IsCovering.takenEntries_eq {data : Value} (h : IsCovering data)
    (hkeys : ∀ e ∈ aliasEntries data, ∃ e' ∈ ruleEntries data, e'.2 = e.2) (kind : Store.Kind)
    (debug : Bool) (defaultDomain defaultStyle : Text) :
    takenEntries (.blank kind debug defaultDomain defaultStyle) data
      = ruleEntries data ++ aliasEntries data := by
  have hrules : (takenRules data).map RuleDefinition.entry = ruleEntries data := by
    rw [takenRules, ruleEntries, List.map_filterMap]
    refine List.filterMap_congr fun v hv => ?_
    obtain ⟨d, hread, hspoken⟩ := h.rules v hv
    rw [takenRule?_eq_some_iff.mpr ⟨hread, hspoken.ne_nil⟩, hread]
    rfl
  have haliases : (takenAliases (.blank kind debug defaultDomain defaultStyle) data).map
      AliasDefinition.entry = aliasEntries data := by
    rw [takenAliases, aliasEntries, List.map_filterMap]
    refine List.filterMap_congr fun v hv => ?_
    obtain ⟨d, hread⟩ := h.aliases v hv
    have hmem : d.entry ∈ aliasEntries data := mem_aliasEntries.mpr ⟨v, hv, d, hread, rfl⟩
    obtain ⟨e, he, hkey⟩ := hkeys _ hmem
    rw [← hrules] at he
    obtain ⟨rule, hrule, rfl⟩ := List.mem_map.mp he
    obtain ⟨atom, hatom, -⟩ := h.exists_atom kind debug defaultDomain defaultStyle hrule
    have hcontains : (withRules (.blank kind debug defaultDomain defaultStyle) data).atoms.contains
        d.key = true := by
      rw [OrderedMap.contains, ← show rule.key = d.key from hkey, hatom, Option.isSome_some]
    rw [takenAlias?_eq_some_iff.mpr ⟨hread, hcontains⟩, hread]
    rfl
  rw [takenEntries, hrules, haliases]

/-- **The entries about a name** in a table, in order. -/
def entriesAbout (data : Value) (label : Text) : List Entry :=
  (ruleEntries data ++ aliasEntries data).filter (·.1.query = elementQuery label)

/-- **What a table chooses** for a name, where some constraints are affirmed: the key of the most
constrained of the entries with no others. -/
def chosen? (data : Value) (label : Text) (affirmed : Text → Bool) : Option Text :=
  (Selection.mostConstrained ((entriesAbout data label).filter fun e =>
    e.1.constraints.all affirmed)).map Prod.snd

/-- **What a table places** under a key. -/
def placedFor (data : Value) (key : Text) : List (Text × Text × Action) :=
  placedUnder ((takenRules data).map fun d => d.definition.registration) key

/-! ## Which entries need to be read -/

/-- Has a text in a field, which is told without reading any other field. -/
def hasText (field t : Text) (v : Value) : Bool :=
  match v.get? field with
  | some (.text u) => u = t
  | _ => false

/-- **What is read with a text in a field** is read from the values that have it; the others need
not be read. -/
theorem filter_filterMap_of_field {α : Type} {read? : Value → Option α} {field : Text}
    {value : α → Text} (h : ∀ v x, read? v = some x → v.get? field = some (.text (value x)))
    (items : List Value) (t : Text) :
    (items.filterMap read?).filter (fun x => value x = t)
      = (items.filter (hasText field t)).filterMap read? := by
  rw [List.filter_filterMap, List.filterMap_filter]
  refine List.filterMap_congr fun v _ => ?_
  cases hv : read? v with
  | none => rw [Option.filter_none, ite_self]
  | some x =>
    rw [hasText, h v x hv]
    rfl

/-- **What a table places under a key** is what the rules with this key place. -/
theorem placedFor_eq (data : Value) (key : Text) : placedFor data key
    = (((sectionItems data "rules").filter (hasText "key" key)).filterMap takenRule?).flatMap
        RuleDefinition.placed := by
  have hrules : (takenRules data).filter (fun d => d.key = key)
      = ((sectionItems data "rules").filter (hasText "key" key)).filterMap takenRule? := by
    refine filter_filterMap_of_field (fun v d hv => ?_) _ key
    exact get?_of_required (RuleDefinition.read_eq_ok_iff.mp (takenRule?_eq_some_iff.mp hv).1).2.1
  rw [← hrules, placedFor, placedUnder, List.filter_map, List.flatMap_map]
  rfl

theorem filter_filterMap_read {α : Type} {read : Value → Checked α} {entry : α → Entry}
    (h : ∀ v x, read v = .ok x → v.get? "query" = some (.text (entry x).1.query))
    (items : List Value) (query : Text) :
    (items.filterMap fun v => (read v).toOption.map entry).filter (·.1.query = query)
      = (items.filter (hasText "query" query)).filterMap fun v => (read v).toOption.map entry := by
  refine filter_filterMap_of_field (fun v e he => ?_) items query
  cases hread : read v with
  | error => simp [hread, Except.toOption] at he
  | ok x =>
    rw [hread] at he
    obtain rfl : entry x = e := Option.some.inj he
    exact h v x hread

/-- **The entries about a name** are those of the rules and aliases with the query for it. -/
theorem entriesAbout_eq (data : Value) (label : Text) : entriesAbout data label
    = ((sectionItems data "rules").filter (hasText "query" (elementQuery label))).filterMap
        (fun v => (RuleDefinition.read v).toOption.map RuleDefinition.entry)
      ++ ((sectionItems data "aliases").filter (hasText "query" (elementQuery label))).filterMap
        (fun v => (AliasDefinition.read v).toOption.map AliasDefinition.entry) := by
  rw [entriesAbout, List.filter_append, ruleEntries, aliasEntries,
    filter_filterMap_read fun v d => RuleDefinition.get?_query,
    filter_filterMap_read fun v d => AliasDefinition.get?_query]

section New

variable {data : Value} {kind : Store.Kind} {debug : Bool} {defaultDomain defaultStyle : Text}

/-- **The atom of a key** in a new store with a table gives the reply of what the table places under
the key. -/
theorem resolve_of_get?_atoms (hdata : data.isMap = true) {key : Text} {atom : Atom}
    (h : (withTable kind debug defaultDomain defaultStyle data).atoms.get? key = some atom)
    (domain style : Text) :
    atom.resolve domain style = .ok (Atom.reply (placedFor data key) domain style) := by
  rw [withTable, afterAll_definitions rfl hdata] at h
  have hatom := (get?_atoms_withRules kind debug defaultDomain defaultStyle data key).symm.trans h
  obtain ⟨first, -, rfl⟩ := Option.map_eq_some_iff.mp hatom
  exact Atom.resolve_addAll_new ..

/-- **What a covering table chooses is retrieved** by a new store with it, and its reply is found,
whatever has been read before. -/
theorem IsCovering.gives_of_chosen (h : IsCovering data)
    (hkeys : ∀ e ∈ aliasEntries data, ∃ e' ∈ ruleEntries data, e'.2 = e.2) {setting : Setting}
    (hcustom : ∀ e, setting.custom.lookup e = none) {space : Text}
    (hspace : setting.Binds "mathml" space) {a : Address} {t : Tree}
    (hnode : setting.environment.document.nodeAt? a = some ⟨a, .tree t⟩) {label : Text}
    (ht : t.isNamed space label = true) {key : Text}
    (hchosen : chosen? data label (setting.affirms ⟨a, .tree t⟩) = some key) :
    let s := withTable kind debug defaultDomain defaultStyle data
    let ev := setting.cachedEvaluator
    (∃ atom, Cached.Gives _ (s.retrieve ev (some (.node a))) (.ok (some atom)) ∧ atom.key = key)
      ∧ ∀ domain style, ∃ found,
        Cached.Gives _ (s.lookup ev (some (.node a)) domain style) (.ok found)
          ∧ found.action = .ok (some (Atom.reply (placedFor data key)
            (Store.orDefault defaultDomain domain) (Store.orDefault defaultStyle style))) := by
  intro s ev
  have hcovers : s.Covers := covers_withTable kind debug defaultDomain defaultStyle h
  have hentries : s.entries = ruleEntries data ++ aliasEntries data :=
    (entries_withTable _ _ _ _ h.isMap).trans (h.takenEntries_eq hkeys ..)
  obtain ⟨hdomain, hstyle⟩ : s.defaultDomain = defaultDomain ∧ s.defaultStyle = defaultStyle :=
    ((Store.blank kind debug defaultDomain defaultStyle).settings_afterAll (definitions data)).2
  have hcached := Cached.alike_evaluator setting
  obtain ⟨best, hbest, rfl⟩ := Option.map_eq_some_iff.mp hchosen
  rw [entriesAbout, ← hentries] at hbest
  obtain ⟨atom, hretrieve, hatom, hkey⟩ :=
    hcovers.exists_retrieve_eq hcustom hspace hnode ht hbest
  refine ⟨⟨atom, ?_, hkey⟩, fun domain style => ?_⟩
  · rw [← hretrieve]
    exact hcached.retrieve Cached.congruent_gives _ _
  · let found := s.answer (Store.orDefault defaultDomain domain)
      (Store.orDefault defaultStyle style) (some atom)
    have hlookup : s.lookup setting.evaluator (some (.node a)) domain style = .ok found := by
      rw [Store.lookup, hretrieve, hdomain, hstyle]
      rfl
    refine ⟨found, ?_, congrArg (Except.map some) (resolve_of_get?_atoms h.isMap hatom _ _)⟩
    rw [← hlookup]
    exact hcached.lookup Cached.congruent_gives _ _ _ _

end New

/-! ## The store that is made by default -/

/-- **A store retrieves the atom of a key** at a node, asked by an evaluator with the default
namespaces, whatever has been read before. -/
def Retrieves (s : Store) (d : Document) (a : Address) (key : Text) : Prop :=
  ∃ atom, Cached.Gives _ (s.retrieve (defaultSetting d).cachedEvaluator (some (.node a)))
    (.ok (some atom)) ∧ atom.key = key

/-- **A store finds an action** at a node for a domain and style, asked in the same way. -/
def FindsAction (s : Store) (d : Document) (a : Address) (domain style : Option Text)
    (action : Action) : Prop :=
  ∃ found, Cached.Gives _ (s.lookup (defaultSetting d).cachedEvaluator (some (.node a)) domain
    style) (.ok found) ∧ found.action = .ok (some action)

section Default

variable {d : Document} {a : Address} {t : Tree} {label key : Text}
  (hnode : d.nodeAt? a = some ⟨a, .tree t⟩)
  (ht : t.isNamed Settings.mathmlNamespace label = true)
  (hchosen : chosen? bundled label ((defaultSetting d).affirms ⟨a, .tree t⟩) = some key)
include hnode ht hchosen

/-- **What the bundled table chooses is retrieved.** -/
theorem retrieves_of_chosen (debug : Bool) :
    Retrieves (withTable .mathml debug defaultName defaultName bundled) d a key :=
  (isCovering_bundled.gives_of_chosen entries_bundled.2.2.2 (fun _ => rfl) (binds_defaultSetting d)
    hnode ht hchosen).1

/-- **The only action under what is chosen** is found for every domain and style. -/
theorem findsAction_of_chosen (debug : Bool) {action : Action}
    (hplaced : placedFor bundled key = [(defaultName, defaultName, action)])
    (domain style : Option Text) :
    FindsAction (withTable .mathml debug defaultName defaultName bundled) d a domain style
      action := by
  obtain ⟨found, hgives, hfound⟩ := (isCovering_bundled.gives_of_chosen entries_bundled.2.2.2
    (fun _ => rfl) (binds_defaultSetting d) hnode ht hchosen).2 domain style
  rw [hplaced, Atom.reply_singleton] at hfound
  exact ⟨found, hgives, hfound⟩

end Default

end Table

end MathSpeech
