import MathSpeech.Proofs.Store.Repetition
import MathSpeech.Proofs.Table.Reached
import MathSpeech.Proofs.Table.Taken
import MathSpeech.Proofs.XPath.Coverage

/-!
# Proofs/Table/Covering — a new store with a covering table

A table is **covering** if all its entries are well formed, each about the elements of one name, if
every rule says something, and if wherever an entry is about a name a rule without constraints is
(`Table.IsCovering`).  This can be computed from the table alone.  A new store takes all rules of
such a table, and an atom of it only ever gets actions that say something; so the store covers the
elements that it is about (`Table.covers_withTable`), which are those that the table names
(`Table.isAbout_withTable_iff`).
-/

namespace MathSpeech

open Rule (Action)
open Store (elementQuery placedUnder)
open XPath (Name)

/-! ## Actions that say something -/

namespace Table

/-- **Placed actions that say something**: one of them is for the default domain and style, and each
has components. -/
def IsSpoken (placed : List (Text × Text × Action)) : Prop :=
  (∃ t ∈ placed, t.1 = defaultName ∧ t.2.1 = defaultName) ∧ ∀ t ∈ placed, t.2.2.components ≠ []

instance (placed : List (Text × Text × Action)) : Decidable (IsSpoken placed) :=
  inferInstanceAs (Decidable (_ ∧ _))

/-- **Every reply from such actions says something**: silence comes only after all of them. -/
theorem IsSpoken.components_reply {placed : List (Text × Text × Action)} (h : IsSpoken placed)
    (domain style : Text) : (Atom.reply placed domain style).components ≠ [] := by
  have hlatest : ∀ {domain style action}, Mappings.latest? placed domain style = some action →
      action.components ≠ [] := fun hfound => h.2 _ (Mappings.mem_of_latest? hfound)
  have hdefault : ((Mappings.latest? placed defaultName defaultName).getD .silence).components
      ≠ [] := by
    obtain ⟨t, ht, hdomain, hstyle⟩ := h.1
    obtain ⟨action, haction⟩ := Option.isSome_iff_exists.mp (Mappings.isSome_latest? ht)
    rw [hdomain, hstyle] at haction
    rw [haction]
    exact hlatest haction
  rw [Atom.reply]
  cases hfound : Mappings.latest? placed domain style with
  | some action => exact hlatest hfound
  | none =>
    dsimp only
    split
    · cases hfallback : Mappings.latest? placed defaultName style with
      | some action => exact hlatest hfallback
      | none => exact hdefault
    · exact hdefault

/-- Actions gathered from several lists that say something say something. -/
theorem IsSpoken.flatMap {α : Type} {xs : List α} {f : α → List (Text × Text × Action)}
    (hne : xs ≠ []) (h : ∀ x ∈ xs, IsSpoken (f x)) : IsSpoken (xs.flatMap f) := by
  constructor
  · obtain ⟨x, hx⟩ := List.exists_mem_of_ne_nil xs hne
    obtain ⟨t, ht, hdefault⟩ := (h x hx).1
    exact ⟨t, List.mem_flatMap.mpr ⟨x, hx, ht⟩, hdefault⟩
  · intro t ht
    obtain ⟨x, hx, ht⟩ := List.mem_flatMap.mp ht
    exact (h x hx).2 t ht

/-! ## Covering tables -/

/-- The entries of the rules that are well formed. -/
def ruleEntries (data : Value) : List Entry :=
  (sectionItems data "rules").filterMap fun v =>
    (RuleDefinition.read v).toOption.map RuleDefinition.entry

/-- The entries of the aliases that are well formed. -/
def aliasEntries (data : Value) : List Entry :=
  (sectionItems data "aliases").filterMap fun v =>
    (AliasDefinition.read v).toOption.map AliasDefinition.entry

theorem mem_filterMap_read {α : Type} {read : Value → Checked α} {entry : α → Entry}
    {items : List Value} {e : Entry} :
    e ∈ items.filterMap (fun v => (read v).toOption.map entry)
      ↔ ∃ v ∈ items, ∃ d, read v = .ok d ∧ entry d = e := by
  rw [List.mem_filterMap]
  refine exists_congr fun v => and_congr_right' ?_
  cases read v <;> simp [Except.toOption]

theorem mem_ruleEntries {data : Value} {e : Entry} :
    e ∈ ruleEntries data
      ↔ ∃ v ∈ sectionItems data "rules", ∃ d, RuleDefinition.read v = .ok d ∧ d.entry = e :=
  mem_filterMap_read

theorem mem_aliasEntries {data : Value} {e : Entry} :
    e ∈ aliasEntries data
      ↔ ∃ v ∈ sectionItems data "aliases", ∃ d, AliasDefinition.read v = .ok d ∧ d.entry = e :=
  mem_filterMap_read

/-- **A covering table**: all entries are well formed, and each is about the elements of one name;
every rule says something; and where an entry is about a name, a rule without constraints is. -/
structure IsCovering (data : Value) : Prop where
  isMap : data.isMap = true
  rules : ∀ v ∈ sectionItems data "rules", ∃ d, RuleDefinition.read v = .ok d ∧ IsSpoken d.placed
  aliases : ∀ v ∈ sectionItems data "aliases", ∃ d, AliasDefinition.read v = .ok d
  about : ∀ e ∈ ruleEntries data ++ aliasEntries data, ∃ n, XPath.IsAbout e.1 n
  plain : ∀ e ∈ ruleEntries data ++ aliasEntries data,
    ∃ e' ∈ ruleEntries data, e'.1.query = e.1.query ∧ e'.1.constraints = []

/-- No entry of a covering table stops an ingest. -/
theorem IsCovering.isPassable {data : Value} (h : IsCovering data) (writes : Value → Bool) :
    isPassable writes data = true :=
  Bool.and_eq_true_iff.mpr
    ⟨all_passes (fun v hv => (h.rules v hv).imp fun _ hd => hd.1) writes,
      all_passes h.aliases writes⟩

/-- **A table has a query** in one of its entries. -/
def HasQuery (data : Value) (query : Text) : Prop :=
  ∃ v ∈ sectionItems data "rules" ++ sectionItems data "aliases",
    v.get? "query" = some (.text query)

section Taken

variable {s : Store} {data : Value}

/-- What is taken is well formed. -/
theorem takenEntries_subset : takenEntries s data ⊆ ruleEntries data ++ aliasEntries data := by
  intro e he
  obtain he | he := List.mem_append.mp he
  · obtain ⟨d, hd, rfl⟩ := List.mem_map.mp he
    obtain ⟨v, hv, hread, -⟩ := mem_takenRules.mp hd
    exact List.mem_append_left _ (mem_ruleEntries.mpr ⟨v, hv, d, hread, rfl⟩)
  · obtain ⟨d, hd, rfl⟩ := List.mem_map.mp he
    obtain ⟨v, hv, hread, -⟩ := mem_takenAliases.mp hd
    exact List.mem_append_right _ (mem_aliasEntries.mpr ⟨v, hv, d, hread, rfl⟩)

theorem IsSpoken.ne_nil {placed : List (Text × Text × Action)} (h : IsSpoken placed) :
    placed ≠ [] := fun hnil => by
  obtain ⟨t, ht, -⟩ := h.1
  exact List.not_mem_nil (hnil ▸ ht)

/-- Of a covering table every rule says something. -/
theorem IsCovering.isSpoken (h : IsCovering data) {v : Value} (hv : v ∈ sectionItems data "rules")
    {d : RuleDefinition} (hread : RuleDefinition.read v = .ok d) : IsSpoken d.placed := by
  obtain ⟨d', hread', hspoken⟩ := h.rules v hv
  cases hread.symm.trans hread'
  exact hspoken

/-- Of a covering table all rules are taken. -/
theorem IsCovering.ruleEntries_subset (h : IsCovering data) :
    ruleEntries data ⊆ takenEntries s data := by
  intro e he
  obtain ⟨v, hv, d, hread, rfl⟩ := mem_ruleEntries.mp he
  refine List.mem_append_left _ (List.mem_map_of_mem (mem_takenRules.mpr ⟨v, hv, hread, ?_⟩))
  exact (h.isSpoken hv hread).ne_nil

end Taken

/-! ## Queries -/

/-- A filled field is a text. -/
theorem get?_of_required {entry : Value} {name t : Text}
    (h : required checkFilled entry name = .ok t) : entry.get? name = some (.text t) := by
  rw [required] at h
  cases hget : entry.get? name with
  | none =>
    rw [hget] at h
    cases h
  | some v =>
    rw [hget] at h
    cases v with
    | text u =>
      cases u with
      | nil => cases h
      | cons c rest =>
        cases h
        rfl
    | _ => cases h

theorem RuleDefinition.get?_query {v : Value} {d : RuleDefinition} (h : read v = .ok d) :
    v.get? "query" = some (.text d.query) :=
  get?_of_required (read_eq_ok_iff.mp h).2.2.1

theorem AliasDefinition.get?_query {v : Value} {d : AliasDefinition} (h : read v = .ok d) :
    v.get? "query" = some (.text d.query) := by
  rw [read] at h
  split at h
  · obtain ⟨⟨key, query, constraints⟩, hcommon, rfl⟩ := Checked.map_eq_ok_iff.mp h
    simp only [checkCommon, Checked.both_eq_ok_iff] at hcommon
    exact get?_of_required hcommon.2.1
  · cases h

/-- The queries of well-formed entries are queries of the table. -/
theorem hasQuery_of_mem {data : Value} {e : Entry}
    (he : e ∈ ruleEntries data ++ aliasEntries data) : HasQuery data e.1.query := by
  obtain he | he := List.mem_append.mp he
  · obtain ⟨v, hv, d, hread, rfl⟩ := mem_ruleEntries.mp he
    exact ⟨v, List.mem_append_left _ hv, RuleDefinition.get?_query hread⟩
  · obtain ⟨v, hv, d, hread, rfl⟩ := mem_aliasEntries.mp he
    exact ⟨v, List.mem_append_right _ hv, AliasDefinition.get?_query hread⟩

/-- **The queries of a covering table** are those of its rules. -/
theorem IsCovering.hasQuery_iff {data : Value} (h : IsCovering data) {query : Text} :
    HasQuery data query ↔ ∃ e ∈ ruleEntries data, e.1.query = query := by
  constructor
  · rintro ⟨v, hv, hquery⟩
    suffices hread : ∃ e ∈ ruleEntries data ++ aliasEntries data, e.1.query = query by
      obtain ⟨e, he, rfl⟩ := hread
      obtain ⟨e', he', heq, -⟩ := h.plain e he
      exact ⟨e', he', heq⟩
    obtain hv | hv := List.mem_append.mp hv
    · obtain ⟨d, hd, -⟩ := h.rules v hv
      cases (RuleDefinition.get?_query hd).symm.trans hquery
      exact ⟨d.entry, List.mem_append_left _ (mem_ruleEntries.mpr ⟨v, hv, d, hd, rfl⟩), rfl⟩
    · obtain ⟨d, hd⟩ := h.aliases v hv
      cases (AliasDefinition.get?_query hd).symm.trans hquery
      exact ⟨d.entry, List.mem_append_right _ (mem_aliasEntries.mpr ⟨v, hv, d, hd, rfl⟩), rfl⟩
  · rintro ⟨e, he, rfl⟩
    exact hasQuery_of_mem (List.mem_append_left _ he)

/-! ## A new store with a covering table -/

section New

variable {data : Value} (kind : Store.Kind) (debug : Bool) (defaultDomain defaultStyle : Text)

/-- A new store has an atom for a key once rules are in if one of them has the key. -/
theorem get?_atoms_withRules (data : Value) (key : Text) :
    let s := Store.blank kind debug defaultDomain defaultStyle
    let rs := (takenRules data).map fun d => d.definition.registration
    (withRules s data).atoms.get? key = (rs.find? (·.key = key)).map fun first =>
      (Atom.new key first.category).addAll (placedUnder rs key) := by
  intro s rs
  rw [withRules_eq rfl, Store.get?_atoms_registerAll, Store.founder?]
  have hnone : s.atoms.get? key = none := rfl
  rw [hnone, Option.none_or, Option.map_map]
  rfl

/-- **The key of a rule of a covering table** has an atom that always has something to say. -/
theorem IsCovering.exists_atom (h : IsCovering data) {d : RuleDefinition}
    (hd : d ∈ takenRules data) :
    ∃ atom, (withRules (Store.blank kind debug defaultDomain defaultStyle) data).atoms.get? d.key
      = some atom ∧ atom.key = d.key ∧ atom.IsSpoken := by
  have hmem : d.definition.registration
      ∈ (takenRules data).map fun d => d.definition.registration := List.mem_map_of_mem hd
  rw [get?_atoms_withRules]
  cases hfirst : List.find? (·.key = d.key)
      ((takenRules data).map fun d => d.definition.registration) with
  | none => exact absurd (decide_eq_true rfl) (List.find?_eq_none.mp hfirst _ hmem)
  | some first =>
    refine ⟨_, rfl, rfl, fun domain style => ⟨_, Atom.resolve_addAll_new .., ?_⟩⟩
    refine IsSpoken.components_reply (IsSpoken.flatMap ?_ fun r hr => ?_) domain style
    · exact List.ne_nil_of_mem (List.mem_filter.mpr ⟨hmem, decide_eq_true rfl⟩)
    · obtain ⟨d', hd', rfl⟩ := List.mem_map.mp (List.mem_filter.mp hr).1
      obtain ⟨v, hv, hread, -⟩ := mem_takenRules.mp hd'
      exact h.isSpoken hv hread

/-- What a new store takes from a table has the key of a rule that is taken. -/
theorem exists_takenRule {e : Entry}
    (he : e ∈ takenEntries (Store.blank kind debug defaultDomain defaultStyle) data) :
    ∃ d ∈ takenRules data, d.key = e.2 := by
  obtain he | he := List.mem_append.mp he
  · obtain ⟨d, hd, rfl⟩ := List.mem_map.mp he
    exact ⟨d, hd, rfl⟩
  · obtain ⟨d, hd, rfl⟩ := List.mem_map.mp he
    obtain ⟨-, -, -, hkey⟩ := mem_takenAliases.mp hd
    rw [OrderedMap.contains, get?_atoms_withRules, Option.isSome_map, List.find?_isSome] at hkey
    obtain ⟨r, hr, hkey⟩ := hkey
    obtain ⟨rule, hrule, rfl⟩ := List.mem_map.mp hr
    exact ⟨rule, hrule, of_decide_eq_true hkey⟩

/-- **The store with a table**: a new store takes the table, and is frozen. -/
def withTable (kind : Store.Kind) (debug : Bool) (defaultDomain defaultStyle : Text)
    (data : Value) : Store :=
  ((Store.blank kind debug defaultDomain defaultStyle).afterAll (definitions data)).freeze

theorem entries_withTable (hdata : data.isMap = true) :
    (withTable kind debug defaultDomain defaultStyle data).entries
      = takenEntries (Store.blank kind debug defaultDomain defaultStyle) data :=
  entries_definitions rfl hdata

/-- **A new store with a covering table covers the elements of the table.** -/
theorem covers_withTable (h : IsCovering data) :
    (withTable kind debug defaultDomain defaultStyle data).Covers where
  about e he := by
    rw [entries_withTable _ _ _ _ h.isMap] at he
    exact h.about e (takenEntries_subset he)
  plain e he := by
    rw [entries_withTable _ _ _ _ h.isMap] at he
    obtain ⟨e', he', hplain⟩ := h.plain e (takenEntries_subset he)
    rw [entries_withTable _ _ _ _ h.isMap]
    exact ⟨e', h.ruleEntries_subset he', hplain⟩
  spoken e he := by
    rw [entries_withTable _ _ _ _ h.isMap] at he
    obtain ⟨d, hd, hkey⟩ := exists_takenRule kind debug defaultDomain defaultStyle he
    obtain ⟨atom, hatom, hname, hspoken⟩ :=
      h.exists_atom kind debug defaultDomain defaultStyle hd
    refine ⟨atom, ?_, hkey ▸ hname, hspoken⟩
    rw [← hkey, withTable, afterAll_definitions rfl h.isMap]
    exact hatom

/-- **The elements that a new store with a covering table is about** are those that the table
names. -/
theorem isAbout_withTable_iff (h : IsCovering data) {space : Text} {name : Name} :
    (withTable kind debug defaultDomain defaultStyle data).IsAbout space name
      ↔ name.space = space ∧ HasQuery data (elementQuery name.label) := by
  rw [Store.IsAbout, entries_withTable _ _ _ _ h.isMap]
  refine and_congr_right' ⟨?_, fun hquery => ?_⟩
  · rintro ⟨e, he, hquery⟩
    exact hquery ▸ hasQuery_of_mem (takenEntries_subset he)
  · obtain ⟨e, he, heq⟩ := h.hasQuery_iff.mp hquery
    exact ⟨e, h.ruleEntries_subset he, heq⟩

end New

end Table

end MathSpeech
