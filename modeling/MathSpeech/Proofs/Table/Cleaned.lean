import MathSpeech.Proofs.Table.Account
import MathSpeech.Proofs.Table.Reading

/-!
# Proofs/Table/Cleaned — what is skipped leaves no trace

A table is **cleaned** for a store by leaving out what would be skipped: a faulty section becomes an
empty one, entries that are not taken go, and rules that are taken keep only the texts that can be
used.  The cleaned table is another table, and it is read anew; but what is taken from it is the
same (`takenRules_cleaned`, `takenAliases_cleaned`), and nothing is left to skip.  So its ingest
ends with a clean report, and it leaves the same store as that of the whole table, if that one is
not stopped by what it should have skipped (`run_cleaned`).
-/

namespace MathSpeech

/-! ## Fewer pairs -/

namespace Mappings

variable {α : Type}

theorem find?_of_mem_triples {m : Mappings α} {t : Text × Text × α} (h : t ∈ m.triples) :
    m.find? t.1 t.2.1 = some t.2.2 := by
  obtain ⟨e, he, ht⟩ := List.mem_flatMap.mp h
  obtain ⟨f, hf, rfl⟩ := List.mem_map.mp ht
  exact Option.bind_eq_some_iff.mpr
    ⟨e.2, OrderedMap.get?_eq_some_iff.mpr he, OrderedMap.get?_eq_some_iff.mpr hf⟩

theorem triples_withoutPairs (drops : Text → Text → Bool) (m : Mappings α) :
    (m.withoutPairs drops).triples = m.triples.filter fun t => !drops t.1 t.2.1 := by
  rw [triples, triples, withoutPairs, OrderedMap.mapValues, List.flatMap_map, List.filter_flatMap]
  refine List.flatMap_congr fun e _ => ?_
  rw [List.filter_map]
  rfl

end Mappings

namespace Table

open Store (usable?)

/-! ## Cleaning -/

/-- The pairs of a domain and a style whose text cannot be used. -/
def RuleDefinition.drops (d : RuleDefinition) (domain style : Text) : Bool :=
  (d.mappings.find? domain style).any fun text => (usable? (domain, style, text)).isNone

/-- A rule without the texts that cannot be used. -/
def RuleDefinition.cleaned (d : RuleDefinition) : RuleDefinition :=
  { d with mappings := d.mappings.withoutPairs d.drops }

/-- An entry of the rules, if it is taken, without the texts that cannot be used. -/
def cleanRule? (entry : Value) : Option Value :=
  (takenRule? entry).map fun d => entryWithoutTexts d.drops entry

/-- An entry of the aliases, if a store takes it. -/
def cleanAlias? (s : Store) (entry : Value) : Option Value :=
  (takenAlias? s entry).map fun _ => entry

/-- A section with clean entries; a faulty section becomes an empty one. -/
def cleanSection (clean? : Value → Option Value) : Value → Value
  | .list items => .list (items.filterMap clean?)
  | v => if v.isTrue then .list [] else v

/-- **A table without what is skipped** when a store takes it in. -/
def cleaned (s : Store) (data : Value) : Value :=
  data.amend fun name v =>
    if name = "rules" then cleanSection cleanRule? v
    else if name = "aliases" then cleanSection (cleanAlias? (withRules s data)) v
    else v

/-! ## Clean entries -/

/-- The texts of a cleaned rule are those that can be used. -/
theorem triples_cleaned (d : RuleDefinition) :
    d.cleaned.mappings.triples = d.mappings.triples.filter fun t => (usable? t).isSome := by
  rw [RuleDefinition.cleaned, Mappings.triples_withoutPairs]
  refine List.filter_congr fun t ht => ?_
  rw [RuleDefinition.drops, Mappings.find?_of_mem_triples ht, Option.any_some]
  cases usable? t <;> rfl

theorem placed_cleaned (d : RuleDefinition) : d.cleaned.placed = d.placed := by
  rw [RuleDefinition.placed, triples_cleaned, RuleDefinition.placed, List.filterMap_filter]
  refine List.filterMap_congr fun t _ => ?_
  cases usable? t <;> rfl

theorem dropped_cleaned (d : RuleDefinition) : d.cleaned.dropped = [] := by
  rw [RuleDefinition.dropped, triples_cleaned, List.filter_filter]
  refine List.filter_eq_nil_iff.mpr fun t _ => ?_
  cases usable? t <;> exact Bool.false_ne_true

/-- A rule that is taken keeps a text. -/
theorem hasRuleText_cleaned {d : RuleDefinition} (h : d.placed ≠ []) :
    hasRuleText d.cleaned.mappings = true := by
  obtain ⟨p, hp⟩ := List.exists_mem_of_ne_nil d.cleaned.placed (placed_cleaned d ▸ h)
  obtain ⟨t, ht, -⟩ := List.mem_filterMap.mp hp
  exact hasRuleText_of_mem ht

/-- **A clean entry of the rules** is taken as the rule without the texts that cannot be used. -/
theorem cleanRule?_bind (entry : Value) :
    (cleanRule? entry).bind takenRule? = (takenRule? entry).map RuleDefinition.cleaned := by
  rw [cleanRule?, Option.bind_map]
  cases htaken : takenRule? entry with
  | none => rfl
  | some d =>
    obtain ⟨hread, hplaced⟩ := takenRule?_eq_some_iff.mp htaken
    have hclean : RuleDefinition.read (entryWithoutTexts d.drops entry) = .ok d.cleaned :=
      RuleDefinition.read_withoutTexts hread (hasRuleText_cleaned hplaced)
    exact takenRule?_eq_some_iff.mpr ⟨hclean, placed_cleaned d ▸ hplaced⟩

theorem cleanAlias?_bind (s : Store) (entry : Value) :
    (cleanAlias? s entry).bind (takenAlias? s) = takenAlias? s entry := by
  rw [cleanAlias?, Option.bind_map]
  cases htaken : takenAlias? s entry with
  | none => rfl
  | some d => exact htaken

/-- A clean entry of the rules is taken. -/
theorem isSome_cleanRule?_bind (entry : Value) :
    ((cleanRule? entry).bind takenRule?).isSome = (cleanRule? entry).isSome := by
  rw [cleanRule?_bind, Option.isSome_map, cleanRule?, Option.isSome_map]

/-- A clean entry of the aliases is taken. -/
theorem isSome_cleanAlias?_bind (s : Store) (entry : Value) :
    ((cleanAlias? s entry).bind (takenAlias? s)).isSome = (cleanAlias? s entry).isSome := by
  rw [cleanAlias?_bind, cleanAlias?, Option.isSome_map]

/-! ## Clean sections -/

/-- **A clean section** has the clean entries and is not faulty. -/
theorem cleanSection_spec {data data' : Value} {name : Text} {clean? : Value → Option Value}
    (h : data'.get? name = (data.get? name).map (cleanSection clean?)) :
    sectionItems data' name = (sectionItems data name).filterMap clean?
      ∧ isFaulty data' name = false := by
  rw [sectionItems, sectionItems, isFaulty, h]
  cases data.get? name with
  | none => exact ⟨rfl, rfl⟩
  | some v =>
    rw [Option.map_some, Option.getD_some, Option.getD_some]
    cases htrue : v.isTrue with
    | true =>
      cases v with
      | list items => exact ⟨rfl, rfl⟩
      | _ => simp only [cleanSection, htrue, if_true, List.filterMap_nil, and_self]
    | false =>
      cases v with
      | list items => exact ⟨rfl, rfl⟩
      | _ =>
        simp only [cleanSection, htrue, Bool.false_eq_true, if_false, List.filterMap_nil, and_self]

section Cleaned

variable (s : Store) (data : Value)

theorem isMap_cleaned : (cleaned s data).isMap = data.isMap := Value.isMap_amend ..

theorem rules_cleaned :
    sectionItems (cleaned s data) "rules" = (sectionItems data "rules").filterMap cleanRule?
      ∧ isFaulty (cleaned s data) "rules" = false := by
  refine cleanSection_spec ?_
  rw [cleaned, Value.get?_amend]
  simp only [if_true]

theorem aliases_cleaned :
    sectionItems (cleaned s data) "aliases"
        = (sectionItems data "aliases").filterMap (cleanAlias? (withRules s data))
      ∧ isFaulty (cleaned s data) "aliases" = false := by
  have hname : ("aliases" : Text) ≠ "rules" := by decide
  refine cleanSection_spec ?_
  rw [cleaned, Value.get?_amend]
  simp only [hname, if_false, if_true]

/-- **The rules that are taken from a cleaned table.** -/
theorem takenRules_cleaned :
    takenRules (cleaned s data) = (takenRules data).map RuleDefinition.cleaned := by
  rw [takenRules, (rules_cleaned s data).1, List.filterMap_filterMap, takenRules,
    List.map_filterMap]
  exact congrArg (fun take? => List.filterMap take? _) (funext cleanRule?_bind)

variable {s}

/-- **A cleaned table registers the same rules.** -/
theorem withRules_cleaned (hs : s.frozen = false) :
    withRules s (cleaned s data) = withRules s data := by
  have hregistration : ∀ d : RuleDefinition,
      d.cleaned.definition.registration = d.definition.registration := fun d => by
    have hplaced := placed_cleaned d
    rw [RuleDefinition.placed, RuleDefinition.placed] at hplaced
    rw [RuleDefinition.definition, RuleDefinition.definition, Store.Definition.registration,
      Store.Definition.registration, hplaced]
    rfl
  rw [withRules_eq hs, withRules_eq hs, takenRules_cleaned, List.map_map]
  exact congrArg s.registerAll (List.map_congr_left fun d _ => hregistration d)

/-- **The aliases that are taken from a cleaned table** are those taken from the whole. -/
theorem takenAliases_cleaned (hs : s.frozen = false) :
    takenAliases s (cleaned s data) = takenAliases s data := by
  rw [takenAliases, (aliases_cleaned s data).1, withRules_cleaned data hs, List.filterMap_filterMap,
    takenAliases]
  exact congrArg (fun take? => List.filterMap take? _) (funext (cleanAlias?_bind _))

/-- **A cleaned table leaves the same store** as the whole. -/
theorem afterAll_definitions_cleaned (hs : s.frozen = false) (hdata : data.isMap = true) :
    s.afterAll (definitions (cleaned s data)) = s.afterAll (definitions data) := by
  rw [afterAll_definitions hs hdata, afterAll_definitions hs ((isMap_cleaned s data).trans hdata),
    withRules_cleaned data hs, takenAliases_cleaned data hs]

/-- Entries that were kept because they are taken count no error. -/
theorem countP_isNone_filterMap {α : Type} (take? : Value → Option α)
    (clean? : Value → Option Value)
    (h : ∀ v, ((clean? v).bind take?).isSome = (clean? v).isSome) (items : List Value) :
    (items.filterMap clean?).countP (fun v => (take? v).isNone) = 0 := by
  refine List.countP_eq_zero.mpr fun v' hv' => ?_
  obtain ⟨v, -, hv⟩ := List.mem_filterMap.mp hv'
  have htaken := h v
  rw [hv, Option.bind_some, Option.isSome_some] at htaken
  rw [Option.isNone_eq_false_iff.mpr htaken]
  exact Bool.false_ne_true

/-- **Nothing is skipped of a cleaned table.** -/
theorem errors_cleaned (hs : s.frozen = false) (hdata : data.isMap = true) (source : Text) :
    (Ingest.run s (cleaned s data) source Ingest.unlimited).report.errors = [] := by
  have hdata' : (cleaned s data).isMap = true := (isMap_cleaned s data).trans hdata
  have hrules := countP_isNone_filterMap takenRule? cleanRule? isSome_cleanRule?_bind
    (sectionItems data "rules")
  have haliases := countP_isNone_filterMap (takenAlias? (withRules s data))
    (cleanAlias? (withRules s data)) (isSome_cleanAlias?_bind _) (sectionItems data "aliases")
  have hdropped : (fun d : RuleDefinition => d.dropped.length) ∘ RuleDefinition.cleaned
      = fun _ => 0 := funext fun d => congrArg List.length (dropped_cleaned d)
  refine List.length_eq_zero_iff.mp ?_
  rw [Ingest.length_errors_run hs hdata', withRules_cleaned data hs, (rules_cleaned s data).1,
    (rules_cleaned s data).2, (aliases_cleaned s data).1, (aliases_cleaned s data).2, hrules,
    haliases, takenRules_cleaned, List.map_map, hdropped, List.map_const', List.sum_replicate_nat]
  rfl

end Cleaned

/-! ## The ingest of a cleaned table -/

/-- Entries that were kept because they are taken are well formed. -/
theorem exists_read_of_mem_filterMap {α : Type} {read : Value → Checked α}
    {take? : Value → Option α} {clean? : Value → Option Value}
    (htake : ∀ v d, take? v = some d → read v = .ok d)
    (h : ∀ v, ((clean? v).bind take?).isSome = (clean? v).isSome) (items : List Value) :
    ∀ v' ∈ items.filterMap clean?, ∃ d, read v' = .ok d := by
  intro v' hv'
  obtain ⟨v, -, hv⟩ := List.mem_filterMap.mp hv'
  have htaken := h v
  rw [hv, Option.bind_some, Option.isSome_some] at htaken
  exact (Option.isSome_iff_exists.mp htaken).imp (htake v')

/-- **A cleaned table is passable**, whatever can be written. -/
theorem isPassable_cleaned (s : Store) (data : Value) (writes : Value → Bool) :
    isPassable writes (cleaned s data) = true := by
  have hrules : rulesPass writes (cleaned s data) = true := by
    rw [rulesPass, (rules_cleaned s data).1]
    exact all_passes (exists_read_of_mem_filterMap
      (fun _ _ h => (takenRule?_eq_some_iff.mp h).1) isSome_cleanRule?_bind _) writes
  have haliases : aliasesPass writes (cleaned s data) = true := by
    rw [aliasesPass, (aliases_cleaned s data).1]
    exact all_passes (exists_read_of_mem_filterMap
      (fun _ _ h => (takenAlias?_eq_some_iff.mp h).1) (isSome_cleanAlias?_bind _) _) writes
  exact Bool.and_eq_true_iff.mpr ⟨hrules, haliases⟩

/-- **What is skipped leaves no trace.**  The ingest of a cleaned table ends with a clean report.
If every entry of the whole table is well formed or can be named, its ingest ends with a report of
the same rules and aliases, and leaves the same store.  Any other table is stopped, and leaves the
store that the cleaned table of the part before leaves. -/
theorem run_cleaned {s : Store} (hs : s.frozen = false) {data : Value}
    (hdata : data.isMap = true) (source : Text) (writes : Value → Bool) :
    let whole := Ingest.run s data source writes
    let clean := Ingest.run s (cleaned s data) source writes
    (∃ report, clean.outcome = .ok report ∧ report.isClean = true)
      ∧ (isPassable writes data = true → clean.store = whole.store
        ∧ ∃ r r', whole.outcome = .ok r ∧ clean.outcome = .ok r'
          ∧ r'.defined = r.defined ∧ r'.aliased = r.aliased)
      ∧ (isPassable writes data = false → whole.outcome = .error .unwritable
        ∧ whole.store = (Ingest.run s (cleaned s (reached writes data)) source writes).store) := by
  intro whole clean
  have hdata' : (cleaned s data).isMap = true := (isMap_cleaned s data).trans hdata
  have hclean : clean = Ingest.run s (cleaned s data) source Ingest.unlimited :=
    Ingest.run_of_passable (isPassable_cleaned s data writes) s source
  have houtcome : clean.outcome = .ok (Ingest.run s (cleaned s data) source Ingest.unlimited).report
      := hclean ▸ Ingest.outcome_run hs hdata' source
  refine ⟨⟨_, houtcome, ?_⟩, fun h => ?_, fun h => ?_⟩
  · rw [Report.isClean, Ingest.balanced_run hs hdata' source, errors_cleaned data hs hdata source]
    rfl
  · have hwhole : whole = Ingest.run s data source Ingest.unlimited :=
      Ingest.run_of_passable h s source
    refine ⟨?_, _, _, hwhole ▸ Ingest.outcome_run hs hdata source, houtcome, ?_, ?_⟩
    · rw [hclean, hwhole, Ingest.store_run, Ingest.store_run,
        afterAll_definitions_cleaned data hs hdata]
    · rw [hwhole, Ingest.defined_run hs hdata, Ingest.defined_run hs hdata', takenRules_cleaned,
        List.map_map]
      rfl
    · rw [hwhole, Ingest.aliased_run hs hdata, Ingest.aliased_run hs hdata',
        takenAliases_cleaned data hs]
  · have hreached : (reached writes data).isMap = true := (isMap_reached writes data).trans hdata
    refine ⟨?_, ?_⟩
    · have hwhole := Ingest.outcome_of_not_frozen hs hdata source writes
      rwa [h] at hwhole
    · rw [Ingest.run_of_passable (isPassable_cleaned s _ writes), Ingest.store_run,
        afterAll_definitions_cleaned _ hs hreached]
      exact Ingest.store_run_reached s data source writes

theorem run_cleaned_mixedTable :
    let whole := Ingest.run {} mixedTable ""
    let clean := Ingest.run {} (cleaned {} mixedTable) ""
    (sectionItems mixedTable "rules").length = 4
      ∧ (sectionItems (cleaned {} mixedTable) "rules").length = 1
      ∧ whole.report.skipped = 5 ∧ clean.store = whole.store
      ∧ ∃ report, clean.outcome = .ok report ∧ report.isClean = true := by
  intro whole clean
  obtain ⟨⟨report, hreport, hclean⟩, hpassable, -⟩ := run_cleaned (s := {}) rfl
    (show mixedTable.isMap = true from rfl) "" Value.isWritable
  obtain ⟨hstore, -⟩ := hpassable (by decide +kernel)
  exact ⟨by decide +kernel, by decide +kernel, by decide +kernel, hstore, report, hreport, hclean⟩

/-- **Not every entry that fails leaves no trace.**  The rule whose key cannot be written hides the
one behind it, which the cleaned table gives to the store. -/
theorem not_run_cleaned_alike :
    let whole := Ingest.run {} unwritableTable ""
    let clean := Ingest.run {} (cleaned {} unwritableTable) ""
    whole.fault = some .unwritable ∧ whole.store.entries = [] ∧ clean.fault = none
      ∧ clean.store.entries = [(⟨"self::a", []⟩, "a".toList)] := by
  refine ⟨?_, ?_, ?_, ?_⟩ <;> decide +kernel

end Table

end MathSpeech
