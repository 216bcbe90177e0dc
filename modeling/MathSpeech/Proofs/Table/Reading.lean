import MathSpeech.Table.Definition

/-!
# Proofs/Table/Reading — an entry with fewer rule texts

An entry is read field by field, and it is well formed exactly when each field is
(`RuleDefinition.read_eq_ok_iff`); a mapping is well formed exactly when its keys are texts and its
values are well formed (`checkMapping_eq_ok_iff`).  So what is changed inside a value shows in what
is read from it: an entry of the rules that loses some of its texts reads as the same rule without
these texts (`RuleDefinition.read_withoutTexts`).
-/

namespace MathSpeech

/-! ## Maps with other values, and with fewer keys -/

namespace OrderedMap

variable {κ ν μ : Type}

/-- The map with other values. -/
def mapValues (g : κ → ν → μ) (m : OrderedMap κ ν) : OrderedMap κ μ where
  entries := m.entries.map fun e => (e.1, g e.1 e.2)
  nodup := by
    rw [List.map_map]
    exact m.nodup

/-- The map without the keys that are to be dropped. -/
def withoutKeys (drops : κ → Bool) (m : OrderedMap κ ν) : OrderedMap κ ν where
  entries := m.entries.filter fun e => !drops e.1
  nodup := (List.filter_sublist.map Prod.fst).nodup m.nodup

variable [DecidableEq κ]

theorem filter_put (drops : κ → Bool) (k : κ) (v : ν) (es : List (κ × ν)) :
    (put k v es).filter (fun e => !drops e.1) = if drops k then es.filter fun e => !drops e.1
      else put k v (es.filter fun e => !drops e.1) := by
  induction es with
  | nil => cases hk : drops k <;> simp [put, hk]
  | cons e rest ih =>
    rw [put]
    by_cases he : e.1 = k
    · subst he
      cases hk : drops e.1 <;> simp [put, hk]
    · rw [if_neg he, List.filter_cons, List.filter_cons, ih]
      cases drops k <;> cases drops e.1 <;> simp [put, he]

theorem mapValues_insertAll (g : κ → ν → μ) (m : OrderedMap κ ν) (es : List (κ × ν)) :
    (m.insertAll es).mapValues g
      = (m.mapValues g).insertAll (es.map fun e => (e.1, g e.1 e.2)) := by
  induction es generalizing m with
  | nil => rfl
  | cons e rest ih =>
    have hinsert : (m.insert e.1 e.2).mapValues g = (m.mapValues g).insert e.1 (g e.1 e.2) :=
      ext (map_put g e.1 e.2 m.entries)
    exact (ih (m.insert e.1 e.2)).trans (congrArg (insertAll · _) hinsert)

theorem withoutKeys_insertAll (drops : κ → Bool) (m : OrderedMap κ ν) (es : List (κ × ν)) :
    (m.insertAll es).withoutKeys drops
      = (m.withoutKeys drops).insertAll (es.filter fun e => !drops e.1) := by
  induction es generalizing m with
  | nil => rfl
  | cons e rest ih =>
    have hstep := ih (m.insert e.1 e.2)
    have hput := filter_put drops e.1 e.2 m.entries
    rw [List.filter_cons]
    cases he : drops e.1 with
    | true =>
      rw [he, if_pos rfl] at hput
      exact hstep.trans (congrArg (insertAll · _) (ext hput))
    | false =>
      rw [he, if_neg Bool.false_ne_true] at hput
      exact hstep.trans (congrArg (insertAll · _) (ext hput))

end OrderedMap

namespace Mappings

variable {α : Type}

/-- **The mappings without some of their pairs**; a domain stays, even if it loses all its styles.
-/
def withoutPairs (drops : Text → Text → Bool) (m : Mappings α) : Mappings α :=
  m.mapValues fun domain styles => styles.withoutKeys (drops domain)

end Mappings

/-! ## Values with other entries -/

namespace Value

/-- **A mapping with its values amended**, each by its name. -/
def amend (f : Text → Value → Value) : Value → Value
  | .map entries =>
    .map (entries.map fun e => (e.1, match e.1 with | .text name => f name e.2 | _ => e.2))
  | v => v

/-- **A mapping without the entries of some names.** -/
def without (drops : Text → Bool) : Value → Value
  | .map entries =>
    .map (entries.filter fun e => match e.1 with | .text name => !drops name | _ => true)
  | v => v

theorem isMap_amend (f : Text → Value → Value) (v : Value) : (v.amend f).isMap = v.isMap := by
  cases v <;> rfl

theorem sameKey_text_iff {k : Value} {name : Text} :
    sameKey k (.text name) = true ↔ k = .text name := by
  cases k <;> simp [sameKey, whole?]

/-- **Reading an amended mapping.** -/
theorem get?_amend (f : Text → Value → Value) (v : Value) (name : Text) :
    (v.amend f).get? name = (v.get? name).map (f name) := by
  cases v with
  | map entries =>
    rw [amend, get?, get?]
    induction entries with
    | nil => rfl
    | cons e rest ih =>
      obtain ⟨k, v⟩ := e
      rw [List.map_cons, findKey, findKey, ih]
      by_cases hkey : sameKey k (.text name) = true
      · obtain rfl := sameKey_text_iff.mp hkey
        rw [if_pos hkey, if_pos hkey]
        rfl
      · rw [if_neg hkey, if_neg hkey]
  | _ => rfl

end Value

namespace Table

/-! ## Checks -/

namespace Checked

variable {α β : Type}

theorem both_eq_ok_iff {a : Checked α} {b : Checked β} {x : α × β} :
    a.both b = .ok x ↔ a = .ok x.1 ∧ b = .ok x.2 := by
  obtain ⟨x₁, x₂⟩ := x
  cases a <;> cases b <;> simp [both]

theorem map_eq_ok_iff {a : Checked α} {f : α → β} {y : β} :
    a.map f = .ok y ↔ ∃ x, a = .ok x ∧ f x = y := by
  cases a <;> simp [Except.map]

theorem all_eq_ok_iff {cs : List (Checked α)} {xs : List α} :
    Checked.all cs = .ok xs ↔ cs = xs.map .ok := by
  induction cs generalizing xs with
  | nil => cases xs <;> simp [all]
  | cons c rest ih =>
    simp only [all, map_eq_ok_iff, both_eq_ok_iff, ih]
    cases xs <;> simp

end Checked

/-! ## Mappings -/

section Mappings

variable {α : Type} {check : List Step → Value → Checked α} {place : List Step} {v : Value}
  {m : OrderedMap Text α}

theorem checkKey_eq_ok_iff {k : Value} {t : Text} : checkKey place k = .ok t ↔ k = .text t := by
  cases k <;> simp [checkKey, checkText, issue]

/-- Entries that are well formed one by one. -/
theorem checkEntries_iff {entries : List (Value × Value)} {es : List (Text × α)} :
    entries.map (fun (k, v) => (checkKey place k).both (check (place ++ [Step.ofKey k]) v))
        = es.map .ok
      ↔ ∃ fs : List (Text × Value × α), entries = fs.map (fun f => (.text f.1, f.2.1))
          ∧ es = fs.map (fun f => (f.1, f.2.2))
          ∧ ∀ f ∈ fs, check (place ++ [.name f.1]) f.2.1 = .ok f.2.2 := by
  constructor
  · intro h
    induction entries generalizing es with
    | nil =>
      obtain rfl := List.map_eq_nil_iff.mp h.symm
      exact ⟨[], rfl, rfl, fun f hf => absurd hf List.not_mem_nil⟩
    | cons entry rest ih =>
      obtain ⟨k, v⟩ := entry
      cases es with
      | nil => cases h
      | cons e others =>
        obtain ⟨hfirst, hrest⟩ := List.cons.inj h
        obtain ⟨hkey, hvalue⟩ := Checked.both_eq_ok_iff.mp hfirst
        obtain rfl := checkKey_eq_ok_iff.mp hkey
        obtain ⟨fs, rfl, rfl, hfs⟩ := ih hrest
        exact ⟨(e.1, v, e.2) :: fs, rfl, rfl, List.forall_mem_cons.mpr ⟨hvalue, hfs⟩⟩
  · rintro ⟨fs, rfl, rfl, hfs⟩
    rw [List.map_map, List.map_map]
    exact List.map_congr_left fun f hf =>
      Checked.both_eq_ok_iff.mpr ⟨checkKey_eq_ok_iff.mpr rfl, hfs f hf⟩

/-- **A mapping is well formed** exactly when its keys are texts and its values are well formed. -/
theorem checkMapping_eq_ok_iff : checkMapping check place v = .ok m
    ↔ ∃ fs : List (Text × Value × α),
        v = .map (fs.map fun f => (.text f.1, f.2.1))
          ∧ m = .ofList (fs.map fun f => (f.1, f.2.2))
          ∧ ∀ f ∈ fs, check (place ++ [.name f.1]) f.2.1 = .ok f.2.2 := by
  cases v with
  | map entries =>
    rw [checkMapping, Checked.map_eq_ok_iff]
    simp only [Checked.all_eq_ok_iff, checkEntries_iff, Value.map.injEq]
    constructor
    · rintro ⟨es, ⟨fs, hentries, rfl, hfs⟩, rfl⟩
      exact ⟨fs, hentries, rfl, hfs⟩
    · rintro ⟨fs, hentries, rfl, hfs⟩
      exact ⟨_, ⟨fs, hentries, rfl, hfs⟩, rfl⟩
  | _ => exact iff_of_false (fun h => nomatch h) fun ⟨_, h, _⟩ => nomatch h

/-- **Values that are amended** show in what is read. -/
theorem checkMapping_amend {f : Text → Value → Value} {g : Text → α → α}
    (hf : ∀ place name v a, check place v = .ok a → check place (f name v) = .ok (g name a))
    (h : checkMapping check place v = .ok m) :
    checkMapping check place (v.amend f) = .ok (m.mapValues g) := by
  obtain ⟨fs, rfl, rfl, hfs⟩ := checkMapping_eq_ok_iff.mp h
  refine checkMapping_eq_ok_iff.mpr ⟨fs.map fun e => (e.1, f e.1 e.2.1, g e.1 e.2.2), ?_, ?_, ?_⟩
  · rw [Value.amend, List.map_map, List.map_map]
    rfl
  · rw [OrderedMap.ofList, OrderedMap.mapValues_insertAll, List.map_map, List.map_map]
    rfl
  · intro e he
    obtain ⟨e', he', rfl⟩ := List.mem_map.mp he
    exact hf _ _ _ _ (hfs e' he')

/-- **Entries that are left out** are missing in what is read. -/
theorem checkMapping_without (drops : Text → Bool) (h : checkMapping check place v = .ok m) :
    checkMapping check place (v.without drops) = .ok (m.withoutKeys drops) := by
  obtain ⟨fs, rfl, rfl, hfs⟩ := checkMapping_eq_ok_iff.mp h
  refine checkMapping_eq_ok_iff.mpr ⟨fs.filter fun e => !drops e.1, ?_, ?_, ?_⟩
  · rw [Value.without, List.filter_map]
    rfl
  · rw [OrderedMap.ofList, OrderedMap.withoutKeys_insertAll, List.filter_map]
    rfl
  · exact fun e he => hfs e (List.mem_filter.mp he).1

end Mappings

/-! ## Rule texts -/

/-- Mappings without the texts of some pairs of a domain and a style. -/
def withoutTexts (drops : Text → Text → Bool) (v : Value) : Value :=
  v.amend fun domain styles => styles.without (drops domain)

/-- An entry of the rules without the texts of some pairs of a domain and a style. -/
def entryWithoutTexts (drops : Text → Text → Bool) (entry : Value) : Value :=
  entry.amend fun name v => if name = "mappings" then withoutTexts drops v else v

/-- A domain with a style has a rule text. -/
theorem hasRuleText_of_mem {m : Mappings Text} {t : Text × Text × Text} (h : t ∈ m.triples) :
    hasRuleText m = true := by
  obtain ⟨e, he, ht⟩ := List.mem_flatMap.mp h
  obtain ⟨style, hstyle, -⟩ := List.mem_map.mp ht
  refine List.any_eq_true.mpr ⟨e.2, List.mem_map_of_mem he, ?_⟩
  rw [OrderedMap.isEmpty, List.isEmpty_eq_false_iff.mpr (List.ne_nil_of_mem hstyle)]
  rfl

theorem triples_ne_nil_of_hasRuleText {m : Mappings Text} (h : hasRuleText m = true) :
    m.triples ≠ [] := by
  obtain ⟨styles, hstyles, hfilled⟩ := List.any_eq_true.mp h
  obtain ⟨e, he, rfl⟩ := List.mem_map.mp hstyles
  intro hnil
  have hempty : e.2.entries = [] := List.map_eq_nil_iff.mp (List.flatMap_eq_nil_iff.mp hnil e he)
  rw [OrderedMap.isEmpty, hempty] at hfilled
  cases hfilled

theorem checkMappings_eq_ok_iff {place : List Step} {v : Value} {m : Mappings Text} :
    checkMappings place v = .ok m
      ↔ checkMapping (checkMapping checkText) place v = .ok m ∧ hasRuleText m = true := by
  rw [checkMappings]
  cases checkMapping (checkMapping checkText) place v with
  | error issues => exact iff_of_false (fun h => nomatch h) fun h => nomatch h.1
  | ok m' =>
    dsimp only
    split
    · rename_i hm
      exact ⟨fun h => ⟨h, Except.ok.inj h ▸ hm⟩, fun h => h.1⟩
    · rename_i hm
      exact iff_of_false (fun h => nomatch h) fun h => hm (Except.ok.inj h.1 ▸ h.2)

/-- **Rule texts that are left out** are missing in what is read, if some text is left. -/
theorem checkMappings_withoutTexts {place : List Step} {v : Value} {m : Mappings Text}
    {drops : Text → Text → Bool} (h : checkMappings place v = .ok m)
    (hleft : hasRuleText (m.withoutPairs drops) = true) :
    checkMappings place (withoutTexts drops v) = .ok (m.withoutPairs drops) :=
  checkMappings_eq_ok_iff.mpr ⟨checkMapping_amend (fun _ domain _ _ hstyles =>
    checkMapping_without (drops domain) hstyles) (checkMappings_eq_ok_iff.mp h).1, hleft⟩

/-! ## Rules -/

namespace RuleDefinition

/-- **An entry of the rules is well formed** exactly when it is a mapping and each of its fields is
well formed. -/
theorem read_eq_ok_iff {entry : Value} {d : RuleDefinition} :
    read entry = .ok d ↔ entry.isMap = true
      ∧ required checkFilled entry "key" = .ok d.key
      ∧ required checkFilled entry "query" = .ok d.query
      ∧ optional checkTexts [] entry "constraints" = .ok d.constraints
      ∧ optional checkText [] entry "category" = .ok d.category
      ∧ required checkMappings entry "mappings" = .ok d.mappings := by
  rw [read]
  split
  · rename_i hmap
    rw [Checked.map_eq_ok_iff]
    simp only [checkCommon, Checked.both_eq_ok_iff, hmap, true_and]
    constructor
    · rintro ⟨x, ⟨⟨hkey, hquery, hconstraints⟩, hcategory, hmappings⟩, rfl⟩
      exact ⟨hkey, hquery, hconstraints, hcategory, hmappings⟩
    · rintro ⟨hkey, hquery, hconstraints, hcategory, hmappings⟩
      exact ⟨((d.key, d.query, d.constraints), d.category, d.mappings),
        ⟨⟨hkey, hquery, hconstraints⟩, hcategory, hmappings⟩, rfl⟩
  · rename_i hother
    exact iff_of_false (fun h => nomatch h) fun h => hother h.1

/-- **An entry that loses some of its rule texts** reads as the rule without them, if some text is
left. -/
theorem read_withoutTexts {entry : Value} {d : RuleDefinition} (h : read entry = .ok d)
    {drops : Text → Text → Bool} (hleft : hasRuleText (d.mappings.withoutPairs drops) = true) :
    read (entryWithoutTexts drops entry)
      = .ok { d with mappings := d.mappings.withoutPairs drops } := by
  obtain ⟨hmap, hkey, hquery, hconstraints, hcategory, hmappings⟩ := read_eq_ok_iff.mp h
  have hother : ∀ name : Text, name ≠ "mappings" →
      (entryWithoutTexts drops entry).get? name = entry.get? name := fun name hname => by
    rw [entryWithoutTexts, Value.get?_amend]
    simp only [hname, if_false, Option.map_id']
  have htexts : (entryWithoutTexts drops entry).get? "mappings"
      = (entry.get? "mappings").map (withoutTexts drops) := by
    rw [entryWithoutTexts, Value.get?_amend]
    simp only [if_true]
  refine read_eq_ok_iff.mpr ⟨(Value.isMap_amend ..).trans hmap, ?_, ?_, ?_, ?_, ?_⟩
  · rwa [required, hother _ (by decide)]
  · rwa [required, hother _ (by decide)]
  · rwa [optional, hother _ (by decide)]
  · rwa [optional, hother _ (by decide)]
  · rw [required] at hmappings
    rw [required, htexts]
    cases hget : entry.get? "mappings" with
    | none =>
      rw [hget] at hmappings
      cases hmappings
    | some v =>
      rw [hget] at hmappings
      exact checkMappings_withoutTexts hmappings hleft

end RuleDefinition

end Table

end MathSpeech
