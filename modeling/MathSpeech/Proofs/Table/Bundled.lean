import MathSpeech.Proofs.Table.Account
import MathSpeech.Proofs.Table.Covering
import MathSpeech.Proofs.XPath.Cache
import MathSpeech.Table.Load

/-!
# Proofs/Table/Bundled — the bundled table covers its elements

The bundled table is covering, which is computed entry by entry (`Table.isCovering_bundled`).  The
store that is made by default is a new store with this table and nothing else
(`Table.createStore_defaults`).  Hence it has an action for exactly the MathML elements that the
table names, and the action says something, whatever domain and style are asked for
(`Table.bundled_table_covers_its_elements`).
-/

namespace MathSpeech.Table

open Rule (Precondition)
open Store (elementQuery)
open XPath (Document Address Name Setting Cached)

/-! ## The bundled table -/

/-- Says whether a rule entry is well formed and says something. -/
def speaks (v : Value) : Bool :=
  match RuleDefinition.read v with
  | .ok d => decide (IsSpoken d.placed)
  | .error _ => false

/-- Says whether a precondition is about the elements of one name. -/
def isAboutName (p : Precondition) : Bool :=
  let n := p.query.drop (elementQuery []).length
  XPath.Reader.isLocalName n && decide (p.query = elementQuery n)
    && p.constraints.all fun c => c.all XPath.isDocumentCharacter

theorem exists_isAbout {p : Precondition} (h : isAboutName p = true) : ∃ n, XPath.IsAbout p n := by
  obtain ⟨hquery, hconstraints⟩ := Bool.and_eq_true_iff.mp h
  obtain ⟨hname, hquery⟩ := Bool.and_eq_true_iff.mp hquery
  exact ⟨_, hname, of_decide_eq_true hquery,
    fun c hc => if_pos (List.all_eq_true.mp hconstraints c hc)⟩

/-- What is computed about the entries of the bundled table, all of it in one go, since every part
reads the whole table. -/
theorem entries_bundled :
    (∀ v ∈ Bundled.rules, speaks v = true)
      ∧ (∀ v ∈ Bundled.aliases, (AliasDefinition.read v).toOption.isSome = true)
      ∧ (∀ e ∈ ruleEntries bundled ++ aliasEntries bundled, isAboutName e.1 = true
        ∧ ∃ e' ∈ ruleEntries bundled, e'.1.query = e.1.query ∧ e'.1.constraints = [])
      ∧ ∀ e ∈ aliasEntries bundled, ∃ e' ∈ ruleEntries bundled, e'.2 = e.2 := by
  decide +kernel

/-- **The bundled table is covering.** -/
theorem isCovering_bundled : IsCovering bundled where
  isMap := rfl
  rules v hv := by
    have hspeaks := entries_bundled.1 v hv
    rw [speaks] at hspeaks
    cases hd : RuleDefinition.read v with
    | error issues =>
      rw [hd] at hspeaks
      cases hspeaks
    | ok d =>
      rw [hd] at hspeaks
      exact ⟨d, rfl, of_decide_eq_true hspeaks⟩
  aliases v hv := by
    have hread := entries_bundled.2.1 v hv
    cases hd : AliasDefinition.read v with
    | error issues =>
      rw [hd] at hread
      cases hread
    | ok d => exact ⟨d, rfl⟩
  about e he := exists_isAbout (entries_bundled.2.2.1 e he).1
  plain e he := (entries_bundled.2.2.1 e he).2

/-! ## The store that is made by default -/

/-- **The bundled table is loaded** under its name, unless a file of that name is there. -/
theorem load_bundledName {f : Folder} (h : f.has (Path.ofText bundledName) = false) :
    load f bundledName = .ok bundled := by
  have hbare : (Path.ofText bundledName).isBare = true := rfl
  have hname : (Path.ofText bundledName).toText = bundledName := rfl
  have hplace : placeOf f bundledName = .bundled bundledName := by
    rw [placeOf, hbare, h, hname]
    rfl
  rw [load, hplace]
  exact if_pos rfl

/-- One table that is loaded and taken. -/
theorem loadAll_singleton {f : Folder} {path : Text} {data : Value} (hload : load f path = .ok data)
    {store store' : Store} {log log' : Log} {found : Report}
    (hingest : ingest store log data path = (.ok found, store', log')) (report : Report) :
    loadAll f store log report [path] = (.ok (report.merge found), store', log') := by
  rw [loadAll, hload]
  dsimp only
  rw [hingest]
  rfl

theorem createStore_of_loadAll {f : Folder} {log log' : Log} {debug : Bool} {paths : List Text}
    {report : Report} {store : Store}
    (h : loadAll f { kind := .mathml, debug } log {} paths = (.ok report, store, log')) :
    (createStore f log debug paths).1 = .ok store.freeze := by
  rw [createStore, h]

/-- **A store that is made with one passable table** is a new store with it. -/
theorem createStore_singleton {f : Folder} {path : Text} {data : Value}
    (hload : load f path = .ok data) (hdata : data.isMap = true)
    (hpassable : isPassable Value.isWritable data = true) (log : Log) (debug : Bool) :
    (createStore f log debug [path]).1
      = .ok (withTable .mathml debug defaultName defaultName data) := by
  let s := Store.blank .mathml debug defaultName defaultName
  let run := Ingest.run s data path Ingest.unlimited
  have hingest : ingest s log data path
      = (.ok run.report, s.afterAll (definitions data), run.logged path log) := by
    rw [ingest, Ingest.run_of_passable hpassable, Ingest.outcome_run rfl hdata, Ingest.store_run]
  exact createStore_of_loadAll (loadAll_singleton hload hingest {})

/-- **The store that is made by default** is a new store with the bundled table. -/
theorem createStore_defaults {f : Folder} (h : f.has (Path.ofText bundledName) = false) (log : Log)
    (debug : Bool) :
    (createStore f log debug (tablesOf Settings.defaults)).1
      = .ok (withTable .mathml debug defaultName defaultName bundled) := by
  have htables : tablesOf Settings.defaults = [bundledName] := rfl
  rw [htables]
  exact createStore_singleton (load_bundledName h) isCovering_bundled.isMap
    (isCovering_bundled.isPassable _) log debug

/-- The setting of an evaluator with the default namespaces and no custom queries. -/
def defaultSetting (d : Document) : Setting where
  environment := { document := d, spaces := XPath.spacesOf Settings.defaults }
  custom := .customQueries

/-- The default setting binds the prefix of the element queries. -/
theorem binds_defaultSetting (d : Document) :
    (defaultSetting d).Binds "mathml" Settings.mathmlNamespace where
  usable := rfl
  space? := by
    have hdefault : (XPath.spacesOf Settings.defaults).get? "mathml"
        = some Settings.mathmlNamespace := by decide +kernel
    exact (if_neg (by decide)).trans hdefault

/-- **The bundled table covers its elements.**  The store that is made by default is asked about an
element of any document, by an evaluator with the default namespaces, whatever its cache has read
before.  A MathML element of a name that the table has a query for gets an atom, which is under a
precondition with this query, and for every domain and style an action with components; any other
element gets neither. -/
theorem bundled_table_covers_its_elements {f : Folder}
    (hf : f.has (Path.ofText bundledName) = false) (log : Log) (debug : Bool) :
    ∃ s, (createStore f log debug (tablesOf Settings.defaults)).1 = .ok s
      ∧ ∀ (d : Document) (address : Address) (name : Name), d.HasElement address name →
        let ev := (defaultSetting d).cachedEvaluator
        let isCovered := name.space = Settings.mathmlNamespace
          ∧ HasQuery bundled (elementQuery name.label)
        (∃ atom : Option Atom,
            Cached.Gives _ (s.retrieve ev (some (.node address))) (.ok atom)
              ∧ (atom.isSome = true ↔ isCovered)
              ∧ ∀ a ∈ atom, ∃ p ∈ s.preconditionsFor a.key, p.query = elementQuery name.label)
          ∧ ∀ domain style, ∃ found : Store.Found,
            Cached.Gives _ (s.lookup ev (some (.node address)) domain style) (.ok found)
              ∧ (isCovered → ∃ action, found.action = .ok (some action) ∧ action.components ≠ [])
              ∧ (¬isCovered → found.action = .ok none) := by
  refine ⟨_, createStore_defaults hf log debug, fun d address name h => ?_⟩
  have hcovers := covers_withTable .mathml debug defaultName defaultName isCovering_bundled
  have habout : (withTable .mathml debug defaultName defaultName bundled).IsAbout
      Settings.mathmlNamespace name ↔ name.space = Settings.mathmlNamespace
        ∧ HasQuery bundled (elementQuery name.label) :=
    isAbout_withTable_iff .mathml debug defaultName defaultName isCovering_bundled
  have halike := Cached.alike_evaluator (defaultSetting d)
  have hspace := binds_defaultSetting d
  have hcustom : ∀ n, (defaultSetting d).custom.lookup (elementQuery n) = none := fun _ => rfl
  constructor
  · obtain ⟨atom, hretrieve, hsome, hatom⟩ := hcovers.exists_retrieve h hspace hcustom
    refine ⟨atom, ?_, hsome.trans habout, fun a ha => (hatom a ha).2⟩
    rw [← hretrieve]
    exact halike.retrieve Cached.congruent_gives _ _
  · intro domain style
    obtain ⟨found, hlookup, hcovered, hother⟩ :=
      hcovers.exists_lookup h hspace hcustom domain style
    refine ⟨found, ?_, fun hname => hcovered (habout.mpr hname),
      fun hname => hother fun hs => hname (habout.mp hs)⟩
    rw [← hlookup]
    exact halike.lookup Cached.congruent_gives _ _ _ _

/-- An index to a number, and outside of MathML an element of the same name. -/
def indexDocument : Document where
  children := [.element ⟨Settings.mathmlNamespace, "msub", "msub"⟩ [] []
    [.element ⟨Settings.mathmlNamespace, "mn", "mn"⟩ [] [("mathvariant", "bold")] [.text "1"],
      .element ⟨[], "mn", "mn"⟩ [] [] []]]

theorem bundled_table_covers_its_elements_indexDocument :
    ∃ s, (createStore ⟨.empty⟩ {} false (tablesOf Settings.defaults)).1 = .ok s
      ∧ (∃ found action, ((s.lookup (defaultSetting indexDocument).cachedEvaluator
          (some (.node [.child 0, .child 0])) none (some "short")).run.run .empty).run.1 = .ok found
        ∧ found.action = .ok (some action) ∧ action.components ≠ [])
      ∧ ∃ found, ((s.lookup (defaultSetting indexDocument).cachedEvaluator
          (some (.node [.child 0, .child 1])) none (some "short")).run.run .empty).run.1 = .ok found
        ∧ found.action = .ok none := by
  obtain ⟨s, hs, hcovers⟩ :=
    bundled_table_covers_its_elements (f := ⟨.empty⟩) (by decide +kernel) {} false
  refine ⟨s, hs, ?_, ?_⟩
  · obtain ⟨-, hlookup⟩ := hcovers indexDocument [.child 0, .child 0]
      ⟨Settings.mathmlNamespace, "mn", "mn"⟩ ⟨_, _, _, rfl⟩
    obtain ⟨found, hgives, hcovered, -⟩ := hlookup none (some "short")
    obtain ⟨_, -, hrun⟩ := hgives .empty XPath.Cache.faithful_empty
    have hquery : HasQuery bundled (elementQuery "mn") :=
      ⟨Bundled.rules[9], List.mem_append_left _ (List.getElem_mem _), rfl⟩
    obtain ⟨action, haction⟩ := hcovered ⟨rfl, hquery⟩
    exact ⟨found, action, congrArg Prod.fst hrun, haction⟩
  · obtain ⟨-, hlookup⟩ := hcovers indexDocument [.child 0, .child 1] ⟨[], "mn", "mn"⟩
      ⟨_, _, _, rfl⟩
    obtain ⟨found, hgives, -, hother⟩ := hlookup none (some "short")
    obtain ⟨_, -, hrun⟩ := hgives .empty XPath.Cache.faithful_empty
    exact ⟨found, congrArg Prod.fst hrun, hother fun h => absurd h.1 (by decide +kernel)⟩

end MathSpeech.Table
