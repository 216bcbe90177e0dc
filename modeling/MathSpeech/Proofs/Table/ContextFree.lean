import MathSpeech.Proofs.Table.Bundled
import MathSpeech.Proofs.XPath.ContextFree

/-!
# Proofs/Table/ContextFree — the rules of the bundled table are context free

Every constraint of the bundled table looks only downwards, which is computed constraint by
constraint (`Table.looksDown_bundled`).  So the store that is made by default says the same of
elements whose trees are alike, whatever stands above, beside and behind them
(`Table.bundled_rules_are_context_free`).
-/

namespace MathSpeech.Table

open XPath (Document Address Tree Setting Cached AlikeElements IsContextFree)

theorem looksDown_bundled :
    ∀ e ∈ ruleEntries bundled ++ aliasEntries bundled,
      e.1.constraints.all XPath.looksDown = true := by
  decide +kernel

/-- **The preconditions of the bundled table are context free.** -/
theorem isContextFree_of_mem {kind : Store.Kind} {debug : Bool} {defaultDomain defaultStyle : Text}
    {e : Entry} (he : e ∈ (withTable kind debug defaultDomain defaultStyle bundled).entries) :
    IsContextFree e.1 := by
  rw [entries_withTable _ _ _ _ isCovering_bundled.isMap] at he
  have hmem := takenEntries_subset he
  exact ⟨isCovering_bundled.about e hmem, List.all_eq_true.mp (looksDown_bundled e hmem)⟩

/-- Alike elements of two documents, under the default setting. -/
theorem alikeElements_defaultSetting {d d' : Document} {a a' : Address} {t t' : Tree}
    (hnode : d.nodeAt? a = some ⟨a, .tree t⟩) (hnode' : d'.nodeAt? a' = some ⟨a', .tree t'⟩)
    (helement : t.IsElement) (halike : t.Alike t') :
    AlikeElements (defaultSetting d) (defaultSetting d') a a' t t' where
  spaces := rfl
  binds := ⟨_, binds_defaultSetting d⟩
  custom _ := rfl
  custom' _ := rfl
  nodeAt := hnode
  nodeAt' := hnode'
  isElement := helement
  alike := halike

/-- **The bundled rules are context free.**  Two elements whose trees are alike, in one document or
in two, have the same atom in the store that is made by default, or both none, and for every domain
and style the same is found for both: what stands above, beside and behind the elements does not
matter, nor what prefixes their names have, nor what the caches have read before. -/
theorem bundled_rules_are_context_free {f : Folder}
    (hf : f.has (Path.ofText bundledName) = false) (log : Log) (debug : Bool) :
    ∃ s, (createStore f log debug (tablesOf Settings.defaults)).1 = .ok s
      ∧ ∀ (d d' : Document) (a a' : Address) (t t' : Tree),
        d.nodeAt? a = some ⟨a, .tree t⟩ → d'.nodeAt? a' = some ⟨a', .tree t'⟩ →
        t.IsElement → t.Alike t' →
        let ev := (defaultSetting d).cachedEvaluator
        let ev' := (defaultSetting d').cachedEvaluator
        (∃ atom : Option Atom, Cached.Gives _ (s.retrieve ev (some (.node a))) (.ok atom)
            ∧ Cached.Gives _ (s.retrieve ev' (some (.node a'))) (.ok atom))
          ∧ ∀ domain style, ∃ found : Store.Found,
            Cached.Gives _ (s.lookup ev (some (.node a)) domain style) (.ok found)
              ∧ Cached.Gives _ (s.lookup ev' (some (.node a')) domain style) (.ok found) := by
  refine ⟨_, createStore_defaults hf log debug, ?_⟩
  intro d d' a a' t t' hnode hnode' helement halike ev ev'
  let s := withTable .mathml debug defaultName defaultName bundled
  have hcovers : s.Covers :=
    covers_withTable .mathml debug defaultName defaultName isCovering_bundled
  have helements := alikeElements_defaultSetting hnode hnode' helement halike
  have htest : ∀ e ∈ s.entries, Selection.test (defaultSetting d).evaluator (some (.node a)) e.1
      = Selection.test (defaultSetting d').evaluator (some (.node a')) e.1 :=
    fun e he => helements.test_congr (isContextFree_of_mem he)
  have hcached := Cached.alike_evaluator (defaultSetting d)
  have hcached' := Cached.alike_evaluator (defaultSetting d')
  obtain ⟨name, -, hname, -⟩ := helements.exists_hasElement
  constructor
  · obtain ⟨atom, hretrieve, -⟩ :=
      hcovers.exists_retrieve hname (binds_defaultSetting d) fun _ => rfl
    refine ⟨atom, ?_, ?_⟩
    · rw [← hretrieve]
      exact hcached.retrieve Cached.congruent_gives _ _
    · rw [← hretrieve, Store.retrieve_congr htest]
      exact hcached'.retrieve Cached.congruent_gives _ _
  · intro domain style
    obtain ⟨found, hlookup, -⟩ :=
      hcovers.exists_lookup hname (binds_defaultSetting d) (fun _ => rfl) domain style
    refine ⟨found, ?_, ?_⟩
    · rw [← hlookup]
      exact hcached.lookup Cached.congruent_gives _ _ _ _
    · rw [← hlookup, Store.lookup_congr htest rfl]
      exact hcached'.lookup Cached.congruent_gives _ _ _ _

/-- A bold number. -/
def boldNumber : Tree :=
  .element ⟨Settings.mathmlNamespace, "mn", "mn"⟩ [] [("id", "n"), ("mathvariant", "bold")]
    [.text "1"]

/-- The same with a prefix, and with the attributes the other way round. -/
def prefixedBoldNumber : Tree :=
  .element ⟨Settings.mathmlNamespace, "mn", "m:mn"⟩ [("m", Settings.mathmlNamespace)]
    [("mathvariant", "bold"), ("id", "n")] [.text "1"]

theorem bundled_rules_are_context_free_boldNumber :
    let d : Document := ⟨[boldNumber]⟩
    let d' : Document := ⟨[.comment "",
      .element ⟨[], "p", "p"⟩ [] [(⟨XPath.xmlSpace, "lang", "xml:lang"⟩, "en")]
        [.text "one", prefixedBoldNumber, .text "two"]]⟩
    boldNumber.Alike prefixedBoldNumber
      ∧ ∃ s, (createStore ⟨.empty⟩ {} false (tablesOf Settings.defaults)).1 = .ok s
        ∧ ∃ atom : Option Atom,
          ((s.retrieve (defaultSetting d).cachedEvaluator
            (some (.node [.child 0]))).run.run .empty).run.1 = .ok atom
          ∧ ((s.retrieve (defaultSetting d').cachedEvaluator
            (some (.node [.child 1, .child 1]))).run.run .empty).run.1 = .ok atom := by
  intro d d'
  have halike : boldNumber.Alike prefixedBoldNumber :=
    ⟨rfl, XPath.sameAttributes_of_perm (.swap ..) (by decide), rfl, trivial⟩
  obtain ⟨s, hs, hfree⟩ :=
    bundled_rules_are_context_free (f := ⟨.empty⟩) (by decide +kernel) {} false
  obtain ⟨⟨atom, hgives, hgives'⟩, -⟩ :=
    hfree d d' [.child 0] [.child 1, .child 1] boldNumber prefixedBoldNumber rfl rfl trivial halike
  obtain ⟨_, -, hrun⟩ := hgives .empty XPath.Cache.faithful_empty
  obtain ⟨_, -, hrun'⟩ := hgives' .empty XPath.Cache.faithful_empty
  exact ⟨halike, s, hs, atom, congrArg Prod.fst hrun, congrArg Prod.fst hrun'⟩

end MathSpeech.Table
