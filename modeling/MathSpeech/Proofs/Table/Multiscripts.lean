import MathSpeech.Proofs.Table.Places

/-!
# Proofs/Table/Multiscripts — rules that depend on missing scripts

An element with scripts on both sides has eight rules.  Each takes some of the scripts to be missing
and speaks the others; it applies if those that it takes to be missing seem to be, and the first
rule with most of them is chosen.  A script seems to be missing if it has the text of a mark for
missing scripts.  So just what is there is spoken exactly if the chosen rule takes to be missing
what is (`Table.speaks_scripts`).  Where nothing seems to be missing but the marks, what is there is
always spoken, and nothing else is exactly if there is a rule for the missing scripts; there are
sets of scripts for which there is none, as the one of both lower scripts
(`Table.not_speaks_only_scripts`).
-/

namespace MathSpeech

open Rule (Action)
open Selection (FirstMost)
open Store (elementQuery)
open XPath (Document Address Tree)

/-! ## Missing scripts -/

/-- The places of scripts: two on the right, and two on the left. -/
def scriptPlaces : List Nat := [2, 3, 5, 6]

namespace XPath.Tree

/-- **Misses a script** at a place: a mark stands there that says so. -/
def misses (t : Tree) (place : Nat) : Bool :=
  t.elements[place - 1]?.any (isNamed Settings.mathmlNamespace "none")

/-- **Seems to miss a script** at a place: what stands there has the text of a mark. -/
def seemsToMiss (t : Tree) (place : Nat) : Bool :=
  t.hasTextOf Settings.mathmlNamespace "none" place

/-- **The missing scripts.** -/
def missing (t : Tree) : List Nat := scriptPlaces.filter t.misses

theorem mem_missing_iff {t : Tree} {place : Nat} (h : place ∈ scriptPlaces) :
    place ∈ t.missing ↔ t.misses place = true := by
  rw [missing, List.mem_filter, and_iff_right h]

theorem notMem_missing_iff {t : Tree} {place : Nat} (h : place ∈ scriptPlaces) :
    place ∉ t.missing ↔ t.misses place = false := by
  rw [mem_missing_iff h, Bool.not_eq_true]

/-- **An element with scripts on both sides**: the fourth element divides them. -/
structure IsMultiscript (t : Tree) : Prop where
  named : t.isNamed Settings.mathmlNamespace "mmultiscripts" = true
  divided : ∃ e ∈ t.elements[3]?, e.isNamed Settings.mathmlNamespace "mprescripts" = true

theorem hasTextOf_iff {t : Tree} {space label : Text} {place : Nat} :
    t.hasTextOf space label place = true ↔ ∃ e ∈ t.elements[place - 1]?, ∃ r ∈ t.children,
      r.isNamed space label = true ∧ r.innerText = e.innerText := by
  rw [hasTextOf, Option.any_eq_true]
  simp only [List.any_eq_true, Bool.and_eq_true, decide_eq_true_eq, Option.mem_def]

/-- An element of a name has its text. -/
theorem hasTextOf_of_isNamed {t e : Tree} {space label : Text} {place : Nat}
    (he : e ∈ t.elements[place - 1]?) (hnamed : e.isNamed space label = true) :
    t.hasTextOf space label place = true :=
  hasTextOf_iff.mpr
    ⟨e, he, e, (List.mem_filter.mp (List.mem_of_getElem? he)).1, hnamed, rfl⟩

/-- What is missing seems to be. -/
theorem seemsToMiss_of_misses {t : Tree} {place : Nat} (h : t.misses place = true) :
    t.seemsToMiss place = true := by
  obtain ⟨e, he, hmark⟩ := (Option.any_eq_true ..).mp h
  exact hasTextOf_of_isNamed he hmark

/-- **If the marks are empty and the scripts are not**, nothing else seems to be missing. -/
theorem seemsToMiss_eq_of_empty_marks {t : Tree}
    (hmarks : ∀ r ∈ t.children, r.isNamed Settings.mathmlNamespace "none" = true →
      r.innerText = [])
    (hscripts : ∀ place ∈ scriptPlaces, ∀ e ∈ t.elements[place - 1]?,
      t.misses place = true ∨ e.innerText ≠ []) :
    ∀ place ∈ scriptPlaces, t.seemsToMiss place = t.misses place := by
  intro place hplace
  rw [Bool.eq_iff_iff]
  refine ⟨fun hseems => ?_, seemsToMiss_of_misses⟩
  obtain ⟨e, he, r, hr, hmark, heq⟩ := hasTextOf_iff.mp hseems
  refine (hscripts place hplace e he).resolve_right fun hne => hne ?_
  rw [← heq, hmarks r hr hmark]

end XPath.Tree

namespace Table

/-! ## The rules -/

/-- **A rule for scripts**: those that it takes to be missing, and its key. -/
structure MultiscriptRule where
  missing : List Nat
  key : Text

/-- **The rules for scripts**, in order. -/
def multiscriptRules : List MultiscriptRule := [⟨[], "mmultiscripts-4"⟩,
  ⟨[2], "mmultiscripts-3-1"⟩, ⟨[3], "mmultiscripts-3-2"⟩, ⟨[5], "mmultiscripts-3-3"⟩,
  ⟨[6], "mmultiscripts-3-4"⟩, ⟨[2, 3], "mmultiscripts-2-1"⟩, ⟨[2, 3, 5], "mmultiscripts-1-1"⟩,
  ⟨[2, 3, 6], "mmultiscripts-1-2"⟩]

/-- The constraints that scripts are missing; with any of them goes the one that the scripts are
divided. -/
def missingConstraints (places : List Nat) : List Text :=
  if places = [] then [] else
    (places.take 2).map (isLike "none") ++ isLike "mprescripts" 4
      :: (places.drop 2).map (isLike "none")

/-- The entry of a rule. -/
def MultiscriptRule.entry (r : MultiscriptRule) : Entry :=
  (⟨elementQuery "mmultiscripts", missingConstraints r.missing⟩, r.key)

/-- **Speaks an element**: a component speaks the node at the place. -/
def Speaks (action : Action) (place : Nat) : Prop :=
  ∃ c ∈ action.components, c.kind = .node ∧ c.content = elementAt place

instance (action : Action) (place : Nat) : Decidable (Speaks action place) :=
  inferInstanceAs (Decidable (∃ c ∈ action.components, _))

theorem entriesAbout_mmultiscripts :
    entriesAbout bundled "mmultiscripts" = multiscriptRules.map MultiscriptRule.entry := by
  rw [entriesAbout_eq]
  decide +kernel

theorem map_placedFor_multiscriptRules : ∀ r ∈ multiscriptRules,
    (placedFor bundled r.key).map (fun x => (x.1, x.2.1, scriptPlaces.filter (Speaks x.2.2)))
      = [(defaultName, defaultName, scriptPlaces.filter (· ∉ r.missing))] := by
  simp only [placedFor_eq]
  decide +kernel

/-- **A rule speaks the scripts that it does not take to be missing**, and no others. -/
theorem exists_placedFor {r : MultiscriptRule} (hr : r ∈ multiscriptRules) :
    ∃ action, placedFor bundled r.key = [(defaultName, defaultName, action)]
      ∧ ∀ place ∈ scriptPlaces, Speaks action place ↔ place ∉ r.missing := by
  obtain ⟨⟨domain, style, action⟩, hplaced, heq⟩ :=
    List.map_eq_singleton_iff.mp (map_placedFor_multiscriptRules r hr)
  obtain ⟨rfl, hrest⟩ := Prod.mk.inj heq
  obtain ⟨rfl, hspoken⟩ := Prod.mk.inj hrest
  refine ⟨action, hplaced, fun place hplace => ?_⟩
  have hmem : place ∈ scriptPlaces.filter (Speaks action)
      ↔ place ∈ scriptPlaces.filter (· ∉ r.missing) := by rw [hspoken]
  simpa only [List.mem_filter, hplace, true_and, decide_eq_true_eq] using hmem

theorem filter_missing : ∀ r ∈ multiscriptRules,
    scriptPlaces.filter (· ∈ r.missing) = r.missing := by
  decide

theorem missing_subset {r : MultiscriptRule} (hr : r ∈ multiscriptRules) :
    r.missing ⊆ scriptPlaces := by
  rw [← filter_missing r hr]
  exact (List.filter_sublist ..).subset

/-! ## The choice -/

theorem length_missingConstraints_cons (place : Nat) (rest : List Nat) :
    (missingConstraints (place :: rest)).length = (place :: rest).length + 1 := by
  have hsplit : ((place :: rest).take 2).length + ((place :: rest).drop 2).length
      = (place :: rest).length := by
    rw [← List.length_append, List.take_append_drop]
  rw [missingConstraints, if_neg (List.cons_ne_nil _ _), List.length_append, List.length_cons,
    List.length_map, List.length_map, ← hsplit, Nat.add_assoc]

/-- The more scripts are missing, the more constraints there are. -/
theorem length_missingConstraints_lt_iff {ps qs : List Nat} :
    (missingConstraints ps).length < (missingConstraints qs).length ↔ ps.length < qs.length := by
  have hnil : (missingConstraints []).length = 0 := rfl
  cases ps with
  | nil =>
    cases qs with
    | nil => rw [hnil, List.length_nil]
    | cons q qs => simp [hnil, length_missingConstraints_cons]
  | cons p ps =>
    cases qs with
    | nil => simp [hnil, length_missingConstraints_cons]
    | cons q qs =>
      rw [length_missingConstraints_cons, length_missingConstraints_cons, Nat.add_lt_add_iff_right]

section

variable {affirmed : Text → Bool} (hdivided : affirmed (isLike "mprescripts" 4) = true)
include hdivided

/-- **Constraints on missing scripts are affirmed** if each of these is missing. -/
theorem all_missingConstraints (places : List Nat) :
    (missingConstraints places).all affirmed = places.all (affirmed ∘ isLike "none") := by
  by_cases h : places = []
  · rw [missingConstraints, if_pos h, h]
    rfl
  · rw [missingConstraints, if_neg h, List.all_append, List.all_cons, hdivided, Bool.true_and,
      List.all_map, List.all_map, ← List.all_append, List.take_append_drop]

/-- **The rule that is chosen** is the first of those with most scripts that it takes to be missing,
of all rules for which these seem to be. -/
theorem exists_chosen?_mmultiscripts {seems : Nat → Bool}
    (hseems : ∀ place ∈ scriptPlaces, affirmed (isLike "none" place) = seems place) :
    ∃ i r, FirstMost (fun r => r.missing.all seems) (fun r => r.missing.length)
        multiscriptRules i r
      ∧ chosen? bundled "mmultiscripts" affirmed = some r.key := by
  have hall : ∀ r ∈ multiscriptRules,
      r.entry.1.constraints.all affirmed = r.missing.all seems := by
    intro r hr
    refine (all_missingConstraints hdivided r.missing).trans (Bool.eq_iff_iff.mpr ?_)
    rw [List.all_eq_true, List.all_eq_true]
    exact forall₂_congr fun place hplace =>
      Bool.eq_iff_iff.mp (hseems place (missing_subset hr hplace))
  rw [chosen?, entriesAbout_mmultiscripts]
  cases hbest : Selection.mostConstrained ((multiscriptRules.map MultiscriptRule.entry).filter
      fun e => e.1.constraints.all affirmed) with
  | none =>
    -- the first rule takes nothing to be missing, so it always applies
    have hnil := List.filter_eq_nil_iff.mp (Selection.mostConstrained_eq_none_iff.mp hbest)
    exact absurd rfl (hnil _ List.mem_cons_self)
  | some best =>
    obtain ⟨i, hi⟩ := Selection.exists_firstMost_of_mostConstrained hbest
    obtain ⟨r, rfl, hr⟩ := hi.of_map hall fun _ _ _ _ => length_missingConstraints_lt_iff
    exact ⟨i, r, hr, rfl⟩

end

/-! ## What is spoken -/

/-- **What a rule takes to be missing** is what is missing if it is so at each place. -/
theorem missing_eq_iff {t : Tree} {r : MultiscriptRule} (hr : r ∈ multiscriptRules) :
    r.missing = t.missing ↔ ∀ place ∈ scriptPlaces, place ∈ r.missing ↔ place ∈ t.missing := by
  refine ⟨fun h place _ => by rw [h], fun h => ?_⟩
  rw [← filter_missing r hr, Tree.missing]
  refine List.filter_congr fun place hplace => ?_
  rw [Bool.eq_iff_iff, decide_eq_true_iff, h place hplace, Tree.mem_missing_iff hplace]

/-- **The rule for an element with scripts** is the first of those with most scripts that it takes
to be missing, of all rules for which these seem to be. -/
theorem exists_chosen?_of_isMultiscript {d : Document} {a : Address} {t : Tree}
    (ht : t.IsMultiscript) :
    ∃ i r, FirstMost (fun r => r.missing.all t.seemsToMiss) (fun r => r.missing.length)
        multiscriptRules i r
      ∧ chosen? bundled "mmultiscripts" ((defaultSetting d).affirms ⟨a, .tree t⟩)
        = some r.key := by
  refine exists_chosen?_mmultiscripts ?_ fun place hplace => ?_
  · obtain ⟨e, he, hnamed⟩ := ht.divided
    have hfourth : e ∈ t.elements[4 - 1]? := he
    rw [affirms_isLike (by decide)]
    exact Tree.hasTextOf_of_isNamed hfourth hnamed
  · have hlike : ∀ place ∈ scriptPlaces, (("none" : Text), place) ∈ likenesses := by
      decide
    rw [affirms_isLike (hlike place hplace), Tree.seemsToMiss]

section

variable {t : Tree} {i : Nat} {r : MultiscriptRule}
  (hchosen : FirstMost (fun r => r.missing.all t.seemsToMiss) (fun r => r.missing.length)
    multiscriptRules i r)
  (hseems : ∀ place ∈ scriptPlaces, t.seemsToMiss place = t.misses place)
include hchosen hseems

/-- Where nothing seems to be missing but the marks, **the chosen rule takes nothing to be missing
that is there**. -/
theorem missing_sublist_of_chosen : r.missing.Sublist t.missing := by
  have hr := List.mem_of_getElem? hchosen.place
  rw [← filter_missing r hr]
  refine List.monotone_filter_right scriptPlaces fun place hplace => ?_
  have hmem : place ∈ r.missing := of_decide_eq_true hplace
  rw [← hseems place (missing_subset hr hmem)]
  exact List.all_eq_true.mp hchosen.matched place hmem

/-- Where nothing seems to be missing but the marks, **the chosen rule is the one for the missing
scripts** if there is one. -/
theorem missing_eq_of_chosen {r' : MultiscriptRule} (hr' : r' ∈ multiscriptRules)
    (heq : r'.missing = t.missing) : r.missing = t.missing := by
  obtain ⟨j, hj⟩ := List.getElem?_of_mem hr'
  have happlies : r'.missing.all t.seemsToMiss = true := by
    rw [heq, List.all_eq_true]
    intro place hplace
    exact Tree.seemsToMiss_of_misses (List.mem_filter.mp hplace).2
  have hmost := hchosen.le j r' hj happlies
  exact (missing_sublist_of_chosen hchosen hseems).eq_of_length_le (heq ▸ hmost)

end

/-- **What is spoken is what the chosen rule leaves.**  The store that is made by default is asked
about an element with scripts on both sides in any document, by an evaluator with the default
namespaces, whatever its cache has read before.  The rule that is chosen is the first of those with
most scripts that it takes to be missing, of all rules for which these seem to be.  For every domain
and style one action is found, which speaks just the scripts that the rule does not take to be
missing: these are the scripts that are there exactly if the rule takes the missing scripts to be
missing.  Where nothing seems to be missing but the marks, each script that is there is spoken, and
no others are exactly if one of the rules is for the missing scripts. -/
theorem speaks_scripts {f : Folder} (hf : f.has (Path.ofText bundledName) = false) (log : Log)
    (debug : Bool) :
    ∃ s, (createStore f log debug (tablesOf Settings.defaults)).1 = .ok s
      ∧ ∀ d a t, d.nodeAt? a = some ⟨a, .tree t⟩ → t.IsMultiscript →
        ∃ i r action, FirstMost (fun r => r.missing.all t.seemsToMiss) (fun r => r.missing.length)
            multiscriptRules i r
          ∧ (∀ domain style, FindsAction s d a domain style action)
          ∧ (∀ place ∈ scriptPlaces, Speaks action place ↔ place ∉ r.missing)
          ∧ ((∀ place ∈ scriptPlaces, Speaks action place ↔ t.misses place = false)
            ↔ r.missing = t.missing)
          ∧ ((∀ place ∈ scriptPlaces, t.seemsToMiss place = t.misses place) →
            (∀ place ∈ scriptPlaces, t.misses place = false → Speaks action place)
            ∧ (r.missing = t.missing ↔ ∃ r' ∈ multiscriptRules, r'.missing = t.missing)) := by
  refine ⟨_, createStore_defaults hf log debug, fun d a t hnode ht => ?_⟩
  obtain ⟨i, r, hfirst, hchosen⟩ := exists_chosen?_of_isMultiscript ht
  have hr := List.mem_of_getElem? hfirst.place
  obtain ⟨action, hplaced, hspeaks⟩ := exists_placedFor hr
  refine ⟨i, r, action, hfirst, findsAction_of_chosen hnode ht.named hchosen debug hplaced,
    hspeaks, ?_, fun hseems => ⟨fun place hplace hthere => ?_, fun h => ⟨r, hr, h⟩, ?_⟩⟩
  · rw [missing_eq_iff hr]
    refine forall₂_congr fun place hplace => ?_
    rw [hspeaks place hplace, ← Tree.notMem_missing_iff hplace, not_iff_not]
  · rw [hspeaks place hplace]
    exact fun hmem => (Tree.notMem_missing_iff hplace).mpr hthere
      ((missing_sublist_of_chosen hfirst hseems).subset hmem)
  · rintro ⟨r', hr', heq⟩
    exact missing_eq_of_chosen hfirst hseems hr' heq

/-- A mark for a missing script. -/
def mark : Tree := .element ⟨Settings.mathmlNamespace, "none", "none"⟩ [] [] []

/-- A script. -/
def script (t : Text) : Tree := .element ⟨Settings.mathmlNamespace, "mn", "mn"⟩ [] [] [.text t]

/-- A letter with scripts: two on the right, and two on the left. -/
def multiscripts (lower upper lowerLeft upperLeft : Tree) : Tree :=
  .element ⟨Settings.mathmlNamespace, "mmultiscripts", "mmultiscripts"⟩ [] []
    [.element ⟨Settings.mathmlNamespace, "mi", "mi"⟩ [] [] [.text "A"], lower, upper,
      .element ⟨Settings.mathmlNamespace, "mprescripts", "mprescripts"⟩ [] [] [],
      lowerLeft, upperLeft]

theorem speaks_scripts_multiscripts :
    ∃ s, (createStore ⟨.empty⟩ {} false (tablesOf Settings.defaults)).1 = .ok s
      ∧ ∃ action, FindsAction s ⟨[multiscripts mark (script "2") (script "3") (script "4")]⟩
          [.child 0] none none action
        ∧ ∀ place ∈ scriptPlaces, Speaks action place ↔ place ∈ [3, 5, 6] := by
  obtain ⟨s, hs, hspeaks⟩ := speaks_scripts (f := ⟨.empty⟩) rfl {} false
  let t := multiscripts mark (script "2") (script "3") (script "4")
  have hseems : ∀ place ∈ scriptPlaces, t.seemsToMiss place = t.misses place :=
    Tree.seemsToMiss_eq_of_empty_marks (by decide) (by decide)
  obtain ⟨i, r, action, -, hfinds, -, hexact, hplain⟩ :=
    hspeaks ⟨[t]⟩ [.child 0] t rfl ⟨rfl, _, rfl, rfl⟩
  have hrule : ∃ r ∈ multiscriptRules, r.missing = t.missing :=
    ⟨⟨[2], "mmultiscripts-3-1"⟩, by simp [multiscriptRules], by decide⟩
  have hthere : ∀ place ∈ scriptPlaces, t.misses place = false ↔ place ∈ [3, 5, 6] := by
    decide
  exact ⟨s, hs, action, hfinds none none, fun place hplace =>
    (hexact.mpr ((hplain hseems).2.mpr hrule) place hplace).trans (hthere place hplace)⟩

/-- **What is missing is sometimes spoken**: if both lower scripts are missing, the chosen rule is
the first of those that take one of them to be missing, and it speaks the other. -/
theorem not_speaks_only_scripts :
    ∃ s t, (createStore ⟨.empty⟩ {} false (tablesOf Settings.defaults)).1 = .ok s
      ∧ t = multiscripts mark (script "2") mark (script "4") ∧ t.IsMultiscript
      ∧ t.missing = [2, 5]
      ∧ ∃ action, (∀ domain style, FindsAction s ⟨[t]⟩ [.child 0] domain style action)
        ∧ Speaks action 5 := by
  let t := multiscripts mark (script "2") mark (script "4")
  have ht : t.IsMultiscript := ⟨rfl, _, rfl, rfl⟩
  have hchosen : chosen? bundled "mmultiscripts"
      ((defaultSetting ⟨[t]⟩).affirms ⟨[.child 0], .tree t⟩) = some "mmultiscripts-3-1" := by
    rw [chosen?, entriesAbout_mmultiscripts]
    decide
  obtain ⟨action, hplaced, hspeaks⟩ := exists_placedFor
    (r := ⟨[2], "mmultiscripts-3-1"⟩) (by simp [multiscriptRules])
  exact ⟨_, t, createStore_defaults rfl {} false, rfl, ht, by decide,
    action, findsAction_of_chosen rfl ht.named hchosen false hplaced,
    (hspeaks 5 (by decide)).mpr (by decide)⟩

end Table

end MathSpeech
