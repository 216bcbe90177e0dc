import MathSpeech.Proofs.Store.Naming
import MathSpeech.Proofs.Store.Run
import Mathlib.Data.List.Basic

/-!
# Proofs/Store/Failure — a call that fails leaves no trace

A call that defines something fails by its answer, or because the store refuses it.  Either way the
store after it is the one before it, however far the call came
(`Store.failed_calls_leave_no_trace`).  A store that is not frozen refuses nothing, and whether it
takes a definition can be said without the store, but for an alias: a rule text has to be well
formed and the names of its domain and style have to be names, and of several texts one is enough.
-/

namespace MathSpeech.Store

open Rule (Action)

variable {s : Store}

/-! ## Failures -/

/-- **A call leaves no trace if it fails**, be it by its answer or by a refusal. -/
def TracelessFailure {α : Type} (s : Store) (succeeded : α → Bool)
    (x : Except Refusal (Change α)) : Prop :=
  (Definition.settle s succeeded x).1 = false → (Definition.settle s succeeded x).2 = s

/-- **A definition that fails leaves no trace.** -/
theorem Definition.snd_perform_of_failed {d : Definition} (h : (d.perform s).1 = false) :
    (d.perform s).2 = s := by
  obtain ⟨hd, -, -⟩ | hd := d.perform_cases s
  · rw [hd] at h
    cases h
  · rw [hd]

/-! ## Answers of a store that is not frozen -/

/-- The texts of which the domain and style are names and the text is well formed. -/
theorem isSome_usable?_iff {t : Text × Text × Text} :
    (usable? t).isSome = true
      ↔ IsName t.1 ∧ IsName t.2.1 ∧ ∃ action, Action.parse t.2.2 = .ok action := by
  obtain ⟨domain, style, text⟩ := t
  rw [usable?, ← and_assoc, ← validPair_iff]
  cases hpair : validPair domain style with
  | false => simp
  | true => cases Action.parse text <;> simp [Except.toOption]

/-- What a rule text that can be used is used for. -/
theorem of_usable?_eq_some {t : Text × Text × Text} {u : Text × Text × Action}
    (h : usable? t = some u) : u.1 = t.1 ∧ u.2.1 = t.2.1 ∧ IsName t.1 ∧ IsName t.2.1
      ∧ Action.parse t.2.2 = .ok u.2.2 := by
  obtain ⟨hdomain, hstyle, action, hparse⟩ :=
    isSome_usable?_iff.mp (Option.isSome_iff_exists.mpr ⟨u, h⟩)
  rw [usable?, if_pos (validPair_iff.mpr ⟨hdomain, hstyle⟩), hparse] at h
  obtain rfl := Option.some.inj h
  exact ⟨rfl, rfl, hdomain, hstyle, hparse⟩

/-- **The answer to a rule text**: it is taken, unless it does not say for which domain and style it
is, or cannot be read. -/
theorem exists_define (hs : s.frozen = false) (key category domain text query : Text)
    (constraints : List Text) :
    ∃ change, s.define key category domain text query constraints = .ok change
      ∧ (change.value = false ↔
        (¬∃ outer style, domain = joinDomain outer style ∧ IsName outer ∧ IsName style)
          ∨ ∃ fault, Action.parse text = .error fault) := by
  rw [define, hs, if_neg Bool.false_ne_true]
  cases hdomain : splitDomain? domain with
  | none =>
    refine ⟨_, rfl, iff_of_true rfl (.inl ?_)⟩
    rintro ⟨outer, style, hnames⟩
    cases hdomain.symm.trans (splitDomain?_eq_some_iff.mpr hnames)
  | some pair =>
    cases htext : Action.parse text with
    | error fault => exact ⟨_, rfl, iff_of_true rfl (.inr ⟨fault, rfl⟩)⟩
    | ok action =>
      refine ⟨_, rfl, iff_of_false (Ne.symm Bool.false_ne_true) ?_⟩
      rintro (hnone | ⟨fault, hfault⟩)
      · exact hnone ⟨pair.1, pair.2, splitDomain?_eq_some_iff.mp hdomain⟩
      · cases hfault

/-- **The answer to rule texts for several domains and styles**: they are taken, unless none of them
can be used. -/
theorem exists_defineMappings (hs : s.frozen = false) (key category : Text)
    (mappings : Mappings Text) (query : Text) (constraints : List Text) :
    ∃ change, s.defineMappings key category mappings query constraints = .ok change
      ∧ (change.value.1 = false ↔ ∀ t ∈ mappings.triples,
        ¬(IsName t.1 ∧ IsName t.2.1 ∧ ∃ action, Action.parse t.2.2 = .ok action)) := by
  have hplaced : (readMappings key mappings.triples).1 = [] ↔ ∀ t ∈ mappings.triples,
      ¬(IsName t.1 ∧ IsName t.2.1 ∧ ∃ action, Action.parse t.2.2 = .ok action) := by
    rw [Definition.readMappings_fst, List.filterMap_eq_nil_iff]
    simp only [← isSome_usable?_iff, Option.not_isSome_iff_eq_none]
  rw [defineMappings, hs, if_neg Bool.false_ne_true, ← hplaced]
  dsimp only
  split
  · rename_i hempty
    exact ⟨_, rfl, iff_of_true rfl (List.isEmpty_iff.mp hempty)⟩
  · rename_i hfilled
    exact ⟨_, rfl, iff_of_false (Ne.symm Bool.false_ne_true) fun h =>
      hfilled (List.isEmpty_iff.mpr h)⟩

/-- **The answer to an alias**: it is taken, unless its key has no atom. -/
theorem exists_defineAlias (hs : s.frozen = false) (key query : Text) (constraints : List Text) :
    ∃ change, s.defineAlias key query constraints = .ok change
      ∧ (change.value = false ↔ s.atoms.get? key = none) := by
  have hkey : s.atoms.contains key = false ↔ s.atoms.get? key = none := by
    rw [OrderedMap.contains, Option.isSome_eq_false_iff, Option.isNone_iff_eq_none]
  rw [defineAlias, hs, if_neg Bool.false_ne_true, ← hkey]
  cases hcontains : s.atoms.contains key <;> exact ⟨_, rfl, by simp⟩

/-! ## All calls -/

/-- **A call that fails leaves no trace**, whatever the store and the arguments are.  A store that
is not frozen answers every call, and the answer is failure exactly if, for a rule text, it is not
for two names joined by a point or cannot be read; for several texts, none of them is for two names
and can be read; and for an alias, its key has no atom. -/
theorem failed_calls_leave_no_trace (s : Store) :
    (∀ key category domain text query constraints, TracelessFailure s id
        (s.define key category domain text query constraints))
      ∧ (∀ key category mappings query constraints, TracelessFailure s Prod.fst
        (s.defineMappings key category mappings query constraints))
      ∧ (∀ key query constraints, TracelessFailure s id (s.defineAlias key query constraints))
      ∧ (∀ key domain text, TracelessFailure s id (s.defineMathml key domain text))
      ∧ (∀ key text, TracelessFailure s id (s.defineDefaultMathml key text))
      ∧ (∀ key category p placed, TracelessFailure s (fun _ => true)
        (s.addRule key category p placed))
      ∧ (s.frozen = false →
        (∀ key category domain text query constraints,
          ∃ change, s.define key category domain text query constraints = .ok change
            ∧ (change.value = false ↔
              (¬∃ outer style, domain = joinDomain outer style ∧ IsName outer ∧ IsName style)
                ∨ ∃ fault, Action.parse text = .error fault))
        ∧ (∀ key category mappings query constraints,
          ∃ change, s.defineMappings key category mappings query constraints = .ok change
            ∧ (change.value.1 = false ↔ ∀ t ∈ Mappings.triples mappings,
              ¬(IsName t.1 ∧ IsName t.2.1 ∧ ∃ action, Action.parse t.2.2 = .ok action)))
        ∧ ∀ key query constraints,
          ∃ change, s.defineAlias key query constraints = .ok change
            ∧ (change.value = false ↔ s.atoms.get? key = none)) := by
  have hrule : ∀ key category domain text query constraints, TracelessFailure s id
      (s.define key category domain text query constraints) :=
    fun key category domain text query constraints =>
      Definition.snd_perform_of_failed (d := .rule key category domain text query constraints)
  refine ⟨hrule, fun key category mappings query constraints => ?_,
    fun key query constraints => ?_, fun key domain text => ?_, fun key text => ?_,
    fun key category p placed => ?_, fun hs => ⟨exists_define hs, exists_defineMappings hs,
      exists_defineAlias hs⟩⟩
  · exact Definition.snd_perform_of_failed (d := .rules key category mappings query constraints)
  · exact Definition.snd_perform_of_failed (d := .other key query constraints)
  · exact hrule key mathmlCategory domain text (elementQuery key) []
  · exact hrule key mathmlCategory (joinDomain defaultName defaultName) text (elementQuery key) []
  · exact Definition.snd_perform_of_failed (d := .actions key category p placed)

/-- A rule text whose fifth component has an attribute without a name. -/
def brokenText : Text := "[n] ./*[1]; [t] \"sub\"; [n] ./*[2]; [p] (pause:200); [p] (pause:1, :2)"

/-- Two rule texts, of which one cannot be read and the other is for no name. -/
def brokenTexts : Mappings Text :=
  (Mappings.set .empty "default" "short" brokenText).set "a.b" "default" "[n] ."

/-- A store with one rule. -/
def subscriptStore : Store :=
  run (blank .mathml false defaultName defaultName) [.defaultMathml "msub" "[n] ./*[1]"]

theorem failed_calls_leave_no_trace_subscriptStore :
    subscriptStore.frozen = false
      ∧ (∃ change, subscriptStore.define "msub" "" "default.default" brokenText "self::mi" []
          = .ok change ∧ change.value = false ∧ change.store = subscriptStore)
      ∧ ∃ change, subscriptStore.defineMappings "msub" "" brokenTexts "self::mi" [] = .ok change
        ∧ change.value.1 = false ∧ change.store = subscriptStore := by
  have hfrozen : subscriptStore.frozen = false := by decide +kernel
  have hunusable : ∀ t ∈ Mappings.triples brokenTexts, ¬(usable? t).isSome = true := by
    decide +kernel
  obtain ⟨hrule, hrules, -, -, -, -, hanswers⟩ := failed_calls_leave_no_trace subscriptStore
  obtain ⟨hone, hmany, -⟩ := hanswers hfrozen
  obtain ⟨change, hchange, hvalue⟩ := hone "msub" "" "default.default" brokenText "self::mi" []
  obtain ⟨changes, hchanges, hvalues⟩ := hmany "msub" "" brokenTexts "self::mi" []
  have hfailed : change.value = false :=
    hvalue.mpr (.inr ⟨.namelessAttribute " :2", by decide +kernel⟩)
  have hallfailed : changes.value.1 = false :=
    hvalues.mpr fun t ht h => hunusable t ht (isSome_usable?_iff.mpr h)
  have hkept := hrule "msub" "" "default.default" brokenText "self::mi" []
  have hallkept := hrules "msub" "" brokenTexts "self::mi" []
  rw [TracelessFailure, hchange] at hkept
  rw [TracelessFailure, hchanges] at hallkept
  exact ⟨hfrozen, ⟨change, hchange, hfailed, hkept hfailed⟩, changes, hchanges, hallfailed,
    hallkept hallfailed⟩

end MathSpeech.Store
