import MathSpeech.Proofs.Store.OneByOne
import MathSpeech.Settings

/-!
# Proofs/Settings/Naming — one grammar for the names of domains and styles

Where a domain and a style are given, joined by a point in a definition, apart in the texts of one
rule, or as the defaults of the settings, the same pairs are taken: both are **names**
(`Store.IsName`).  `Settings.one_grammar_of_names` says it of all three at once, so that a rule for
the default domain and style can be defined exactly if the settings have no fault in these names.
-/

namespace MathSpeech

open Rule (Action)

namespace Store

/-! ## Pairs that are refused -/

/-- The notice that a rule text is for no domain and style. -/
def invalidPair (key domain style : Text) : Notice :=
  .skipped key "definition" ("Invalid domain assignment " ++ joinDomain domain style)

/-- **A text that is joined from two names** is joined from no other pair. -/
theorem eq_of_joinDomain_eq {domain style domain' style' : Text} (hdomain : IsName domain)
    (hstyle : IsName style) (h : joinDomain domain style = joinDomain domain' style') :
    domain = domain' ∧ style = style' := by
  obtain ⟨houter, -, hinner⟩ := (List.append_cons_inj_of_notMem hdomain.2 hstyle.2).mp h
  exact ⟨houter, hinner⟩

/-- **A pair is refused among rule texts** if a pair of the same spelling is not valid. -/
theorem mem_notices_readMappings {key domain style : Text} {ts : List (Text × Text × Text)} :
    invalidPair key domain style ∈ (readMappings key ts).2.2
      ↔ ∃ t ∈ ts, validPair t.1 t.2.1 = false ∧ joinDomain domain style = joinDomain t.1 t.2.1 := by
  induction ts with
  | nil => exact iff_of_false List.not_mem_nil fun ⟨_, ht, _⟩ => List.not_mem_nil ht
  | cons t rest ih =>
    obtain ⟨outer, inner, text⟩ := t
    rw [List.exists_mem_cons_iff, ← ih]
    simp only [readMappings]
    cases hpair : validPair outer inner with
    | true =>
      rw [if_pos rfl]
      cases Action.parse text <;> simp [invalidPair]
    | false =>
      rw [if_neg Bool.false_ne_true]
      simp [invalidPair]

/-- **A pair among rule texts is taken** exactly if both are names, whatever other pairs there
are. -/
theorem notMem_notices_readMappings_iff {key domain style text : Text}
    {ts : List (Text × Text × Text)} (hmem : (domain, style, text) ∈ ts) :
    invalidPair key domain style ∉ (readMappings key ts).2.2 ↔ IsName domain ∧ IsName style := by
  rw [mem_notices_readMappings]
  constructor
  · intro h
    by_contra hinvalid
    rw [← validPair_iff, Bool.not_eq_true] at hinvalid
    exact h ⟨_, hmem, hinvalid, rfl⟩
  · rintro ⟨houter, hinner⟩ ⟨t, -, hinvalid, hjoin⟩
    -- no other pair is spelled like two names
    obtain ⟨rfl, rfl⟩ := eq_of_joinDomain_eq houter hinner hjoin
    rw [validPair_iff.mpr ⟨houter, hinner⟩] at hinvalid
    cases hinvalid

/-- The notices of a definition are those about its texts, and one if it is added. -/
theorem mem_notices_defineMappings {s : Store} (hs : s.frozen = false)
    (key category : Text) (mappings : Mappings Text) (query : Text) (constraints : List Text) :
    ∃ change, s.defineMappings key category mappings query constraints = .ok change
      ∧ ∀ domain style, invalidPair key domain style ∈ change.notices
        ↔ invalidPair key domain style ∈ (readMappings key mappings.triples).2.2 := by
  rw [defineMappings, hs, if_neg Bool.false_ne_true]
  dsimp only
  split
  · exact ⟨_, rfl, fun _ _ => Iff.rfl⟩
  · refine ⟨_, rfl, fun domain style => ?_⟩
    rw [registered, List.mem_append, List.mem_singleton]
    exact or_iff_left fun h => by cases h

end Store

namespace Settings

open Store (IsName joinDomain splitDomain? splitDomain?_joinDomain splitDomain?_eq_some_iff
  validPair validPair_iff invalidPair isSome_usable?_iff exists_define_joinDomain)

/-! ## Faults of the settings -/

/-- **A fault in the name** of the default domain or style. -/
def IsAboutNames (problem : Text) : Prop :=
  "rules.default_domain".toList <+: problem ∨ "rules.default_style".toList <+: problem

instance (problem : Text) : Decidable (IsAboutNames problem) := inferInstanceAs (Decidable (_ ∨ _))

variable {settings : Value}

theorem isPrefix_of_mem_nameProblems {name p : Text} (h : p ∈ nameProblems settings name) :
    ("rules." ++ name : Text) <+: p := by
  rw [nameProblems] at h
  split at h
  · split at h
    · obtain rfl := List.mem_singleton.mp h
      exact List.prefix_append ..
    · exact absurd h List.not_mem_nil
  · obtain rfl := List.mem_singleton.mp h
    exact List.prefix_append ..

/-- **The settings have no fault in a name** exactly if it is one. -/
theorem nameProblems_eq_nil_iff {name t : Text}
    (h : nested? settings ("rules." ++ name) = some (.text t)) :
    nameProblems settings name = [] ↔ IsName t := by
  rw [nameProblems, h]
  cases t with
  | nil => exact iff_of_false (List.cons_ne_nil _ _) fun hname => hname.1 rfl
  | cons c rest =>
    dsimp only
    split
    · rename_i hpoint
      exact iff_of_false (List.cons_ne_nil _ _) fun hname => hname.2 hpoint
    · rename_i hplain
      exact iff_of_true rfl ⟨List.cons_ne_nil c rest, hplain⟩

/-- What is wrong with the settings apart from the two names. -/
def otherProblems (settings : Value) : List Text :=
  levelProblems settings ++ formatProblems settings ++ tableProblems settings
    ++ namespaceProblems settings

theorem mem_problems {p : Text} :
    p ∈ problems settings ↔ p ∈ nameProblems settings "default_domain"
      ∨ p ∈ nameProblems settings "default_style" ∨ p ∈ otherProblems settings := by
  simp only [problems, otherProblems, List.mem_append]
  tauto

/-- What is wrong elsewhere is no fault in a name. -/
theorem not_isAboutNames_of_mem {p : Text} (h : p ∈ otherProblems settings) :
    ¬IsAboutNames p := by
  have hlevel : ¬IsAboutNames ("logging.level must be one of " ++ Text.joined ", " levels) := by
    decide +kernel
  have hformat : ¬IsAboutNames ("logging.format must be one of " ++ Text.joined ", " formats) := by
    decide +kernel
  have htables : ¬IsAboutNames "rules.tables must be a list of file names" := by decide +kernel
  have hspaces : ¬IsAboutNames "xpath.namespaces must be a mapping of prefix to URI" := by
    decide +kernel
  have hone : ∀ {q : Text}, ¬IsAboutNames q → p ∈ [q] → ¬IsAboutNames p := by
    rintro q hq hp
    rwa [List.mem_singleton.mp hp]
  simp only [otherProblems, List.mem_append] at h
  obtain ((h | h) | h) | h := h
  · rw [levelProblems] at h
    split at h
    · exact absurd h List.not_mem_nil
    · exact hone hlevel h
  · rw [formatProblems] at h
    split at h
    · split at h
      · exact absurd h List.not_mem_nil
      · exact hone hformat h
    · exact hone hformat h
  · rw [tableProblems] at h
    split at h
    · split at h
      · exact absurd h List.not_mem_nil
      · exact hone htables h
    · exact hone htables h
  · rw [namespaceProblems] at h
    split at h
    · exact absurd h List.not_mem_nil
    · exact hone hspaces h

/-- **The settings have no fault in the two names** exactly if both are names. -/
theorem forall_problems_iff {domain style : Text}
    (hdomain : nested? settings "rules.default_domain" = some (.text domain))
    (hstyle : nested? settings "rules.default_style" = some (.text style)) :
    (∀ p ∈ problems settings, ¬IsAboutNames p) ↔ IsName domain ∧ IsName style := by
  have houter : nameProblems settings "default_domain" = [] ↔ IsName domain :=
    nameProblems_eq_nil_iff hdomain
  have hinner : nameProblems settings "default_style" = [] ↔ IsName style :=
    nameProblems_eq_nil_iff hstyle
  rw [← houter, ← hinner, List.eq_nil_iff_forall_not_mem, List.eq_nil_iff_forall_not_mem]
  constructor
  · intro h
    constructor
    · intro p hp
      exact h p (mem_problems.mpr (.inl hp)) (.inl (isPrefix_of_mem_nameProblems hp))
    · intro p hp
      exact h p (mem_problems.mpr (.inr (.inl hp))) (.inr (isPrefix_of_mem_nameProblems hp))
  · rintro ⟨hdomains, hstyles⟩ p hp
    obtain hp | hp | hp := mem_problems.mp hp
    · exact absurd hp (hdomains p)
    · exact absurd hp (hstyles p)
    · exact not_isAboutNames_of_mem hp

/-! ## One grammar -/

/-- **One grammar for domains and styles.**  Any two texts are taken as a domain and a style by all
or by none of these: the splitting of the two joined by a point, the texts of one rule for several
domains and styles, whatever other texts there are, and the settings, whatever else they say.  If
they are taken, the joined text is split into exactly the two; and whatever is split is the two
parts joined again.  So where the settings name the two as defaults, a rule for them can be defined
exactly if the settings have no fault in these names. -/
theorem one_grammar_of_names {s : Store} (hs : s.frozen = false) (key category query : Text)
    (constraints : List Text) {mappings : Mappings Text} {outer style text : Text}
    (hmem : (outer, style, text) ∈ mappings.triples) {settings : Value}
    (hdomain : nested? settings "rules.default_domain" = some (.text outer))
    (hstyle : nested? settings "rules.default_style" = some (.text style)) :
    (∃ change, s.defineMappings key category mappings query constraints = .ok change
        ∧ ((splitDomain? (joinDomain outer style)).isSome = true
          ↔ invalidPair key outer style ∉ change.notices))
      ∧ ((splitDomain? (joinDomain outer style)).isSome = true
        ↔ ∀ p ∈ problems settings, ¬IsAboutNames p)
      ∧ ((splitDomain? (joinDomain outer style)).isSome = true
        → splitDomain? (joinDomain outer style) = some (outer, style))
      ∧ (∀ t a b, splitDomain? t = some (a, b) → joinDomain a b = t)
      ∧ ∀ t action, Action.parse t = .ok action →
        ∃ change, s.define key category (joinDomain outer style) t query constraints = .ok change
          ∧ (change.value = true ↔ ∀ p ∈ problems settings, ¬IsAboutNames p) := by
  have hsplit : splitDomain? (joinDomain outer style)
      = if validPair outer style then some (outer, style) else none :=
    splitDomain?_joinDomain outer style
  have hsome : (splitDomain? (joinDomain outer style)).isSome = true
      ↔ IsName outer ∧ IsName style := by
    rw [hsplit, ← validPair_iff]
    cases validPair outer style <;> simp
  have hnames := forall_problems_iff hdomain hstyle
  refine ⟨?_, hsome.trans hnames.symm, fun h => ?_, fun t a b h => ?_, fun t action ht => ?_⟩
  · obtain ⟨change, hchange, hnotices⟩ :=
      Store.mem_notices_defineMappings hs key category mappings query constraints
    refine ⟨change, hchange, ?_⟩
    rw [hsome, hnotices, Store.notMem_notices_readMappings_iff hmem]
  · rw [hsplit, if_pos (validPair_iff.mpr (hsome.mp h))]
  · exact (splitDomain?_eq_some_iff.mp h).1.symm
  · obtain ⟨notices, hdefine⟩ :=
      exists_define_joinDomain key category query constraints hs (outer, style, t)
    refine ⟨_, hdefine, ?_⟩
    rw [hnames, isSome_usable?_iff]
    exact ⟨fun h => ⟨h.1, h.2.1⟩, fun h => ⟨h.1, h.2, action, ht⟩⟩

/-- Texts for two names and for two that are none. -/
def someTexts : Mappings Text :=
  Mappings.setAll .empty
    [("geo".toList, "short".toList, "[n] ."), ("geo.a".toList, "default".toList, "[n] .")]

/-- The defaults, but for the names of the default domain and style. -/
def geoSettings : Value :=
  mergeOver (some defaults) (sectionOf [("rules",
    sectionOf [("default_domain", .text "geo"), ("default_style", .text "short")])])

theorem one_grammar_of_names_geoSettings :
    let s := Store.blank .plain false "geo" "short"
    s.frozen = false
      ∧ ("geo".toList, "short".toList, "[n] .".toList) ∈ someTexts.triples
      ∧ nested? geoSettings "rules.default_domain" = some (.text "geo")
      ∧ nested? geoSettings "rules.default_style" = some (.text "short")
      ∧ splitDomain? "geo.short" = some ("geo".toList, "short".toList)
      ∧ ∃ change, s.defineMappings "mi" "" someTexts "self::mi" [] = .ok change
        ∧ invalidPair "mi" "geo" "short" ∉ change.notices := by
  intro s
  have hmem : ("geo".toList, "short".toList, "[n] .".toList) ∈ someTexts.triples := by
    decide +kernel
  have hfrozen : s.frozen = false := rfl
  have hdomain : nested? geoSettings "rules.default_domain" = some (.text "geo") := rfl
  have hstyle : nested? geoSettings "rules.default_style" = some (.text "short") := rfl
  obtain ⟨⟨change, hchange, hnotices⟩, -, hpair, -⟩ :=
    one_grammar_of_names hfrozen "mi" "" "self::mi" [] hmem hdomain hstyle
  have haccepted : (splitDomain? (joinDomain "geo" "short")).isSome = true := by decide +kernel
  exact ⟨hfrozen, hmem, hdomain, hstyle, hpair haccepted, change, hchange, hnotices.mp haccepted⟩

end Settings

end MathSpeech
