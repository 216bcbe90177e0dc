import MathSpeech.Proofs.Store.Failure
import MathSpeech.Proofs.Store.Reordering
import MathSpeech.Proofs.Store.Repetition

/-!
# Proofs/Store/OneByOne — rule texts defined at once, or one by one

Rule texts for several domains and styles may be defined in one call, or in one call for each, where
the domain and the style are joined by a point.  This comes to the same
(`Store.texts_at_once_as_one_by_one`), although the precondition is registered once or as often as
there are texts that can be used.  Three facts carry this.

* A domain and a style that are joined are split again exactly if they may be given apart
  (`Store.splitDomain?_joinDomain`), so the same texts can be used.
* Two registrations of one key make the atom that one registration of the actions of both makes, and
  the names in it only grow (`Store.sameRules_register_register`).
* An entry that is there already changes nothing that is found.
-/

namespace MathSpeech

open Rule (Action Precondition)

/-- Of two values written to a key the later one counts. -/
theorem OrderedMap.insert_insert {κ ν : Type} [DecidableEq κ] (m : OrderedMap κ ν) (k : κ)
    (v w : ν) : (m.insert k v).insert k w = m.insert k w := by
  refine ext_get? ?_ fun k' => ?_
  · have hk : k ∈ (m.insert k v).keys := mem_keys.mpr ⟨v, get?_insert_self m k v⟩
    rw [keys_insert, if_pos hk, keys_insert, keys_insert]
  · simp only [get?_insert]
    split <;> rfl

namespace Store

/-! ## Texts that can be used -/

/-- **A domain and a style that are joined** are split again if each of them is a name; and else the
joined text cannot be split into names at all. -/
theorem splitDomain?_joinDomain (domain style : Text) :
    splitDomain? (joinDomain domain style)
      = if validPair domain style then some (domain, style) else none := by
  split
  · rename_i hvalid
    exact splitDomain?_eq_some_iff.mpr ⟨rfl, validPair_iff.mp hvalid⟩
  · rename_i hinvalid
    refine Option.eq_none_iff_forall_not_mem.mpr fun pair hsplit => hinvalid ?_
    obtain ⟨hjoin, houter, hinner⟩ := splitDomain?_eq_some_iff.mp hsplit
    obtain ⟨hdomain, -, hstyle⟩ := (List.append_cons_inj_of_notMem houter.2 hinner.2).mp hjoin.symm
    rw [validPair_iff, ← hdomain, ← hstyle]
    exact ⟨houter, hinner⟩

/-- **Registration of what can be used**, if there is anything. -/
def registerUsable (s : Store) (key category : Text) (p : Precondition)
    (placed : List (Text × Text × Action)) : Store :=
  if placed.isEmpty then s else s.register key category p placed

section Calls

variable {s : Store} (key category query : Text) (constraints : List Text)

/-- **One text that is defined alone** is registered if it can be used. -/
theorem exists_define_joinDomain (hs : s.frozen = false) (t : Text × Text × Text) :
    ∃ notices, s.define key category (joinDomain t.1 t.2.1) t.2.2 query constraints = .ok
      { value := (usable? t).isSome
        store := (usable? t).elim s fun u => s.register key category ⟨query, constraints⟩ [u]
        notices } := by
  obtain ⟨domain, style, text⟩ := t
  rw [define, hs, if_neg Bool.false_ne_true, splitDomain?_joinDomain, usable?]
  cases validPair domain style with
  | false => exact ⟨_, rfl⟩
  | true => cases Action.parse text <;> exact ⟨_, rfl⟩

/-- **Several texts that are defined at once**: those that can be used are registered, if there are
any, and the others are named. -/
theorem exists_defineMappings_eq (hs : s.frozen = false) (texts : Mappings Text) :
    let placed := texts.triples.filterMap usable?
    ∃ notices, s.defineMappings key category texts query constraints = .ok
      { value := (!placed.isEmpty,
          (texts.triples.filter fun t => (usable? t).isNone).map fun t => joinDomain t.1 t.2.1)
        store := s.registerUsable key category ⟨query, constraints⟩ placed
        notices } := by
  intro placed
  have hplaced : (readMappings key texts.triples).1 = placed := Definition.readMappings_fst ..
  rw [defineMappings, hs, if_neg Bool.false_ne_true, ← Definition.readMappings_snd key,
    registerUsable]
  simp only [hplaced]
  cases placed.isEmpty <;> exact ⟨_, rfl⟩

end Calls

/-- **Texts that are defined one by one**, for each the domain and the style joined: the joined
names with the answers, in order, and the store after all; or the first refusal. -/
def defineEach (s : Store) (key category query : Text) (constraints : List Text) :
    List (Text × Text × Text) → Except Refusal (List (Text × Bool) × Store)
  | [] => .ok ([], s)
  | (domain, style, text) :: rest => do
    let name := joinDomain domain style
    let change ← s.define key category name text query constraints
    let (answers, after) ← change.store.defineEach key category query constraints rest
    return ((name, change.value) :: answers, after)

/-- The registration of one action. -/
def lone (key category : Text) (p : Precondition) (u : Text × Text × Action) : Registration where
  precondition := p
  key
  category
  placed := [u]

section OneByOne

variable {s : Store} (key category query : Text) (constraints : List Text)

theorem defineEach_cons {t : Text × Text × Text} {change : Change Bool}
    (h : s.define key category (joinDomain t.1 t.2.1) t.2.2 query constraints = .ok change)
    (rest : List (Text × Text × Text)) :
    s.defineEach key category query constraints (t :: rest)
      = (change.store.defineEach key category query constraints rest).map fun later =>
        ((joinDomain t.1 t.2.1, change.value) :: later.1, later.2) := by
  rw [defineEach, h]
  rfl

/-- **Texts that are defined one by one** are registered one by one, those that can be used. -/
theorem defineEach_eq (hs : s.frozen = false) (ts : List (Text × Text × Text)) :
    s.defineEach key category query constraints ts = .ok
      (ts.map fun t => (joinDomain t.1 t.2.1, (usable? t).isSome),
        s.registerAll ((ts.filterMap usable?).map (lone key category ⟨query, constraints⟩))) := by
  induction ts generalizing s with
  | nil => rfl
  | cons t rest ih =>
    obtain ⟨notices, hdefine⟩ := exists_define_joinDomain key category query constraints hs t
    rw [defineEach_cons key category query constraints hdefine, List.map_cons]
    cases hu : usable? t with
    | none =>
      rw [List.filterMap_cons_none hu, Option.elim_none, ih hs]
      rfl
    | some u =>
      have hfrozen : (s.register key category ⟨query, constraints⟩ [u]).frozen = false := hs
      rw [List.filterMap_cons_some hu, Option.elim_some, ih hfrozen]
      rfl

end OneByOne

/-! ## Stores with the same rules -/

/-- **Two stores hold the same rules**: the same atoms, in order, and the same gathered names, in
whatever order, under the same settings.  The entries are left open. -/
structure SameRules (s t : Store) : Prop where
  kind : s.kind = t.kind
  debug : s.debug = t.debug
  defaultDomain : s.defaultDomain = t.defaultDomain
  defaultStyle : s.defaultStyle = t.defaultStyle
  frozen : s.frozen = t.frozen
  atoms : s.atoms = t.atoms
  domains : ∀ name, name ∈ s.domains ↔ name ∈ t.domains
  styles : ∀ name, name ∈ s.styles ↔ name ∈ t.styles
  categories : ∀ name, name ∈ s.categories ↔ name ∈ t.categories

namespace SameRules

variable {s t u : Store}

theorem refl (s : Store) : SameRules s s :=
  ⟨rfl, rfl, rfl, rfl, rfl, rfl, fun _ => .rfl, fun _ => .rfl, fun _ => .rfl⟩

theorem symm (h : SameRules s t) : SameRules t s :=
  ⟨h.kind.symm, h.debug.symm, h.defaultDomain.symm, h.defaultStyle.symm, h.frozen.symm,
    h.atoms.symm, fun name => (h.domains name).symm, fun name => (h.styles name).symm,
    fun name => (h.categories name).symm⟩

theorem trans (h : SameRules s t) (h' : SameRules t u) : SameRules s u :=
  ⟨h.kind.trans h'.kind, h.debug.trans h'.debug, h.defaultDomain.trans h'.defaultDomain,
    h.defaultStyle.trans h'.defaultStyle, h.frozen.trans h'.frozen, h.atoms.trans h'.atoms,
    fun name => (h.domains name).trans (h'.domains name),
    fun name => (h.styles name).trans (h'.styles name),
    fun name => (h.categories name).trans (h'.categories name)⟩

/-! ## What is found -/

section Found

variable {ε ν : Type} [DecidableEq ν] (ev : Evaluator (Except ε) ν) (node : Option ν)
  {again : List Entry}

/-- **The same is retrieved** from stores with the same rules, if one has only entries more that the
other one has as well. -/
theorem retrieve_eq (h : SameRules s t) (hentries : t.entries = s.entries ++ again)
    (hagain : again ⊆ s.entries) : s.retrieve ev node = t.retrieve ev node := by
  rw [← s.retrieve_append_of_subset ev node hagain, retrieve, retrieve, hentries]
  simp only [atomOf, h.atoms]

/-- **The same is found** there. -/
theorem lookup_eq (h : SameRules s t) (hentries : t.entries = s.entries ++ again)
    (hagain : again ⊆ s.entries) (domain style : Option Text) :
    s.lookup ev node domain style = t.lookup ev node domain style := by
  cases node with
  | none => rfl
  | some node =>
    rw [lookup, lookup, h.retrieve_eq ev (some node) hentries hagain, h.defaultDomain,
      h.defaultStyle, answer_congr h.debug]

end Found

end SameRules

/-! ## Registrations of one key -/

section Registrations

variable (s : Store) (key category : Text) (p q r : Precondition)
  (first second : List (Text × Text × Action))

theorem atomFor_register : (s.register key category p first).atomFor key category
    = (s.atomFor key category).addAll first := by
  rw [atomFor]
  exact congrArg (Option.getD · _) (OrderedMap.get?_insert_self ..)

/-- The names that two registrations of a key add are those that one registration adds, if an atom
only gains names. -/
theorem GathersNames.mem_register_register {field : Store → List Text} {names : Atom → List Text}
    (h : GathersNames field names) (hgain : ∀ a placed, names a ⊆ names (a.addAll placed))
    (name : Text) :
    name ∈ field ((s.register key category p first).register key category q second)
      ↔ name ∈ field (s.register key category r (first ++ second)) := by
  rw [h.mem_register, h.mem_register, h.mem_register, atomFor_register, Atom.addAll_append,
    or_assoc, or_iff_right_of_imp fun hname => hgain _ second hname]

/-- **Two registrations of a key** come to one of the actions of both, but for the entries. -/
theorem sameRules_register_register :
    SameRules ((s.register key category p first).register key category q second)
      (s.register key category r (first ++ second)) where
  kind := rfl
  debug := rfl
  defaultDomain := rfl
  defaultStyle := rfl
  frozen := rfl
  atoms := by
    have htwice : ((s.register key category p first).register key category q second).atoms
        = (s.atoms.insert key ((s.atomFor key category).addAll first)).insert key
          (((s.register key category p first).atomFor key category).addAll second) := rfl
    rw [htwice, OrderedMap.insert_insert, atomFor_register, ← Atom.addAll_append]
    rfl
  domains := gathersNames_domains.mem_register_register s key category p q r first second
    Atom.domains_subset_addAll
  styles := gathersNames_styles.mem_register_register s key category p q r first second
    Atom.styles_subset_addAll
  categories := gathersNames_categories.mem_register_register s key category p q r first second
    fun a _ => List.Subset.refl (categoryNames a)

/-- **Actions that are registered one by one** come to the same as registered at once, but for the
entries. -/
theorem sameRules_registerAll (u : Text × Text × Action) (us : List (Text × Text × Action)) :
    SameRules (s.register key category p (u :: us))
      (s.registerAll ((u :: us).map (lone key category p))) := by
  -- from the end: the later ones come to one registration, which then joins the first one
  induction us generalizing s u with
  | nil => exact .refl _
  | cons v rest ih =>
    exact (s.sameRules_register_register key category p p p [u] (v :: rest)).symm.trans
      (ih (s.registerOne (lone key category p u)) v)

theorem entries_registerAll_lone (us : List (Text × Text × Action)) :
    (s.registerAll (us.map (lone key category p))).entries
      = s.entries ++ List.replicate us.length (p, key) := by
  have hentry : Registration.entry ∘ lone key category p = fun _ => (p, key) := rfl
  rw [entries_registerAll, List.map_map, hentry, List.map_const']

theorem entries_registerUsable (placed : List (Text × Text × Action)) :
    (s.registerUsable key category p placed).entries
      = s.entries ++ if !placed.isEmpty then [(p, key)] else [] := by
  cases placed with
  | nil => exact (List.append_nil s.entries).symm
  | cons u us => rfl

/-- **Registered one by one**, what can be used is there as registered at once, with the entry over
again. -/
theorem sameRules_registerUsable (placed : List (Text × Text × Action)) :
    SameRules (s.registerUsable key category p placed)
        (s.registerAll (placed.map (lone key category p)))
      ∧ ∃ again ⊆ (s.registerUsable key category p placed).entries,
        (s.registerAll (placed.map (lone key category p))).entries
          = (s.registerUsable key category p placed).entries ++ again := by
  rw [entries_registerAll_lone, entries_registerUsable]
  cases placed with
  | nil => exact ⟨.refl s, [], List.nil_subset _, (List.append_nil _).symm⟩
  | cons u us =>
    refine ⟨s.sameRules_registerAll key category p u us, List.replicate us.length (p, key),
      fun e he => ?_, ?_⟩
    · rw [List.eq_of_mem_replicate he]
      exact List.mem_append_right _ List.mem_cons_self
    · rw [List.append_assoc]
      rfl

end Registrations

/-! ## At once, or one by one -/

/-- **Rule texts are defined at once as they are one by one.**  Let a store that is not frozen be
given texts for several domains and styles, whatever these are called, for a key under a
precondition.  Then neither way is refused, and the two stores hold the same rules, in which every
evaluator finds the same, or fails in the same way, for every node, domain and style.  The texts are
taken at once exactly if one of them is taken alone, and those are named as dropped, in order, that
are not.  Of the entries, the precondition with the key is there once for all texts, or once for
each text that is taken. -/
theorem texts_at_once_as_one_by_one {s : Store} (hs : s.frozen = false) (key category : Text)
    (texts : Mappings Text) (query : Text) (constraints : List Text) :
    let entry : Entry := (⟨query, constraints⟩, key)
    ∃ atOnce answers oneByOne,
      s.defineMappings key category texts query constraints = .ok atOnce
        ∧ s.defineEach key category query constraints texts.triples = .ok (answers, oneByOne)
        ∧ SameRules atOnce.store oneByOne
        ∧ (∀ (ε ν : Type) [DecidableEq ν] (ev : Evaluator (Except ε) ν) (node : Option ν),
          atOnce.store.retrieve ev node = oneByOne.retrieve ev node
            ∧ ∀ domain style, atOnce.store.lookup ev node domain style
              = oneByOne.lookup ev node domain style)
        ∧ (atOnce.value.1 = true ↔ ∃ answer ∈ answers, answer.2 = true)
        ∧ atOnce.value.2 = (answers.filter fun answer => !answer.2).map Prod.fst
        ∧ atOnce.store.entries = s.entries ++ (if atOnce.value.1 then [entry] else [])
        ∧ oneByOne.entries = s.entries ++ List.replicate (answers.countP Prod.snd) entry := by
  intro entry
  obtain ⟨notices, hatOnce⟩ := exists_defineMappings_eq key category query constraints hs texts
  obtain ⟨hrules, again, hagain, hentries⟩ :=
    s.sameRules_registerUsable key category ⟨query, constraints⟩ (texts.triples.filterMap usable?)
  have hcount : (texts.triples.map fun t => (joinDomain t.1 t.2.1, (usable? t).isSome)).countP
      Prod.snd = (texts.triples.filterMap usable?).length := by
    rw [List.countP_map, List.length_filterMap_eq_countP]
    rfl
  refine ⟨_, _, _, hatOnce, defineEach_eq key category query constraints hs texts.triples, hrules,
    fun ε ν _ ev node => ⟨hrules.retrieve_eq ev node hentries hagain,
      hrules.lookup_eq ev node hentries hagain⟩, ?_, ?_, s.entries_registerUsable .., ?_⟩
  · rw [← List.countP_pos_iff, hcount, List.length_pos_iff, Bool.not_eq_true',
      List.isEmpty_eq_false_iff]
  · rw [List.filter_map, List.map_map]
    simp only [Function.comp_def, Option.not_isSome]
  · rw [entries_registerAll_lone, hcount]

/-- Five rule texts: two that can be used, the first of them in place of an action that is there;
one that cannot be read; and two for a pair that is not of names. -/
def mixedTexts : Mappings Text :=
  Mappings.setAll .empty
    [("default", "default", "[n] ./*[2]"), ("default", "short", brokenText),
      ("default", "", "[n] ."), ("maths", "brief", "[t] \"sub\""), ("maths.more", "brief", "[n] .")]

theorem texts_at_once_as_one_by_one_mixedTexts :
    subscriptStore.frozen = false
      ∧ ∃ atOnce answers oneByOne,
        subscriptStore.defineMappings "msub" "" mixedTexts "self::mi" [] = .ok atOnce
          ∧ subscriptStore.defineEach "msub" "" "self::mi" [] mixedTexts.triples
            = .ok (answers, oneByOne)
          ∧ SameRules atOnce.store oneByOne
          ∧ atOnce.value
            = (true, ["default.short".toList, "default.".toList, "maths.more.brief".toList])
          ∧ oneByOne.entries
            = atOnce.store.entries ++ ([({ query := "self::mi" }, "msub")] : List Entry) := by
  have hfrozen : subscriptStore.frozen = false := by decide +kernel
  obtain ⟨atOnce, answers, oneByOne, hatOnce, heach, hrules, -, htaken, hdropped, hentry,
    hentries⟩ := texts_at_once_as_one_by_one hfrozen "msub" "" mixedTexts "self::mi" []
  have hanswers :
      (subscriptStore.defineEach "msub" "" "self::mi" [] mixedTexts.triples).toOption.map Prod.fst
        = some [("default.default".toList, true), ("default.short".toList, false),
          ("default.".toList, false), ("maths.brief".toList, true),
          ("maths.more.brief".toList, false)] := by
    decide +kernel
  rw [heach] at hanswers
  obtain rfl := Option.some.inj hanswers
  have htaken' : atOnce.value.1 = true := htaken.mpr (by decide +kernel)
  refine ⟨hfrozen, atOnce, _, oneByOne, hatOnce, heach, hrules, Prod.ext htaken' hdropped, ?_⟩
  rw [hentries, hentry, htaken', List.append_assoc]
  rfl

end Store

end MathSpeech
