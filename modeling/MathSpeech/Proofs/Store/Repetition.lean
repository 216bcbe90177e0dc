import MathSpeech.Proofs.Selection.Fit
import MathSpeech.Proofs.Store.Consistent
import MathSpeech.Store.Lookup

/-!
# Proofs/Store/Repetition — registering the same once more

Registering a list of registrations again, right after the first time, adds the entries once more
and changes nothing else (`registerAll_registerAll`).  Two facts carry this.  The atom of a key has,
for each domain and style, the latest action placed, whether the actions were placed once or twice.
And after the first time the store **knows** every registration of the list: its key has an atom
with an action for each pair that the registration places, and all names are gathered, so that
nothing new is gathered on the way through the list.  A selection is not changed by entries that
are there already, hence neither is a lookup.
-/

namespace MathSpeech

open Rule (Action)

/-! ## Mappings that are written twice -/

namespace Mappings

variable {α : Type}

theorem find?_outline (m : Mappings α) (domain : Text) :
    OrderedMap.find? domain m.outline = (OrderedMap.get? m domain).map OrderedMap.keys :=
  OrderedMap.find?_map (fun _ => OrderedMap.keys) domain m.entries

/-- Mappings are known by their outline and the values in it. -/
theorem ext_outline {m n : Mappings α} (houtline : m.outline = n.outline)
    (hfind : ∀ domain style, m.find? domain style = n.find? domain style) : m = n := by
  have hkeys : OrderedMap.keys m = OrderedMap.keys n := by
    have h := congrArg (List.map Prod.fst) houtline
    rwa [outline, outline, List.map_map, List.map_map] at h
  refine OrderedMap.ext_get? hkeys fun domain => ?_
  have hstyles : (OrderedMap.get? m domain).map OrderedMap.keys
      = (OrderedMap.get? n domain).map OrderedMap.keys := by
    rw [← find?_outline, ← find?_outline, houtline]
  have hvalues := hfind domain
  simp only [find?] at hvalues
  cases hm : OrderedMap.get? m domain with
  | none =>
    rw [hm] at hstyles
    exact (Option.map_eq_none_iff.mp hstyles.symm).symm
  | some styles =>
    cases hn : OrderedMap.get? n domain with
    | none =>
      rw [hm, hn] at hstyles
      cases hstyles
    | some styles' =>
      rw [hm, hn] at hstyles hvalues
      exact congrArg some (OrderedMap.ext_get? (Option.some.inj hstyles) hvalues)

/-- A pair that has a value keeps its place when it is written. -/
theorem outline_set {m : Mappings α} {domain style : Text}
    (h : (m.find? domain style).isSome) (a : α) : (m.set domain style a).outline = m.outline := by
  obtain ⟨old, hold⟩ := Option.isSome_iff_exists.mp h
  obtain ⟨styles, hdomain, hstyle⟩ := Option.bind_eq_some_iff.mp hold
  have hkeys : (styles.insert style a).keys = styles.keys := by
    rw [OrderedMap.keys_insert, if_pos (OrderedMap.mem_keys.mpr ⟨old, hstyle⟩)]
  have hset : (m.set domain style a).outline
      = OrderedMap.put domain (styles.insert style a).keys m.outline := by
    rw [set, OrderedMap.adjust, hdomain, Option.getD_some]
    exact OrderedMap.map_put (fun _ => OrderedMap.keys) domain _ m.entries
  rw [hset, hkeys, OrderedMap.put_of_find?]
  rw [find?_outline, hdomain, Option.map_some]

theorem outline_setAll {m : Mappings α} {ts : List (Text × Text × α)}
    (h : ∀ t ∈ ts, (m.find? t.1 t.2.1).isSome) : (m.setAll ts).outline = m.outline := by
  induction ts generalizing m with
  | nil => rfl
  | cons t rest ih =>
    have hstep : m.setAll (t :: rest) = (m.set t.1 t.2.1 t.2.2).setAll rest := rfl
    have hrest : ∀ u ∈ rest, ((m.set t.1 t.2.1 t.2.2).find? u.1 u.2.1).isSome := fun u hu => by
      rw [find?_set]
      split
      · rfl
      · exact h u (List.mem_cons_of_mem t hu)
    rw [hstep, ih hrest, outline_set (h t List.mem_cons_self)]

theorem isSome_latest? {ts : List (Text × Text × α)} {t : Text × Text × α} (h : t ∈ ts) :
    (latest? ts t.1 t.2.1).isSome := by
  rw [latest?, List.findSome?_isSome_iff]
  exact ⟨t, List.mem_reverse.mpr h, by rw [if_pos ⟨rfl, rfl⟩]; rfl⟩

/-- **Writing the same once more changes nothing**, even if what is written overwrites itself. -/
theorem setAll_setAll (m : Mappings α) (ts : List (Text × Text × α)) :
    (m.setAll ts).setAll ts = m.setAll ts := by
  refine ext_outline (outline_setAll fun t ht => ?_) fun domain style => ?_
  · rw [find?_setAll, Option.isSome_or, isSome_latest? ht, Bool.true_or]
  · rw [find?_setAll, find?_setAll]
    cases latest? ts domain style <;> rfl

end Mappings

namespace Atom

open Mappings (latest?)

theorem addAll_addAll (a : Atom) (placed : List (Text × Text × Action)) :
    (a.addAll placed).addAll placed = a.addAll placed := by
  simp only [addAll, Mappings.setAll_setAll]

/-- An action for a domain and style stays there, or is replaced. -/
theorem isSome_find?_addAll {a : Atom} {domain style : Text}
    (h : (a.mappings.find? domain style).isSome) (placed : List (Text × Text × Action)) :
    ((a.addAll placed).mappings.find? domain style).isSome := by
  rw [find?_addAll, Option.isSome_or, h, Bool.or_true]

variable {a : Atom} {placed : List (Text × Text × Action)}

/-- Actions for pairs that the atom has already bring no new domain. -/
theorem domains_addAll_subset (h : ∀ t ∈ placed, (a.mappings.find? t.1 t.2.1).isSome) :
    (a.addAll placed).domains ⊆ a.domains := by
  intro d hd
  obtain hd | ⟨t, ht, rfl⟩ := mem_domains_addAll.mp hd
  · exact hd
  · obtain ⟨action, haction⟩ := Option.isSome_iff_exists.mp (h t ht)
    obtain ⟨styles, hdomain, -⟩ := Option.bind_eq_some_iff.mp haction
    exact OrderedMap.mem_keys.mpr ⟨styles, hdomain⟩

/-- Actions for pairs that the atom has already bring no new style. -/
theorem styles_addAll_subset (h : ∀ t ∈ placed, (a.mappings.find? t.1 t.2.1).isSome) :
    (a.addAll placed).styles ⊆ a.styles := by
  intro style hstyle
  obtain ⟨domain, action, haction⟩ := mem_styles.mp hstyle
  rw [find?_addAll] at haction
  refine mem_styles.mpr ⟨domain, Option.isSome_iff_exists.mp ?_⟩
  cases hlatest : latest? placed domain style with
  | none =>
    rw [hlatest, Option.none_or] at haction
    rw [haction, Option.isSome_some]
  | some _ =>
    obtain ⟨t, ht, heq⟩ := List.exists_of_findSome?_eq_some hlatest
    split at heq
    · rename_i hname
      rw [← hname.1, ← hname.2]
      exact h t (List.mem_reverse.mp ht)
    · cases heq

end Atom

namespace Store

/-! ## What a store knows -/

/-- **A store knows a registration**: its key has an atom, with an action wherever the registration
places one, and the names of the atom are gathered. -/
structure Knows (s : Store) (r : Registration) (atom : Atom) : Prop where
  get?_key : s.atoms.get? r.key = some atom
  placed : ∀ t ∈ r.placed, (atom.mappings.find? t.1 t.2.1).isSome
  domains : atom.domains ⊆ s.domains
  styles : atom.styles ⊆ s.styles
  categories : categoryNames atom ⊆ s.categories

theorem subset_appendUnique_left {known names : List Text} (h : names ⊆ known) (ts : List Text) :
    names ⊆ appendUnique known ts := fun _ ht => mem_appendUnique.mpr (.inl (h ht))

theorem subset_appendUnique_right (known ts : List Text) : ts ⊆ appendUnique known ts :=
  fun _ h => mem_appendUnique.mpr (.inr h)

theorem appendUnique_of_subset {known ts : List Text} (h : ts ⊆ known) :
    appendUnique known ts = known := by
  induction ts with
  | nil => rfl
  | cons t rest ih =>
    rw [appendUnique_cons_of_mem (h List.mem_cons_self)]
    exact ih fun u hu => h (List.mem_cons_of_mem t hu)

theorem knows_registerOne (s : Store) (r : Registration) :
    Knows (s.registerOne r) r ((s.atomFor r.key r.category).addAll r.placed) where
  get?_key := OrderedMap.get?_insert_self ..
  placed t ht := by
    rw [Atom.find?_addAll, Option.isSome_or, Mappings.isSome_latest? ht, Bool.true_or]
  domains := subset_appendUnique_right ..
  styles := subset_appendUnique_right ..
  categories := by
    rw [registerOne, categories_register]
    exact subset_appendUnique_right ..

/-- **What a store knows it does not forget** by another registration. -/
theorem Knows.exists_registerOne {s : Store} {r : Registration} {atom : Atom} (h : Knows s r atom)
    (r' : Registration) : ∃ atom', Knows (s.registerOne r') r atom' := by
  by_cases hkey : r'.key = r.key
  · have hatom : s.atomFor r'.key r'.category = atom := by
      rw [atomFor, hkey, h.get?_key, Option.getD_some]
    have hnew := knows_registerOne s r'
    rw [hatom] at hnew
    exact ⟨_, hkey ▸ hnew.get?_key, fun t ht => Atom.isSome_find?_addAll (h.placed t ht) _,
      hnew.domains, hnew.styles, hnew.categories⟩
  · refine ⟨atom, (OrderedMap.get?_insert ..).trans ((if_neg hkey).trans h.get?_key), h.placed,
      subset_appendUnique_left h.domains _, subset_appendUnique_left h.styles _, ?_⟩
    rw [registerOne, categories_register]
    exact subset_appendUnique_left h.categories _

theorem Knows.exists_registerAll {s : Store} {r : Registration} {atom : Atom} (h : Knows s r atom)
    (rs : List Registration) : ∃ atom', Knows (s.registerAll rs) r atom' := by
  induction rs generalizing s atom with
  | nil => exact ⟨atom, h⟩
  | cons r' rest ih =>
    obtain ⟨atom', h'⟩ := h.exists_registerOne r'
    exact ih h'

/-- **After registrations the store knows them all.** -/
theorem exists_knows_registerAll {rs : List Registration} {r : Registration} (hr : r ∈ rs)
    (s : Store) : ∃ atom, Knows (s.registerAll rs) r atom := by
  induction rs generalizing s with
  | nil => cases hr
  | cons r' rest ih =>
    obtain rfl | hr := List.mem_cons.mp hr
    · exact (knows_registerOne s r).exists_registerAll rest
    · exact ih hr (s.registerOne r')

/-! ## Registering what is known -/

/-- **Registering what is known** gathers nothing new. -/
theorem Knows.registerOne_eq {s : Store} {r : Registration} {atom : Atom} (h : Knows s r atom) :
    s.registerOne r = { s with
      atoms := s.atoms.insert r.key (atom.addAll r.placed)
      entries := s.entries ++ [r.entry] } := by
  have hatom : s.atomFor r.key r.category = atom := by
    rw [atomFor, h.get?_key, Option.getD_some]
  have hdomains : appendUnique s.domains (atom.addAll r.placed).domains = s.domains :=
    appendUnique_of_subset (List.Subset.trans (Atom.domains_addAll_subset h.placed) h.domains)
  have hstyles : appendUnique s.styles (atom.addAll r.placed).styles = s.styles :=
    appendUnique_of_subset (List.Subset.trans (Atom.styles_addAll_subset h.placed) h.styles)
  have hcategories : (s.registerOne r).categories = s.categories := by
    rw [registerOne, categories_register, hatom]
    exact appendUnique_of_subset h.categories
  have hregister : s.registerOne r = { s with
      atoms := s.atoms.insert r.key ((s.atomFor r.key r.category).addAll r.placed)
      entries := s.entries ++ [r.entry]
      domains := appendUnique s.domains ((s.atomFor r.key r.category).addAll r.placed).domains
      styles := appendUnique s.styles ((s.atomFor r.key r.category).addAll r.placed).styles
      categories := (s.registerOne r).categories } := rfl
  rw [hregister, hcategories, hatom, hdomains, hstyles]

/-- Registering what is known changes only the actions in the atoms, and adds entries. -/
theorem exists_registerAll_eq {s : Store} {rs : List Registration}
    (h : ∀ r ∈ rs, ∃ atom, Knows s r atom) :
    ∃ atoms : OrderedMap Text Atom, atoms.keys = s.atoms.keys
      ∧ s.registerAll rs
        = { s with atoms, entries := s.entries ++ rs.map Registration.entry } := by
  induction rs generalizing s with
  | nil => exact ⟨s.atoms, rfl, by rw [List.map_nil, List.append_nil]; rfl⟩
  | cons r rest ih =>
    obtain ⟨atom, hr⟩ := h r List.mem_cons_self
    obtain ⟨atoms, hkeys, hrest⟩ := ih fun r' hr' =>
      (h r' (List.mem_cons_of_mem r hr')).elim fun _ h' => h'.exists_registerOne r
    have hknown : r.key ∈ s.atoms.keys := OrderedMap.mem_keys.mpr ⟨atom, hr.get?_key⟩
    refine ⟨atoms, ?_, ?_⟩
    · rw [hkeys, hr.registerOne_eq, OrderedMap.keys_insert, if_pos hknown]
    · rw [registerAll_cons, hrest, hr.registerOne_eq, List.map_cons, List.append_assoc]
      rfl

/-! ## The atoms -/

/-- **The atom that registrations add to** under a key: the one that is there, or else the one that
the first registration of the key makes. -/
def founder? (s : Store) (rs : List Registration) (key : Text) : Option Atom :=
  (s.atoms.get? key).or ((rs.find? (·.key = key)).map fun first => Atom.new key first.category)

theorem exists_founder? (s : Store) {rs : List Registration} {r : Registration} (hr : r ∈ rs) :
    ∃ founder, s.founder? rs r.key = some founder := by
  have hfind : (rs.find? (·.key = r.key)).isSome :=
    List.find?_isSome.mpr ⟨r, hr, decide_eq_true rfl⟩
  rw [← Option.isSome_iff_exists, founder?, Option.isSome_or, Option.isSome_map, hfind,
    Bool.or_true]

/-- **The atom of a key after registrations** has gained all actions placed under the key. -/
theorem get?_atoms_registerAll (s : Store) (rs : List Registration) (key : Text) :
    (s.registerAll rs).atoms.get? key
      = (s.founder? rs key).map fun a => a.addAll (placedUnder rs key) := by
  induction rs generalizing s with
  | nil =>
    rw [founder?, List.find?_nil, Option.map_none, Option.or_none]
    exact Option.map_id'.symm
  | cons r rest ih =>
    have hget : (s.registerOne r).atoms.get? key = if r.key = key then
        some ((s.atomFor r.key r.category).addAll r.placed) else s.atoms.get? key :=
      OrderedMap.get?_insert ..
    rw [registerAll_cons, ih, founder?, founder?, hget, List.find?_cons]
    by_cases hkey : r.key = key
    · subst hkey
      have hplaced : placedUnder (r :: rest) r.key = r.placed ++ placedUnder rest r.key := by
        simp [placedUnder]
      rw [if_pos rfl, hplaced, Option.some_or, Option.map_some, atomFor]
      cases s.atoms.get? r.key <;> simp [Atom.addAll_append]
    · have hplaced : placedUnder (r :: rest) key = placedUnder rest key := by
        simp [placedUnder, hkey]
      rw [if_neg hkey, hplaced, decide_eq_false hkey]

/-- **Registering the same once more leaves every atom as it is.** -/
theorem get?_atoms_registerAll_registerAll (s : Store) (rs : List Registration) (key : Text) :
    ((s.registerAll rs).registerAll rs).atoms.get? key = (s.registerAll rs).atoms.get? key := by
  have hfounder : (s.registerAll rs).founder? rs key = (s.registerAll rs).atoms.get? key := by
    rw [founder?, get?_atoms_registerAll]
    cases hs : s.founder? rs key with
    | some a => rfl
    | none => rw [(Option.or_eq_none_iff.mp hs).2]; rfl
  rw [get?_atoms_registerAll, hfounder, get?_atoms_registerAll, Option.map_map]
  exact congrArg (fun f => (s.founder? rs key).map f) (funext fun a => a.addAll_addAll _)

/-! ## Once more -/

/-- **Registering the same once more** adds the entries once more, and changes nothing else. -/
theorem registerAll_registerAll (s : Store) (rs : List Registration) :
    (s.registerAll rs).registerAll rs = { s.registerAll rs with
      entries := (s.registerAll rs).entries ++ rs.map Registration.entry } := by
  have hknown : ∀ r ∈ rs, ∃ atom, Knows (s.registerAll rs) r atom :=
    fun r hr => exists_knows_registerAll hr s
  obtain ⟨atoms, hkeys, hagain⟩ := exists_registerAll_eq hknown
  have hatoms : atoms = (s.registerAll rs).atoms := by
    refine OrderedMap.ext_get? hkeys fun key => ?_
    rw [← get?_atoms_registerAll_registerAll s rs key, hagain]
  rw [hagain, hatoms]

/-- Registrations do not look at the entries. -/
theorem registerAll_entries (s : Store) (entries : List Entry) (rs : List Registration) :
    ({ s with entries } : Store).registerAll rs
      = { s.registerAll rs with entries := entries ++ rs.map Registration.entry } := by
  induction rs generalizing s entries with
  | nil => rw [List.map_nil, List.append_nil]; rfl
  | cons r rest ih =>
    have hone : ({ s with entries } : Store).registerOne r
        = { s.registerOne r with entries := entries ++ [r.entry] } := rfl
    rw [registerAll_cons, hone, ih, List.append_assoc]
    rfl

/-! ## What is found -/

section Found

variable {ε ν : Type} [DecidableEq ν] (ev : Evaluator (Except ε) ν) (node : Option ν) {s : Store}
  {again : List Entry}

/-- **Entries that are there already change nothing that is retrieved**, whether the evaluator gives
an answer or fails. -/
theorem retrieve_append_of_subset (h : again ⊆ s.entries) :
    ({ s with entries := s.entries ++ again } : Store).retrieve ev node = s.retrieve ev node := by
  rw [retrieve, retrieve, Selection.select_append_of_subset ev node h]
  rfl

theorem lookup_append_of_subset (h : again ⊆ s.entries) (domain style : Option Text) :
    ({ s with entries := s.entries ++ again } : Store).lookup ev node domain style
      = s.lookup ev node domain style := by
  cases node with
  | none => rfl
  | some node =>
    rw [lookup, lookup, retrieve_append_of_subset ev (some node) h]
    rfl

end Found

end Store

end MathSpeech
