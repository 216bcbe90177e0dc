import MathSpeech.Atom
import Mathlib.Data.List.Basic

/-!
# Proofs/Store/Atom — an atom after additions

An atom is born with silence and only ever gains actions, so what it answers can be read off the
list of actions **placed** in it.  Main statements:

* `Mappings.find?_setAll` — a domain and style have the latest value written for them;
* `Atom.resolve_addAll_new` — every request is resolved, and `Atom.reply` is the action.
-/

namespace MathSpeech

open Rule (Action)

namespace Mappings

variable {α : Type}

/-! ## The latest value -/

/-- **The latest value** for a domain and style, among triples in the order in which they are
written. -/
def latest? (ts : List (Text × Text × α)) (domain style : Text) : Option α :=
  ts.reverse.findSome? fun t => if t.1 = domain ∧ t.2.1 = style then some t.2.2 else none

theorem latest?_cons (t : Text × Text × α) (ts : List (Text × Text × α)) (domain style : Text) :
    latest? (t :: ts) domain style = (latest? ts domain style).or
      (if t.1 = domain ∧ t.2.1 = style then some t.2.2 else none) := by
  rw [latest?, List.reverse_cons, List.findSome?_append, List.findSome?_singleton]
  rfl

theorem latest?_append (first second : List (Text × Text × α)) (domain style : Text) :
    latest? (first ++ second) domain style
      = (latest? second domain style).or (latest? first domain style) := by
  rw [latest?, List.reverse_append, List.findSome?_append]
  rfl

/-- A latest value was written for the domain and style. -/
theorem mem_of_latest? {ts : List (Text × Text × α)} {domain style : Text} {a : α}
    (h : latest? ts domain style = some a) : (domain, style, a) ∈ ts := by
  obtain ⟨t, ht, heq⟩ := List.exists_of_findSome?_eq_some h
  split at heq
  · rename_i hname
    cases heq
    rw [← hname.1, ← hname.2]
    exact List.mem_reverse.mp ht
  · cases heq

/-- A latest value was written for the domain. -/
theorem exists_mem_of_latest? {ts : List (Text × Text × α)} {domain style : Text} {a : α}
    (h : latest? ts domain style = some a) : ∃ t ∈ ts, t.1 = domain :=
  ⟨_, mem_of_latest? h, rfl⟩

/-! ## Reading after writing -/

/-- **A domain and style have the latest value written for them**, or else the old one. -/
theorem find?_setAll (m : Mappings α) (ts : List (Text × Text × α)) (domain style : Text) :
    (m.setAll ts).find? domain style = (latest? ts domain style).or (m.find? domain style) := by
  induction ts generalizing m with
  | nil => rfl
  | cons t rest ih =>
    have hstep : m.setAll (t :: rest) = (m.set t.1 t.2.1 t.2.2).setAll rest := rfl
    rw [hstep, ih, find?_set, latest?_cons, Option.or_assoc]
    split
    · rw [Option.some_or]
    · rw [Option.none_or]

theorem mem_keys_set {m : Mappings α} {domain style : Text} {a : α} {d : Text} :
    d ∈ OrderedMap.keys (m.set domain style a) ↔ d ∈ OrderedMap.keys m ∨ domain = d := by
  rw [set, OrderedMap.adjust, OrderedMap.keys_insert]
  split
  · rename_i h
    exact ⟨.inl, fun h' => h'.elim id fun e => e ▸ h⟩
  · simp [eq_comm]

/-- **The domains after writing**: those from before and those written. -/
theorem mem_keys_setAll {m : Mappings α} {ts : List (Text × Text × α)} {d : Text} :
    d ∈ OrderedMap.keys (m.setAll ts) ↔ d ∈ OrderedMap.keys m ∨ ∃ t ∈ ts, t.1 = d := by
  induction ts generalizing m with
  | nil => simp [setAll]
  | cons t rest ih =>
    have hstep : m.setAll (t :: rest) = (m.set t.1 t.2.1 t.2.2).setAll rest := rfl
    rw [hstep, ih, mem_keys_set, List.exists_mem_cons_iff, or_assoc]

end Mappings

namespace Atom

open Mappings (latest?)

/-! ## Additions -/

/-- Additions one after the other are one addition. -/
theorem addAll_append (a : Atom) (first second : List (Text × Text × Action)) :
    a.addAll (first ++ second) = (a.addAll first).addAll second := by
  simp only [addAll, Mappings.setAll, List.foldl_append]

theorem find?_addAll (a : Atom) (placed : List (Text × Text × Action)) (domain style : Text) :
    (a.addAll placed).mappings.find? domain style
      = (latest? placed domain style).or (a.mappings.find? domain style) :=
  Mappings.find?_setAll a.mappings placed domain style

/-- A new atom has one action, for the default domain and style. -/
theorem find?_new (key category domain style : Text) :
    (new key category).mappings.find? domain style
      = if domain = defaultName ∧ style = defaultName then some .silence else none := by
  rw [Mappings.find?, new, OrderedMap.get?_singleton]
  by_cases hd : defaultName = domain
  · rw [if_pos hd, Option.bind_some, OrderedMap.get?_singleton]
    simp only [hd.symm, true_and, eq_comm]
  · rw [if_neg hd, if_neg fun h => hd h.1.symm, Option.bind_none]

/-! ## Domains and styles -/

theorem mem_domains_addAll {a : Atom} {placed : List (Text × Text × Action)} {d : Text} :
    d ∈ (a.addAll placed).domains ↔ d ∈ a.domains ∨ ∃ t ∈ placed, t.1 = d :=
  Mappings.mem_keys_setAll

theorem mem_domains_new {key category d : Text} :
    d ∈ (new key category).domains ↔ d = defaultName := List.mem_singleton

theorem mem_union {first second : List Text} {t : Text} :
    t ∈ union first second ↔ t ∈ first ∨ t ∈ second := by
  simp only [union, List.mem_append, List.mem_filter, Bool.not_eq_true', List.contains_eq_mem,
    decide_eq_false_iff_not]
  by_cases h : t ∈ first <;> simp [h]

theorem mem_foldl_union {known : List Text} {all : List (OrderedMap Text Action)} {t : Text} :
    t ∈ all.foldl (fun known styles => union known styles.keys) known
      ↔ t ∈ known ∨ ∃ styles ∈ all, t ∈ styles.keys := by
  induction all generalizing known with
  | nil => simp
  | cons styles rest ih =>
    rw [List.foldl_cons, ih, mem_union, List.exists_mem_cons_iff, or_assoc]

/-- **A style of an atom** is one that some domain has an action for. -/
theorem mem_styles {a : Atom} {style : Text} :
    style ∈ a.styles ↔ ∃ domain action, a.mappings.find? domain style = some action := by
  rw [styles, mem_foldl_union]
  constructor
  · rintro (h | ⟨styles, hmem, hstyle⟩)
    · cases h
    · obtain ⟨domain, hdomain⟩ := OrderedMap.mem_values.mp hmem
      obtain ⟨action, haction⟩ := OrderedMap.mem_keys.mp hstyle
      exact ⟨domain, action, Option.bind_eq_some_iff.mpr ⟨styles, hdomain, haction⟩⟩
  · rintro ⟨domain, action, h⟩
    obtain ⟨styles, hdomain, haction⟩ := Option.bind_eq_some_iff.mp h
    exact .inr ⟨styles, OrderedMap.mem_values.mpr ⟨domain, hdomain⟩,
      OrderedMap.mem_keys.mpr ⟨action, haction⟩⟩

theorem domains_subset_addAll (a : Atom) (placed : List (Text × Text × Action)) :
    a.domains ⊆ (a.addAll placed).domains := fun _ h => mem_domains_addAll.mpr (.inl h)

theorem styles_subset_addAll (a : Atom) (placed : List (Text × Text × Action)) :
    a.styles ⊆ (a.addAll placed).styles := by
  intro style h
  obtain ⟨domain, action, hfind⟩ := mem_styles.mp h
  refine mem_styles.mpr ⟨domain, (latest? placed domain style).getD action, ?_⟩
  rw [find?_addAll, hfind]
  cases latest? placed domain style <;> rfl

/-! ## Requests -/

/-- **The reply to a request**, read off the actions placed: the latest for the domain and style;
or, if none was placed in the domain, the latest for that style in the default domain; or the
latest for the default domain and style; or silence. -/
def reply (placed : List (Text × Text × Action)) (domain style : Text) : Action :=
  match latest? placed domain style with
  | some action => action
  | none =>
    let fallback := (latest? placed defaultName defaultName).getD .silence
    if domain ≠ defaultName ∧ ∀ t ∈ placed, t.1 ≠ domain then
      (latest? placed defaultName style).getD fallback
    else fallback

/-- A request is resolved in the domain asked for, if it is known, and else in the default one. -/
theorem resolve?_eq (a : Atom) (domain style : Text) :
    a.resolve? domain style = (if domain ∈ a.domains then a.mappings.find? domain style
      else a.mappings.find? defaultName style).or (a.mappings.find? defaultName defaultName) := by
  have hdefault : ∀ s, ((OrderedMap.get? a.mappings defaultName).getD .empty).get? s
      = a.mappings.find? defaultName s := fun s => by
    rw [Mappings.find?]
    cases OrderedMap.get? a.mappings defaultName <;> rfl
  have hknown : domain ∈ a.domains ↔ (OrderedMap.get? a.mappings domain).isSome :=
    (OrderedMap.contains_iff ..).symm
  have hfind : a.mappings.find? domain style
      = (OrderedMap.get? a.mappings domain).bind fun styles => styles.get? style := rfl
  simp only [resolve?, hdefault, hknown, hfind]
  cases OrderedMap.get? a.mappings domain <;> rfl

theorem find?_addAll_new (key category : Text) (placed : List (Text × Text × Action))
    (domain style : Text) :
    ((new key category).addAll placed).mappings.find? domain style
      = (latest? placed domain style).or
        (if domain = defaultName ∧ style = defaultName then some .silence else none) := by
  rw [find?_addAll, find?_new]

theorem mem_domains_addAll_new {key category : Text} {placed : List (Text × Text × Action)}
    {domain : Text} : domain ∈ ((new key category).addAll placed).domains
      ↔ domain = defaultName ∨ ∃ t ∈ placed, t.1 = domain := by
  rw [mem_domains_addAll, mem_domains_new]

/-- **Every request is resolved** by an atom that was born with silence, whatever was placed in
it. -/
theorem resolve_addAll_new (key category : Text) (placed : List (Text × Text × Action))
    (domain style : Text) :
    ((new key category).addAll placed).resolve domain style = .ok (reply placed domain style) := by
  suffices ((new key category).addAll placed).resolve? domain style
      = some (reply placed domain style) by rw [resolve, this]
  simp only [resolve?_eq, mem_domains_addAll_new, find?_addAll_new, reply]
  cases hlatest : latest? placed domain style with
  | some action =>
    rw [if_pos (.inr (Mappings.exists_mem_of_latest? hlatest))]
    rfl
  | none =>
    have hnew : (domain ≠ defaultName ∧ ∀ t ∈ placed, t.1 ≠ domain)
        ↔ ¬(domain = defaultName ∨ ∃ t ∈ placed, t.1 = domain) := by
      simp only [not_or, not_exists, not_and, ne_eq]
    simp only [hnew, Option.none_or]
    by_cases hknown : domain = defaultName ∨ ∃ t ∈ placed, t.1 = domain
    · -- a known domain without the style goes straight to the defaults
      rw [if_pos hknown, if_neg (not_not_intro hknown)]
      by_cases hboth : domain = defaultName ∧ style = defaultName
      · obtain ⟨rfl, rfl⟩ := hboth
        rw [hlatest, if_pos ⟨rfl, rfl⟩]
        rfl
      · rw [if_neg hboth, Option.none_or]
        cases latest? placed defaultName defaultName <;> rfl
    · rw [if_neg hknown, if_pos hknown]
      by_cases hstyle : style = defaultName
      · subst hstyle
        cases latest? placed defaultName defaultName <;> rfl
      · rw [if_neg fun h => hstyle h.2]
        cases latest? placed defaultName style <;>
          cases latest? placed defaultName defaultName <;> rfl

end Atom

end MathSpeech
