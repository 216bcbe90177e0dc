import MathSpeech.Proofs.Selection.Ranking
import MathSpeech.Proofs.XPath.ElementQuery
import MathSpeech.Store.Lookup

/-!
# Proofs/XPath/Coverage — a store that covers the elements it is about

Suppose every precondition of a store is about the elements of one name, some precondition about
each of these names has no constraints, and every key has an atom that always has something to say.
Such a store **covers** the elements of these names (`Store.Covers`): at each of them some
precondition fits, whatever the constraints of the others give, and no precondition fits anywhere
else.  So a lookup has an action at just these elements, and an action with components.
-/

namespace MathSpeech

open XPath (Address Name Setting)

/-- **An atom that always has something to say.** -/
def Atom.IsSpoken (a : Atom) : Prop :=
  ∀ domain style, ∃ action, a.resolve domain style = .ok action ∧ action.components ≠ []

namespace Store

/-- **A store that covers the elements it is about.** -/
structure Covers (s : Store) : Prop where
  about : ∀ e ∈ s.entries, ∃ n, XPath.IsAbout e.1 n
  /-- Where a precondition is about a name, one without constraints is. -/
  plain : ∀ e ∈ s.entries, ∃ e' ∈ s.entries, e'.1.query = e.1.query ∧ e'.1.constraints = []
  spoken : ∀ e ∈ s.entries, ∃ atom, s.atoms.get? e.2 = some atom ∧ atom.key = e.2 ∧ atom.IsSpoken

/-- **The elements that a store is about**, where the prefix of the queries stands for `space`. -/
def IsAbout (s : Store) (space : Text) (name : Name) : Prop :=
  name.space = space ∧ ∃ e ∈ s.entries, e.1.query = elementQuery name.label

namespace Covers

variable {s : Store} {setting : Setting} {address : Address} {name : Name} {space : Text}

/-- **The verdicts at an element** are favourable only for preconditions about its name, and always
for those of them without constraints. -/
theorem exists_verdicts (hs : s.Covers) (h : setting.environment.document.HasElement address name)
    (hspace : setting.Binds "mathml" space)
    (hcustom : ∀ n, setting.custom.lookup (elementQuery n) = none) :
    ∃ verdict : Entry → Bool,
      (∀ e ∈ s.entries,
        Selection.test setting.evaluator (some (.node address)) e.1 = .ok (verdict e))
      ∧ (∀ e ∈ s.entries, verdict e = true →
        name.space = space ∧ e.1.query = elementQuery name.label)
      ∧ ∀ e ∈ s.entries, name.space = space → e.1.query = elementQuery name.label →
        e.1.constraints = [] → verdict e = true := by
  have hone : ∀ e ∈ s.entries, ∃ verdict,
      Selection.test setting.evaluator (some (.node address)) e.1 = .ok verdict
        ∧ (verdict = true → name.space = space ∧ e.1.query = elementQuery name.label)
        ∧ (name.space = space → e.1.query = elementQuery name.label → e.1.constraints = [] →
          verdict = true) := by
    intro e he
    obtain ⟨n, hn⟩ := hs.about e he
    obtain ⟨verdict, htest, hsound, hcomplete⟩ := Setting.exists_verdict h hspace hn (hcustom n)
    rw [Name.isOf_iff, ← hn.query] at hsound hcomplete
    exact ⟨verdict, htest, hsound, fun hname hquery => hcomplete ⟨hname, hquery⟩⟩
  let verdict (e : Entry) : Bool :=
    (Selection.test setting.evaluator (some (.node address)) e.1).toOption.getD false
  have hverdict : ∀ e ∈ s.entries,
      Selection.test setting.evaluator (some (.node address)) e.1 = .ok (verdict e) := by
    intro e he
    obtain ⟨holds, htest, -⟩ := hone e he
    simp only [verdict, htest]
    rfl
  refine ⟨verdict, hverdict, fun e he => ?_, fun e he => ?_⟩
  · obtain ⟨holds, htest, hsound, -⟩ := hone e he
    rwa [← Except.ok.inj (htest.symm.trans (hverdict e he))]
  · obtain ⟨holds, htest, -, hcomplete⟩ := hone e he
    rwa [← Except.ok.inj (htest.symm.trans (hverdict e he))]

/-- **At an element an atom is retrieved exactly if the store is about it.**  The atom always has
something to say, and its key has a precondition about elements of this name. -/
theorem exists_retrieve (hs : s.Covers) (h : setting.environment.document.HasElement address name)
    (hspace : setting.Binds "mathml" space)
    (hcustom : ∀ n, setting.custom.lookup (elementQuery n) = none) :
    ∃ atom : Option Atom, s.retrieve setting.evaluator (some (.node address)) = .ok atom
      ∧ (atom.isSome = true ↔ s.IsAbout space name)
      ∧ ∀ a ∈ atom, a.IsSpoken
        ∧ ∃ p ∈ s.preconditionsFor a.key, p.query = elementQuery name.label := by
  obtain ⟨verdict, hverdict, hsound, hcomplete⟩ := hs.exists_verdicts h hspace hcustom
  have hselect := Selection.select_eq_of_verdicts hverdict
  rw [retrieve, hselect]
  cases hbest : Selection.mostConstrained (s.entries.filter verdict) with
  | none =>
    refine ⟨none, rfl, iff_of_false nofun ?_, nofun⟩
    rintro ⟨hname, e, he, hquery⟩
    obtain ⟨e', he', hquery', hplain⟩ := hs.plain e he
    have hfits : verdict e' = true := hcomplete e' he' hname (hquery'.trans hquery) hplain
    have hnone := Selection.mostConstrained_eq_none_iff.mp hbest
    exact List.not_mem_nil (hnone ▸ List.mem_filter.mpr ⟨he', hfits⟩)
  | some best =>
    obtain ⟨hmem, hfits⟩ := List.mem_filter.mp (Selection.mem_of_mostConstrained hbest)
    obtain ⟨hname, hquery⟩ := hsound best hmem hfits
    obtain ⟨atom, hatom, hkey, hspoken⟩ := hs.spoken best hmem
    refine ⟨some atom, congrArg Except.ok hatom, iff_of_true rfl ⟨hname, best, hmem, hquery⟩, ?_⟩
    rintro a ⟨⟩
    refine ⟨hspoken, best.1, ?_, hquery⟩
    rw [preconditionsFor, hkey]
    exact List.mem_map_of_mem (List.mem_filter.mpr ⟨hmem, decide_eq_true rfl⟩)

/-- **A lookup at an element** has an action with components if the store is about it, and none
otherwise, whatever domain and style are asked for. -/
theorem exists_lookup (hs : s.Covers) (h : setting.environment.document.HasElement address name)
    (hspace : setting.Binds "mathml" space)
    (hcustom : ∀ n, setting.custom.lookup (elementQuery n) = none) (domain style : Option Text) :
    ∃ found, s.lookup setting.evaluator (some (.node address)) domain style = .ok found
      ∧ (s.IsAbout space name → ∃ action, found.action = .ok (some action)
        ∧ action.components ≠ [])
      ∧ (¬s.IsAbout space name → found.action = .ok none) := by
  obtain ⟨atom, hretrieve, habout, hatom⟩ := hs.exists_retrieve h hspace hcustom
  rw [lookup, hretrieve]
  refine ⟨_, rfl, fun hname => ?_, fun hname => ?_⟩
  · obtain ⟨a, rfl⟩ := Option.isSome_iff_exists.mp (habout.mpr hname)
    obtain ⟨action, haction, hcomponents⟩ := (hatom a rfl).1 (orDefault s.defaultDomain domain)
      (orDefault s.defaultStyle style)
    exact ⟨action, congrArg (Except.map some) haction, hcomponents⟩
  · cases atom with
    | none => rfl
    | some a => exact absurd (habout.mp rfl) hname

end Covers

end Store

end MathSpeech
