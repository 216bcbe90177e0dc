import MathSpeech.Proofs.Rule.Canonical
import MathSpeech.Proofs.Rule.Composition

/-!
# Proofs/Rule/RoundTrip — reading accepts exactly what writing produces

An action is canonical if its components are.  The written form of such an action is cut apart at
the semicolons that were put between its components, and at no other; and what is cut from any text
has its strings closed, so that only canonical components are read.  Hence

* `parse_print_of_parse` — what is read from any text is read again from its own written form;
* `exists_parse_iff_canonical` — the canonical actions are those that some text says, and those that
  their own written form says.
-/

namespace MathSpeech.Rule

variable {t : Text} {a : Action}

/-! ## Reading a list of components -/

section Lists

variable {α β ε : Type} {f : α → Except ε β}

/-- What is read from a list is read from its members. -/
theorem exists_of_mapM_eq_ok {ts : List α} {cs : List β} (h : ts.mapM f = .ok cs) :
    ∀ c ∈ cs, ∃ t ∈ ts, f t = .ok c := by
  induction ts generalizing cs with
  | nil =>
    obtain rfl := Except.ok.inj h
    exact fun c hc => absurd hc List.not_mem_nil
  | cons t ts ih =>
    rw [List.mapM_cons] at h
    cases ht : f t with
    | error e => rw [ht] at h; exact nomatch h
    | ok c =>
      cases hts : ts.mapM f with
      | error e => rw [ht, hts] at h; exact nomatch h
      | ok rest =>
        rw [ht, hts] at h
        obtain rfl := Except.ok.inj h
        intro d hd
        rcases List.mem_cons.mp hd with rfl | hd
        · exact ⟨t, List.mem_cons_self, ht⟩
        · obtain ⟨u, hu, hfu⟩ := ih hts d hd
          exact ⟨u, List.mem_cons_of_mem t hu, hfu⟩

/-- Members that are read back make a list that is read back. -/
theorem mapM_map_eq_ok {g : β → α} {cs : List β} (h : ∀ c ∈ cs, f (g c) = .ok c) :
    (cs.map g).mapM f = .ok cs := by
  induction cs with
  | nil => rfl
  | cons c cs ih =>
    rw [List.map_cons, List.mapM_cons, h c List.mem_cons_self,
      ih fun d hd => h d (List.mem_cons_of_mem c hd)]
    rfl

end Lists

namespace Action

/-- **A canonical action**: one whose components are canonical. -/
def Canonical (a : Action) : Prop := ∀ c ∈ a.components, c.Canonical

/-! ## Segments -/

/-- **A segment** of a text has its strings closed, and they hide its semicolons. -/
theorem of_mem_segments {ts : List Text} (h : segments t = .ok ts) :
    ∀ s ∈ ts, Balanced s ∧ Clear ';' s := by
  intro s hs
  rw [segments_eq] at h
  split at h
  case isFalse => exact nomatch h
  case isTrue hbal =>
    obtain rfl := Except.ok.inj h
    obtain ⟨p, hp, rfl⟩ := List.mem_map.mp (List.mem_filter.mp hs).1
    obtain ⟨hclear, hpbal, -⟩ := of_mem_cuts (by decide) t p hp
    exact ⟨balanced_trim_iff.mpr (hpbal hbal), hclear.trim⟩

/-- **The segments of a written action** are its written components. -/
theorem segments_print (h : a.Canonical) :
    segments a.print = .ok (a.components.map Component.print) := by
  obtain ⟨cs⟩ := a
  have hprinted : ∀ p ∈ cs.map Component.print, Balanced p ∧ Clear ';' p := fun p hp => by
    obtain ⟨c, hc, rfl⟩ := List.mem_map.mp hp
    exact ⟨(h c hc).balanced_print, (h c hc).clear_print⟩
  have hbal : Balanced (print ⟨cs⟩) := balanced_joined (by decide) fun p hp => (hprinted p hp).1
  rw [segments_eq, if_pos hbal]
  cases cs with
  | nil => rfl
  | cons c cs =>
    have hcuts : cuts ';' false (print ⟨c :: cs⟩)
        = c.print :: (cs.map Component.print).map (' ' :: ·) := cuts_joined (by decide) hprinted
    have htrim : ∀ d ∈ c :: cs, Text.trim (' ' :: d.print) = d.print := fun d hd => by
      rw [← List.singleton_append, Text.trim_blank_append Text.blank_space,
        (h d hd).toLegible.trim_print]
    have htrimmed : (c.print :: (cs.map Component.print).map (' ' :: ·)).map Text.trim
        = (c :: cs).map Component.print := by
      rw [List.map_cons, List.map_cons, (h c List.mem_cons_self).toLegible.trim_print, List.map_map,
        List.map_map]
      exact congrArg _ (List.map_congr_left fun d hd => htrim d (List.mem_cons_of_mem c hd))
    have hkept : ((c :: cs).map Component.print).filter (fun s => !s.isEmpty)
        = (c :: cs).map Component.print := List.filter_eq_self.mpr fun p hp => by
      obtain ⟨d, -, rfl⟩ := List.mem_map.mp hp
      rw [List.isEmpty_eq_false_iff.mpr d.print_ne_nil]
      rfl
    rw [hcuts, filled, htrimmed, hkept]

/-! ## Actions -/

/-- **A canonical action is read back from its written form.** -/
theorem Canonical.parse_print (h : a.Canonical) : parse a.print = .ok a := by
  rw [parse, segments_print h]
  dsimp only
  rw [mapM_map_eq_ok fun c hc => (h c hc).toLegible.parse_print]
  rfl

/-- **Only canonical actions are read.** -/
theorem canonical_of_parse (h : parse t = .ok a) : a.Canonical := by
  rw [parse] at h
  split at h
  case h_1 => cases h
  case h_2 ts hts =>
    cases hcs : ts.mapM Component.parse with
    | error e =>
      rw [hcs] at h
      cases h
    | ok cs =>
      rw [hcs] at h
      obtain rfl := Except.ok.inj h
      intro c hc
      obtain ⟨s, hs, hparse⟩ := exists_of_mapM_eq_ok hcs c hc
      obtain ⟨hbal, hclear⟩ := of_mem_segments hts s hs
      exact Component.canonical_of_parse hbal hclear hparse

/-- **The round trip.**  What is read from a text is read again from its own written form, which is
therefore written as it is. -/
theorem parse_print_of_parse (t : Text) (a : Action) (h : parse t = .ok a) :
    parse a.print = .ok a ∧ (parse a.print).map print = .ok a.print := by
  have hback : parse a.print = .ok a := (canonical_of_parse h).parse_print
  refine ⟨hback, ?_⟩
  rw [hback]
  rfl

/-- A rule text with a semicolon and a bracket inside a string of the older kind, a blank segment, a
comma inside an attribute and a name that comes twice. -/
def mixedText : Text := "[s] \" a; (b \"(x); ;[n] ./*[1]  ( p:\"1,2\" , q,p : 3)"

/-- What `mixedText` says. -/
def mixedAction : Action where
  components := [
    { kind := .text, content := "\"a; (b\"", attributes := .ofList [("x".toList, "true".toList)] },
    { kind := .node, content := "./*[1]"
      attributes := .ofList [("p".toList, "3".toList), ("q".toList, "true".toList)] }]

theorem parse_print_of_parse_mixedText :
    parse mixedText = .ok mixedAction ∧ parse mixedAction.print = .ok mixedAction
      ∧ (parse mixedAction.print).map print = .ok mixedAction.print := by
  have h : parse mixedText = .ok mixedAction := by decide +kernel
  exact ⟨h, parse_print_of_parse mixedText mixedAction h⟩

/-- **What can be said**: an action is what some text says if and only if it is canonical, and if
and only if it is what its own written form says. -/
theorem exists_parse_iff_canonical (a : Action) :
    ((∃ t, parse t = .ok a) ↔ a.Canonical) ∧ (a.Canonical ↔ parse a.print = .ok a) :=
  ⟨⟨fun ⟨_, h⟩ => canonical_of_parse h, fun h => ⟨a.print, h.parse_print⟩⟩,
    ⟨Canonical.parse_print, canonical_of_parse⟩⟩

end Action

end MathSpeech.Rule
