import MathSpeech.Proofs.Rule.Content

/-!
# Proofs/Rule/Canonical — the components that can be read, and those that stand in an action

A component is **legible** if its kind admits its content and its attributes are legible; it is
**canonical** if moreover no semicolon shows outside its strings, so that it can stand among others.

* `parse_print` — a legible component is read back from its written form;
* `legible_of_parse` — every component that is read is legible;
* `canonical_of_parse` — it is canonical if it is read from a text without a semicolon outside its
  strings.
-/

namespace MathSpeech.Rule

variable {mark : Char} {t content block marker : Text} {kind : Kind} {c : Component}

/-! ## Markers -/

namespace Kind

/-- A marker has three characters, neither a quote nor a semicolon among them. -/
theorem of_ofMarker? (h : ofMarker? marker = some kind) :
    Balanced marker ∧ Clear ';' marker ∧ marker.length = 3 := by
  rw [ofMarker?] at h
  repeat' split at h
  case isFalse => exact nomatch h
  all_goals
    subst_vars
    exact ⟨rfl, clear_of_notMem (by decide), rfl⟩

theorem exists_marker_eq (kind : Kind) : ∃ d, kind.marker = ['[', d, ']'] := by
  cases kind with
  | node => exact ⟨'n', rfl⟩
  | multi => exact ⟨'m', rfl⟩
  | text => exact ⟨'t', rfl⟩
  | personality => exact ⟨'p', rfl⟩

end Kind

namespace Component

/-- **A legible component**: one that is read back from its written form. -/
structure Legible (c : Component) : Prop where
  content : c.kind.Admits c.content
  attributes : ∀ a ∈ c.attributes.entries, Attributes.Legible a
  voiced : c.kind = .personality → c.attributes.entries ≠ []

/-- **A canonical component**: a legible one whose strings are closed and hide its semicolons. -/
structure Canonical (c : Component) : Prop extends Legible c where
  balanced : Balanced c.content
  clear : Clear ';' c.content
  sealed : ∀ a ∈ c.attributes.entries, Clear ';' (Attributes.written a)

/-! ## Writing -/

/-- The block of a component's attributes; there is none without attributes. -/
def blockOf (c : Component) : Text :=
  if c.attributes.entries.isEmpty then [] else Attributes.bracketed c.attributes

/-- **The written form** is the marker, the content and the block, each behind a space. -/
theorem print_eq (c : Component) :
    c.print = c.kind.marker ++ spaced c.content ++ spaced c.blockOf := by
  rw [print, blockOf, OrderedMap.isEmpty, spaced]
  congr 1
  split <;> rfl

theorem Legible.isBlock (h : Legible c) : IsBlock c.blockOf := by
  rw [blockOf]
  split
  · exact .inl rfl
  · refine .inr ⟨_, balanced_joined (by decide) fun t ht => ?_, rfl⟩
    obtain ⟨a, ha, rfl⟩ := List.mem_map.mp ht
    exact (h.attributes a ha).balanced

/-- The attributes of a legible component stand in its block. -/
theorem Legible.standIn (h : Legible c) : Attributes.StandIn c.blockOf c.attributes := by
  rw [blockOf]
  split
  · rename_i hempty
    exact .inl ⟨rfl, OrderedMap.ext (List.isEmpty_iff.mp hempty)⟩
  · rename_i hne
    exact .inr (Attributes.readBlock_bracketed_self h.attributes fun he =>
      hne (List.isEmpty_iff.mpr he))

/-- **Completing a component** gives it the kind and content that were read, and the attributes that
stand in its block.  A change of voice must have some. -/
theorem complete_eq_ok_iff :
    Component.complete t kind content block = .ok c
      ↔ c.kind = kind ∧ c.content = content ∧ Attributes.StandIn block c.attributes
        ∧ (c.kind = .personality → c.attributes.entries ≠ []) := by
  rw [Component.complete.eq_def]
  dsimp only
  constructor
  · intro h
    split at h
    case h_1 => exact nomatch h
    case h_2 d hread =>
      split at h
      case isTrue => exact nomatch h
      case isFalse hvoiced =>
        obtain rfl := Except.ok.inj h
        split at hread
        case isTrue hempty =>
          obtain ⟨rfl, -⟩ := Prod.mk.inj hread
          exact ⟨rfl, rfl, .inl ⟨List.isEmpty_iff.mp hempty, rfl⟩,
            fun hk => absurd ⟨hk, rfl⟩ hvoiced⟩
        case isFalse =>
          obtain ⟨rfl, hfault⟩ := Prod.mk.inj hread
          refine ⟨rfl, rfl, .inr (Prod.ext rfl hfault), fun hk he => hvoiced ⟨hk, ?_⟩⟩
          exact List.isEmpty_iff.mpr he
  · obtain ⟨kind', content', as⟩ := c
    rintro ⟨rfl, rfl, hblock, hvoiced⟩
    have hfilled : ¬(kind' = .personality ∧ as.isEmpty = true) := fun hp =>
      hvoiced hp.1 (List.isEmpty_iff.mp hp.2)
    by_cases hne : block = []
    · subst hne
      obtain rfl := Attributes.standIn_nil_iff.mp hblock
      exact if_neg hfilled
    · simp only [List.isEmpty_iff, hne, if_false, addAttributes, hblock.readBlock_eq hne, hfilled]

/-- What reading a component does, when its content can be read. -/
theorem parse_eq_complete (hk : Kind.ofMarker? (t.take 3) = some kind)
    (hne : Text.trimStart (t.drop 3) ≠ [])
    (hread : readContent t (t.take 3) kind (Text.trimStart (t.drop 3)) = .ok (content, block)) :
    parse t = Component.complete t kind content block := by
  rw [parse]
  simp only [hk, List.isEmpty_iff, hne, if_false, hread]

/-- A legible component is complete with its own content and block. -/
theorem Legible.complete (h : Legible c) :
    Component.complete t c.kind c.content c.blockOf = .ok c :=
  complete_eq_ok_iff.mpr ⟨rfl, rfl, h.standIn, h.voiced⟩

/-- **A legible component is read back from its written form.** -/
theorem Legible.parse_print (h : Legible c) : parse c.print = .ok c := by
  obtain ⟨d, hd⟩ := c.kind.exists_marker_eq
  have htake : c.print.take 3 = c.kind.marker := by
    rw [print_eq, hd]
    rfl
  have hdrop : c.print.drop 3 = spaced c.content ++ spaced c.blockOf := by
    rw [print_eq, hd]
    rfl
  have hmarker : Kind.ofMarker? (c.print.take 3) = some c.kind := by
    rw [htake, Kind.ofMarker?_marker]
  by_cases hk : c.kind = .personality
  · -- no content: the rest is the block
    have hcontent : c.content = [] := by
      have hadmits := h.content
      rwa [hk] at hadmits
    have hrest : Text.trimStart (c.print.drop 3) = c.blockOf := by
      rw [hdrop, hcontent, spaced_nil, List.nil_append, h.isBlock.trimStart_spaced]
    have hfilled : c.blockOf ≠ [] := by
      rw [blockOf, if_neg fun he => h.voiced hk (List.isEmpty_iff.mp he)]
      exact List.cons_ne_nil _ _
    refine (parse_eq_complete hmarker (by rwa [hrest]) ?_).trans h.complete
    rw [htake, hrest, hcontent, hk]
    rfl
  · obtain ⟨b, s, hcons, hb⟩ := h.content.exists_cons hk
    have hrest : Text.trimStart (c.print.drop 3) = c.content ++ spaced c.blockOf := by
      rw [hdrop, hcons, spaced_cons, ← List.singleton_append, List.append_assoc,
        Text.trimStart_append Text.blank_space, List.cons_append, Text.trimStart_cons hb]
    refine (parse_eq_complete hmarker ?_ ?_).trans h.complete
    · rw [hrest, hcons]
      exact List.cons_ne_nil _ _
    · rw [htake, hrest]
      exact readContent_append h.content hk h.isBlock

/-! ## Reading -/

/-- **The parts of a component that was read**: marker, content and block. -/
theorem exists_of_parse (h : parse t = .ok c) :
    ∃ block, Kind.ofMarker? (t.take 3) = some c.kind
      ∧ Text.trimStart (t.drop 3) ≠ []
      ∧ readContent t (t.take 3) c.kind (Text.trimStart (t.drop 3)) = .ok (c.content, block)
      ∧ Attributes.StandIn block c.attributes
      ∧ (c.kind = .personality → c.attributes.entries ≠ []) := by
  rw [parse] at h
  split at h
  case h_1 => exact nomatch h
  case h_2 kind hmarker =>
    dsimp only at h
    split at h
    case isTrue => exact nomatch h
    case isFalse hne =>
      split at h
      case h_1 => exact nomatch h
      case h_2 content block hread =>
        obtain ⟨rfl, rfl, hblock, hvoiced⟩ := complete_eq_ok_iff.mp h
        exact ⟨block, hmarker, fun he => hne (List.isEmpty_iff.mpr he), hread, hblock, hvoiced⟩

/-- **Every component that is read is legible.** -/
theorem legible_of_parse (h : parse t = .ok c) : Legible c := by
  obtain ⟨block, hmarker, hne, hread, hblock, hvoiced⟩ := exists_of_parse h
  obtain ⟨b, s, hrest⟩ := List.exists_cons_of_ne_nil hne
  rw [hrest] at hread
  obtain ⟨hadmits, -⟩ := exists_of_readContent (Text.isBlank_of_trimStart hrest) hmarker hread
  exact ⟨hadmits, hblock.legible, hvoiced⟩

/-- **Parts of a text inherit from it**: between balanced parts and blanks, the content and the
block are as balanced and as clear as the text. -/
theorem inherit_of_parts {front raw w block w' : Text} (hfront : Balanced front) (hw : w.Blank)
    (hblock : Balanced block) (hw' : w'.Blank)
    (hb : Balanced (front ++ (raw ++ (w ++ block ++ w'))))
    (hc : Clear ';' (front ++ (raw ++ (w ++ block ++ w')))) :
    Balanced raw ∧ Clear ';' raw ∧ Clear ';' block := by
  have hwbal := balanced_of_blank hw
  have hwblock : Balanced (w ++ block) := (balanced_append_iff hwbal).mpr hblock
  have hback : Balanced (w ++ block ++ w') :=
    (balanced_append_iff hwblock).mpr (balanced_of_blank hw')
  have hraw : Balanced raw :=
    (balanced_append_iff_left hback).mp ((balanced_append_iff hfront).mp hb)
  obtain ⟨hrawclear, hbackclear⟩ :=
    (clear_append_iff hraw).mp ((clear_append_iff hfront).mp hc).2
  have hwblockclear := ((clear_append_iff hwblock).mp hbackclear).1
  exact ⟨hraw, hrawclear, ((clear_append_iff hwbal).mp hwblockclear).2⟩

/-- **A component is canonical** if it is read from a text whose strings are closed and hide its
semicolons. -/
theorem canonical_of_parse (hb : Balanced t) (hc : Clear ';' t) (h : parse t = .ok c) :
    Canonical c := by
  obtain ⟨block, hmarker, hne, hread, hblock, -⟩ := exists_of_parse h
  obtain ⟨b, s, hrest⟩ := List.exists_cons_of_ne_nil hne
  rw [hrest] at hread
  obtain ⟨-, raw, w, w', hraw, hw, hw', heq⟩ :=
    exists_of_readContent (Text.isBlank_of_trimStart hrest) hmarker hread
  obtain ⟨l, hl, hdrop⟩ := Text.exists_eq_trimStart (t.drop 3)
  have ht : t = (t.take 3 ++ l) ++ (raw ++ (w ++ block ++ w')) := by
    conv => lhs; rw [← List.take_append_drop 3 t, hdrop, hrest, heq]
    simp only [List.append_assoc]
  have hfront : Balanced (t.take 3 ++ l) :=
    (balanced_append_iff (Kind.of_ofMarker? hmarker).1).mpr (balanced_of_blank hl)
  rw [ht] at hb hc
  obtain ⟨hrawbal, hrawclear, hblockclear⟩ :=
    inherit_of_parts hfront hw hblock.balanced hw' hb hc
  have hlegible := legible_of_parse h
  have hsealed := hblock.clear (by decide) hblockclear
  rw [IsReadFrom] at hraw
  split at hraw
  case isTrue =>
    -- the string of an older rule is written anew, so its content is looked at for itself
    obtain ⟨x, hx, -, hcontent⟩ := hraw
    have hbal : Balanced c.content := by
      rw [hcontent]
      exact (isLiteral_quoted (Text.notMem_trim hx)).balanced
    have hclear : Clear ';' c.content := by
      rw [hcontent]
      exact clear_quoted (by decide) (Text.notMem_trim hx)
    exact { hlegible with balanced := hbal, clear := hclear, sealed := hsealed }
  case isFalse =>
    subst hraw
    exact { hlegible with balanced := hrawbal, clear := hrawclear, sealed := hsealed }

/-! ## The written form of a canonical component stands among others -/

theorem balanced_marker (kind : Kind) : Balanced kind.marker :=
  (Kind.of_ofMarker? kind.ofMarker?_marker).1

theorem Canonical.balanced_print (h : Canonical c) : Balanced c.print := by
  rw [print_eq, balanced_append_iff ((balanced_append_iff (balanced_marker c.kind)).mpr
    (balanced_spaced h.balanced))]
  exact balanced_spaced h.isBlock.balanced

theorem Canonical.clear_blockOf (h : Canonical c) : Clear ';' c.blockOf := by
  have hjoined : Clear ';' (Text.joined ", " (c.attributes.entries.map Attributes.written)) :=
    clear_joined (by decide) (clear_of_notMem (by decide)) fun t ht => by
      obtain ⟨a, ha, rfl⟩ := List.mem_map.mp ht
      exact ⟨(h.attributes a ha).balanced, h.sealed a ha⟩
  have hbal : Balanced (Text.joined ", " (c.attributes.entries.map Attributes.written)) :=
    balanced_joined (by decide) fun t ht => by
      obtain ⟨a, ha, rfl⟩ := List.mem_map.mp ht
      exact (h.attributes a ha).balanced
  rw [blockOf]
  split
  · exact clear_of_notMem List.not_mem_nil
  · refine (clear_append_iff (s := ['(']) rfl).mpr ⟨clear_of_notMem (by decide), ?_⟩
    exact (clear_append_iff hbal).mpr ⟨hjoined, clear_of_notMem (by decide)⟩

theorem Canonical.clear_print (h : Canonical c) : Clear ';' c.print := by
  have hmarker := balanced_marker c.kind
  have hcontent := balanced_spaced h.balanced
  rw [print_eq, clear_append_iff ((balanced_append_iff hmarker).mpr hcontent),
    clear_append_iff hmarker]
  exact ⟨⟨(Kind.of_ofMarker? c.kind.ofMarker?_marker).2.1, clear_spaced (by decide) h.clear⟩,
    clear_spaced (by decide) h.clear_blockOf⟩

/-- **The written form is trimmed**: it begins with a marker and ends with a content or a
bracket. -/
theorem Legible.trim_print (h : Legible c) : c.print.trim = c.print := by
  obtain ⟨d, hd⟩ := c.kind.exists_marker_eq
  have hfirst : Text.isBlank '[' = false := by decide
  rw [print_eq, hd]
  rcases h.isBlock with hblock | ⟨inner, -, hblock⟩
  · have hk : c.kind ≠ .personality := fun hk => by
      rw [blockOf, if_neg fun he => h.voiced hk (List.isEmpty_iff.mp he)] at hblock
      exact List.cons_ne_nil _ _ hblock
    obtain ⟨b, s, hcons, -⟩ := h.content.exists_cons hk
    obtain ⟨u, e, hlast⟩ : ∃ u e, c.content = u ++ [e] := by
      rcases List.eq_nil_or_concat c.content with hnil | ⟨u, e, he⟩
      · exact absurd (hcons.symm.trans hnil) (List.cons_ne_nil b s)
      · exact ⟨u, e, by rw [he, List.concat_eq_append]⟩
    have he : Text.isBlank e = false := by
      have htrim := h.content.trimmed
      rw [hlast] at htrim
      exact Text.isBlank_of_trim_eq_append htrim
    have hspaced : spaced c.content = ' ' :: u ++ [e] := by
      rw [hcons, spaced_cons, ← hcons, hlast, List.cons_append]
    rw [hblock, hspaced, spaced_nil, List.append_nil, ← List.append_assoc]
    exact Text.trim_cons_append hfirst he _
  · have hspaced : spaced ('(' :: inner ++ [')']) = ' ' :: '(' :: inner ++ [')'] := rfl
    rw [hblock, hspaced, ← List.append_assoc]
    exact Text.trim_cons_append hfirst (by decide) _

theorem print_ne_nil (c : Component) : c.print ≠ [] := by
  obtain ⟨d, hd⟩ := c.kind.exists_marker_eq
  rw [print_eq, hd]
  exact List.cons_ne_nil _ _

end Component

end MathSpeech.Rule
