import MathSpeech.Proofs.Rule.Canonical

/-!
# Proofs/Rule/Source — the text that a component is read from

The kinds of components cut their text at different places, and one of them passes over what it
finds behind a literal.  Still nothing but blanks is lost: a text that is read is its marker, the
source of the content, and the block of the attributes (`exists_parts_of_parse`).

The legacy marker cuts at the second quote, the text marker at a bracket outside strings.  Behind a
string without inner quotes both come to the same block, so that the first is a way to write the
second (`parse_text_of_parse_legacy`).
-/

namespace MathSpeech.Rule

variable {b : Char} {marker raw content w block : Text} {kind : Kind}

/-- The source of a content that its kind admits does not end with a blank. -/
theorem Component.IsReadFrom.trimEnd (h : IsReadFrom marker raw content)
    (hs : kind.Admits content) :
    raw.trimEnd = raw := by
  rw [IsReadFrom] at h
  split at h
  · obtain ⟨s, -, rfl, -⟩ := h
    exact Text.trimEnd_concat (by decide) _
  · rw [h, ← hs.trimmed]
    exact Text.trimEnd_trimEnd _

/-- **Blanks at the end of a text belong to no part of it**: they stand behind the block, or if
there is none, behind the source of the content. -/
theorem exists_gap (hraw : raw.trimEnd = raw) (hw : w.Blank) (hblock : IsBlock block.trim) :
    ∃ gap : Text, gap.Blank ∧ (raw ++ w ++ block).trimEnd = raw ++ gap ++ block.trim := by
  obtain ⟨l, r, hl, hr, hparts⟩ := block.exists_eq_trim
  rcases hblock with hnil | ⟨inner, -, hinner⟩
  · have hblank : (w ++ block).Blank := Text.blank_append.mpr ⟨hw, Text.trim_eq_nil_iff.mp hnil⟩
    refine ⟨[], Text.blank_nil, ?_⟩
    rw [List.append_assoc, Text.trimEnd_append hblank, hraw, hnil, List.append_nil, List.append_nil]
  · refine ⟨w ++ l, Text.blank_append.mpr ⟨hw, hl⟩, ?_⟩
    calc (raw ++ w ++ block).trimEnd
        = (raw ++ (w ++ l) ++ '(' :: inner ++ [')'] ++ r).trimEnd := by
          conv => lhs; rw [hparts, hinner]
          simp only [List.append_assoc, List.cons_append]
      _ = raw ++ (w ++ l) ++ '(' :: inner ++ [')'] := by
          rw [Text.trimEnd_append hr, Text.trimEnd_concat (by decide)]
      _ = raw ++ (w ++ l) ++ block.trim := by
          rw [hinner, List.append_assoc _ _ [')']]

namespace Component

variable {t : Text} {c : Component}

/-! ## Nothing is dropped -/

/-- **The parts of a text** that says a component: the marker, and behind it, but for the blanks
around them, the source of the content, a gap, and the block in which the attributes stand. -/
structure Parts (t : Text) (c : Component) (marker rest source gap block : Text) : Prop where
  text_eq : t = marker ++ rest
  length_marker : marker.length = 3
  kind_eq : Kind.ofMarker? marker = some c.kind
  trim_rest : rest.trim = source ++ gap ++ block
  content_from : IsReadFrom marker source c.content
  blank_gap : gap.Blank
  bracketed : block = [] ∨ block.head? = some '(' ∧ block.getLast? = some ')'
  attributes_eq : if block = [] then c.attributes = .empty
    else addAttributes { kind := c.kind, content := c.content } block = (c, none)

/-- The attributes of a component are added to it without them. -/
theorem addAttributes_of_standIn {block : Text} (h : Attributes.StandIn block c.attributes) :
    if block = [] then c.attributes = .empty
    else addAttributes { kind := c.kind, content := c.content } block = (c, none) := by
  split
  · rename_i hnil
    exact Attributes.standIn_nil_iff.mp (hnil ▸ h)
  · rename_i hne
    rw [addAttributes, h.readBlock_eq hne]

/-- **Every text that is read has these parts.** -/
theorem exists_parts_of_parse (h : parse t = .ok c) :
    ∃ marker rest source gap block, Parts t c marker rest source gap block := by
  obtain ⟨block, hmarker, hne, hread, hblock, -⟩ := exists_of_parse h
  obtain ⟨b, s, hrest⟩ := List.exists_cons_of_ne_nil hne
  rw [hrest] at hread
  obtain ⟨hadmits, raw, w, w', hraw, hw, hw', heq⟩ :=
    exists_of_readContent (Text.isBlank_of_trimStart hrest) hmarker hread
  obtain ⟨gap, hgap, hend⟩ := exists_gap (hraw.trimEnd hadmits) hw hblock.isBlock_trim
  refine ⟨t.take 3, t.drop 3, raw, gap, block.trim, ?_⟩
  exact
    { text_eq := (List.take_append_drop 3 t).symm
      length_marker := (Kind.of_ofMarker? hmarker).2.2
      kind_eq := hmarker
      trim_rest := by rw [Text.trim, hrest, heq, Text.trimEnd_append hw', hend]
      content_from := hraw
      blank_gap := hgap
      bracketed := hblock.isBlock_trim.imp_right fun ⟨inner, _, h⟩ =>
        Attributes.exists_bracketed_iff.mpr ⟨inner, h⟩
      attributes_eq := addAttributes_of_standIn hblock.trim }

/-- **What stands behind a content is a gap and a block**: where no bracket opens, it is blank. -/
theorem Parts.blank_of_notMem {rest source gap block : Text}
    (h : Parts t c marker rest source gap block) (hm : marker ≠ Kind.legacyMarker)
    (hopen : '(' ∉ rest.trimStart.drop c.content.length) :
    Text.Blank (rest.trimStart.drop c.content.length) := by
  have hsource : source = c.content := by
    have hfrom := h.content_from
    rwa [IsReadFrom, if_neg hm] at hfrom
  obtain ⟨r, hr, hstart⟩ := rest.trimStart.exists_eq_trimEnd
  have hbehind : rest.trimStart.drop c.content.length = gap ++ block ++ r := by
    have htrim : rest.trimStart.trimEnd = c.content ++ gap ++ block := hsource ▸ h.trim_rest
    rw [hstart, htrim, List.append_assoc, List.append_assoc, List.drop_left, List.append_assoc]
  rw [hbehind] at hopen ⊢
  rcases h.bracketed with rfl | ⟨hhead, -⟩
  · exact Text.blank_append.mpr ⟨Text.blank_append.mpr ⟨h.blank_gap, Text.blank_nil⟩, hr⟩
  · obtain ⟨u, rfl⟩ := List.head?_eq_some_iff.mp hhead
    exact absurd (by simp) hopen

/-- **Nothing is dropped.**  A text that is read as a component has a marker of three characters,
and the rest of it, trimmed, is the source of the content, a gap of blanks, and nothing or a block
in brackets, from which the component has its attributes.  The source is the content itself, but for
the string of the legacy marker, which is trimmed between its quotes.  So where no bracket opens
behind a content, as when what follows a literal is passed over, there is nothing but blanks. -/
theorem nothing_dropped (t : Text) (c : Component) (h : parse t = .ok c) :
    ∃ marker rest source gap block, Parts t c marker rest source gap block
      ∧ (marker ≠ Kind.legacyMarker → '(' ∉ rest.trimStart.drop c.content.length →
          Text.Blank (rest.trimStart.drop c.content.length)) := by
  obtain ⟨marker, rest, source, gap, block, hparts⟩ := exists_parts_of_parse h
  exact ⟨marker, rest, source, gap, block, hparts, hparts.blank_of_notMem⟩

/-- A string of the legacy marker with a bracket and a semicolon in it, and blanks at every place
where there may be some. -/
def looseText : Text := "[s] \" a (b; \" \t( x , y:\"1,2\" )\n"

/-- What `looseText` says. -/
def looseComponent : Component where
  kind := .text
  content := "\"a (b;\""
  attributes := .ofList [("x".toList, "true".toList), ("y".toList, "\"1,2\"".toList)]

theorem nothing_dropped_looseText :
    parse looseText = .ok looseComponent
      ∧ ∃ marker rest source gap block, Parts looseText looseComponent marker rest source gap block
        ∧ (marker ≠ Kind.legacyMarker →
            '(' ∉ rest.trimStart.drop looseComponent.content.length →
              Text.Blank (rest.trimStart.drop looseComponent.content.length)) := by
  have h : parse looseText = .ok looseComponent := by decide +kernel
  exact ⟨h, nothing_dropped looseText looseComponent h⟩

/-! ## The legacy marker -/

section Legacy

variable {s u x r : Text}

/-- What is read behind a marker of three characters and a space. -/
theorem parse_marked (hlength : marker.length = 3) (hk : Kind.ofMarker? marker = some kind)
    (hs : Text.isBlank b = false)
    (hread : readContent (marker ++ ' ' :: b :: u) marker kind (b :: u) = .ok (content, block)) :
    parse (marker ++ ' ' :: b :: u)
      = Component.complete (marker ++ ' ' :: b :: u) kind content block := by
  have htake : (marker ++ ' ' :: b :: u).take 3 = marker := List.take_left' hlength
  have hrest : Text.trimStart ((marker ++ ' ' :: b :: u).drop 3) = b :: u := by
    rw [List.drop_left' hlength, ← List.singleton_append, Text.trimStart_append Text.blank_space,
      Text.trimStart_cons hs]
  refine parse_eq_complete ?_ ?_ ?_
  · rw [htake, hk]
  · rw [hrest]
    exact List.cons_ne_nil b u
  · rw [htake, hrest, hread]

/-- **A string of the legacy marker** ends at the next quote. -/
theorem parse_legacy (hx : '"' ∉ x) (r : Text) :
    parse (Kind.legacyMarker ++ ' ' :: '"' :: (x ++ '"' :: r))
      = Component.complete (Kind.legacyMarker ++ ' ' :: '"' :: (x ++ '"' :: r)) .text
          ('"' :: x.trim ++ ['"']) r.trimStart := by
  refine parse_marked rfl rfl (by decide) ?_
  rw [readContent.eq_def, if_pos rfl, legacyString, Text.cut_append hx]

/-- **A literal without inner quotes** ends at the next quote too, if a block follows it. -/
theorem parse_literal (hs : '"' ∉ s) (hr : IsBlock r.trim) :
    parse (Kind.text.marker ++ ' ' :: '"' :: (s ++ '"' :: r))
      = Component.complete (Kind.text.marker ++ ' ' :: '"' :: (s ++ '"' :: r)) .text
          ('"' :: s ++ ['"']) r.trim := by
  refine parse_marked rfl rfl (by decide) ?_
  obtain ⟨l, l', hl, hl', hparts⟩ := r.exists_eq_trim
  have hrest : '"' :: (s ++ '"' :: r) = ('"' :: s ++ ['"']) ++ (l ++ r.trim ++ l') := by
    rw [← hparts]
    simp only [List.cons_append, List.append_assoc, List.nil_append]
  rw [readContent.eq_def, if_neg (marker_ne_legacyMarker .text)]
  dsimp only
  rw [List.head?_cons, if_pos rfl, hrest]
  exact literal_append (isLiteral_quoted hs) hl hr hl'

/-- **The legacy marker is a dialect of the text marker.**  Whatever the legacy marker says of a
string without inner quotes, and of whatever text behind it, the text marker says of the trimmed
string and the same text: the same component, with its attributes in the same order. -/
theorem parse_text_of_parse_legacy (x r : Text) (c : Component) (hx : '"' ∉ x)
    (h : parse ("[s] \"" ++ x ++ '"' :: r) = .ok c) :
    parse ("[t] \"" ++ x.trim ++ '"' :: r) = .ok c := by
  obtain ⟨hkind, hcontent, hblock, hvoiced⟩ :=
    complete_eq_ok_iff.mp ((parse_legacy hx r).symm.trans h)
  have hstand := hblock.trim
  have hbracketed := hblock.isBlock_trim
  rw [Text.trim_trimStart] at hstand hbracketed
  exact (parse_literal (Text.notMem_trim hx) hbracketed).trans
    (complete_eq_ok_iff.mpr ⟨hkind, hcontent, hstand, hvoiced⟩)

/-- A string with a bracket and a semicolon, and blanks around it. -/
def bracketString : Text := " a (b; "

/-- A block with a comma and a bracket inside a string, and a bare name. -/
def bracketBlock : Text := " (p:\"c,(\", q) "

/-- What the two say under either marker. -/
def bracketComponent : Component where
  kind := .text
  content := "\"a (b;\""
  attributes := .ofList [("p".toList, "\"c,(\"".toList), ("q".toList, "true".toList)]

theorem parse_text_of_parse_legacy_bracketString :
    '"' ∉ bracketString
      ∧ parse ("[s] \"" ++ bracketString ++ '"' :: bracketBlock) = .ok bracketComponent
      ∧ parse ("[t] \"" ++ bracketString.trim ++ '"' :: bracketBlock) = .ok bracketComponent := by
  have hx : '"' ∉ bracketString := by decide +kernel
  have h : parse ("[s] \"" ++ bracketString ++ '"' :: bracketBlock) = .ok bracketComponent := by
    decide +kernel
  exact ⟨hx, h, parse_text_of_parse_legacy bracketString bracketBlock bracketComponent hx h⟩

end Legacy

end Component

end MathSpeech.Rule
