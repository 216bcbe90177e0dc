import MathSpeech.Proofs.Rule.Attributes

/-!
# Proofs/Rule/Content — where the content of a component ends

Each kind of component has contents of its own: a **selection** holds no bracket behind a space, a
**literal** begins and ends with a quote and shows no bracket outside its strings.  Two halves:

* a content that its kind admits is cut off again from the attributes written behind it
  (`readContent_append`);
* whatever text is read, its content is one that the kind admits, and what is read is the whole of
  the text but for blanks (`exists_of_readContent`).
-/

namespace MathSpeech.Rule

variable {c : Char} {s t rest content block component marker : Text} {kind : Kind}
  {as : Attributes}

/-! ## Contents of a kind -/

/-- **A selection**: a trimmed text without a bracket that follows a space. -/
structure IsSelection (t : Text) : Prop where
  filled : t ≠ []
  trimmed : t.trim = t
  unbracketed : ¬ [' ', '('] <:+: t

/-- **A literal**: a text that begins and ends with a quote, with no bracket outside its strings. -/
structure IsLiteral (t : Text) : Prop where
  long : 2 ≤ t.length
  opened : t.head? = some '"'
  closed : t.getLast? = some '"'
  balanced : Balanced t
  clear : Clear '(' t

/-- **The contents that a kind admits.**  A text component that begins with a quote is a literal. -/
def Kind.Admits : Kind → Text → Prop
  | .node, t | .multi, t => IsSelection t
  | .text, t => (IsSelection t ∧ t.head? ≠ some '"') ∨ IsLiteral t
  | .personality, t => t = []

theorem IsSelection.exists_cons (h : IsSelection t) :
    ∃ c s, t = c :: s ∧ Text.isBlank c = false := by
  obtain ⟨c, s, rfl⟩ := List.exists_cons_of_ne_nil h.filled
  exact ⟨c, s, rfl, Text.isBlank_of_trim_eq_cons h.trimmed⟩

/-- A literal is two quotes and what stands between them. -/
theorem IsLiteral.exists_quoted (h : IsLiteral t) : ∃ s, t = '"' :: s ++ ['"'] := by
  obtain ⟨c, u, rfl⟩ := List.exists_cons_of_ne_nil (l := t) fun he => by
    have := h.long
    rw [he, List.length_nil] at this
    omega
  obtain rfl : c = '"' := Option.some.inj h.opened
  rcases List.eq_nil_or_concat u with rfl | ⟨s, d, rfl⟩
  · exact absurd h.long (by decide)
  · have hlast := h.closed
    rw [List.concat_eq_append, ← List.cons_append, List.getLast?_concat] at hlast
    obtain rfl : d = '"' := Option.some.inj hlast
    exact ⟨s, by rw [List.concat_eq_append, List.cons_append]⟩

theorem IsLiteral.ne_nil (h : IsLiteral t) : t ≠ [] := by
  obtain ⟨s, rfl⟩ := h.exists_quoted
  exact List.cons_ne_nil _ _

theorem IsLiteral.trimmed (h : IsLiteral t) : t.trim = t := by
  obtain ⟨s, rfl⟩ := h.exists_quoted
  exact Text.trim_cons_append (by decide) (by decide) s

/-- Between two quotes a mark is inside a string. -/
theorem clear_quoted {mark : Char} (hm : mark ≠ '"') (h : '"' ∉ s) :
    Clear mark ('"' :: s ++ ['"']) := by
  rw [clear_iff, List.cons_append, sheltered_cons, sheltered_append]
  exact ⟨fun he => absurd he.symm hm, sheltered_inside h, fun he => absurd he.symm hm, trivial⟩

/-- **A literal of an older rule**: a text without quotes between two of them. -/
theorem isLiteral_quoted (h : '"' ∉ s) : IsLiteral ('"' :: s ++ ['"']) where
  long := by simp
  opened := rfl
  closed := List.getLast?_concat
  balanced := by
    rw [balanced_iff, List.cons_append, insideAfter_cons, insideAfter_append,
      insideAfter_of_notMem h]
    rfl
  clear := clear_quoted (by decide) h

/-- An admitted content, if there is one, begins with a character that is seen. -/
theorem Kind.Admits.exists_cons (h : kind.Admits t) (hk : kind ≠ .personality) :
    ∃ c s, t = c :: s ∧ Text.isBlank c = false := by
  cases kind with
  | node | multi => exact IsSelection.exists_cons h
  | text =>
    rcases h with h | h
    · exact h.1.exists_cons
    · obtain ⟨s, rfl⟩ := h.exists_quoted
      exact ⟨'"', s ++ ['"'], rfl, by decide⟩
  | personality => exact absurd rfl hk

/-- An admitted content is trimmed. -/
theorem Kind.Admits.trimmed (h : kind.Admits t) : t.trim = t := by
  cases kind with
  | node | multi => exact IsSelection.trimmed h
  | text => exact h.elim (fun h => h.1.trimmed) IsLiteral.trimmed
  | personality => rw [show t = [] from h]; rfl

/-! ## The first bracket behind a space -/

namespace Component

/-- A character that does not begin the bracket stays in the content. -/
theorem cutAtBracket_cons (h : ¬ [' ', '('] <+: c :: t) :
    cutAtBracket (c :: t) = (c :: (cutAtBracket t).1, (cutAtBracket t).2) := by
  rw [cutAtBracket]
  rintro u rfl rfl
  exact h ⟨u, rfl⟩

/-- **The cut keeps all**, its content holds no bracket behind a space, and what is left is empty or
begins with one. -/
theorem cutAtBracket_spec (t : Text) :
    t = (cutAtBracket t).1 ++ (cutAtBracket t).2 ∧ ¬ [' ', '('] <:+: (cutAtBracket t).1
      ∧ ((cutAtBracket t).2 = [] ∨ [' ', '('] <+: (cutAtBracket t).2) := by
  induction t with
  | nil => exact ⟨rfl, by simp [cutAtBracket], .inl rfl⟩
  | cons c t ih =>
    by_cases hpre : [' ', '('] <+: c :: t
    · obtain ⟨u, hu⟩ := hpre
      rw [← hu]
      exact ⟨rfl, by simp [cutAtBracket], .inr ⟨u, rfl⟩⟩
    · obtain ⟨heq, hin, hrest⟩ := ih
      rw [cutAtBracket_cons hpre]
      refine ⟨?_, ?_, hrest⟩
      · rw [List.cons_append, ← heq]
      · rw [List.infix_cons_iff, not_or]
        refine ⟨fun hp => hpre ?_, hin⟩
        rw [heq]
        exact hp.trans ⟨_, rfl⟩

/-- **A selection ends at the bracket behind it.** -/
theorem cutAtBracket_append (hs : ¬ [' ', '('] <:+: s) (ht : t = [] ∨ [' ', '('] <+: t) :
    cutAtBracket (s ++ t) = (s, t) := by
  induction s with
  | nil =>
    rcases ht with rfl | ⟨u, rfl⟩
    · rfl
    · rfl
  | cons c s ih =>
    rw [List.infix_cons_iff, not_or] at hs
    have hpre : ¬ [' ', '('] <+: c :: (s ++ t) := by
      intro hp
      rw [List.cons_prefix_cons] at hp
      obtain ⟨rfl, hp⟩ := hp
      cases s with
      | nil =>
        rcases ht with rfl | ⟨u, rfl⟩
        · simp at hp
        · simp at hp
      | cons d s =>
        obtain ⟨rfl, -⟩ := List.cons_prefix_cons.mp hp
        exact hs.1 ⟨s, rfl⟩
    rw [List.cons_append, cutAtBracket_cons hpre, ih hs.2]

end Component

/-! ## What stands behind a content -/

/-- **A block** as attributes are written: nothing, or a balanced text in brackets. -/
def IsBlock (t : Text) : Prop := t = [] ∨ ∃ inner, Balanced inner ∧ t = '(' :: inner ++ [')']

/-- A text behind a space, or nothing if there is none. -/
def spaced (t : Text) : Text := if t.isEmpty then [] else ' ' :: t

@[simp] theorem spaced_nil : spaced [] = [] := rfl

@[simp] theorem spaced_cons : spaced (c :: t) = ' ' :: c :: t := rfl

/-- The space is a blank. -/
theorem exists_spaced_eq (t : Text) : ∃ w : Text, w.Blank ∧ spaced t = w ++ t := by
  cases t with
  | nil => exact ⟨[], Text.blank_nil, rfl⟩
  | cons c t => exact ⟨[' '], Text.blank_space, rfl⟩

theorem balanced_spaced (h : Balanced t) : Balanced (spaced t) := by
  cases t with
  | nil => exact balanced_nil
  | cons c t => exact (balanced_append_iff (s := [' ']) rfl).mpr h

theorem clear_spaced {mark : Char} (hm : mark ≠ ' ') (h : Clear mark t) :
    Clear mark (spaced t) := by
  cases t with
  | nil => exact h
  | cons c t =>
    refine (clear_append_iff (s := [' ']) rfl).mpr ⟨clear_of_notMem ?_, h⟩
    rwa [List.mem_singleton]

theorem IsBlock.balanced (h : IsBlock t) : Balanced t := by
  rcases h with rfl | ⟨inner, hb, rfl⟩
  · exact balanced_nil
  · have hclose : Balanced [')'] := rfl
    exact (balanced_append_iff (s := ['(']) rfl).mpr ((balanced_append_iff hb).mpr hclose)

/-- What attributes stand in is a block, but for blanks around it. -/
theorem Attributes.StandIn.isBlock_trim (h : StandIn block as) : IsBlock block.trim := by
  rcases h.exists_inner with rfl | ⟨inner, htrim, hinner⟩
  · exact .inl rfl
  · exact .inr ⟨inner, hinner, htrim⟩

theorem IsBlock.trimmed (h : IsBlock t) : t.trim = t := by
  rcases h with rfl | ⟨inner, -, rfl⟩
  · rfl
  · exact Text.trim_cons_append (by decide) (by decide) inner

theorem IsBlock.trimStart_spaced (h : IsBlock block) : (spaced block).trimStart = block := by
  rcases h with rfl | ⟨inner, -, rfl⟩
  · rfl
  · rw [List.cons_append, spaced_cons, ← List.singleton_append,
      Text.trimStart_append Text.blank_space, Text.trimStart_cons rfl]

/-! ## A content is cut off from what is written behind it -/

namespace Component

theorem selection_append (hs : IsSelection s) (hb : IsBlock block) :
    selection (s ++ spaced block) = (s, block) := by
  have hbracket : spaced block = [] ∨ [' ', '('] <+: spaced block := by
    rcases hb with rfl | ⟨inner, -, rfl⟩
    · exact .inl rfl
    · exact .inr ⟨inner ++ [')'], rfl⟩
  rw [selection, cutAtBracket_append hs.unbracketed hbracket]
  dsimp only
  rw [hs.trimmed, hb.trimStart_spaced]

section Literal

variable {w w' : Text}

/-- Blanks behind a literal open no string and show no bracket. -/
theorem balanced_clear_append_blank (hs : IsLiteral s) (hw : w.Blank) :
    Balanced (s ++ w) ∧ Clear '(' (s ++ w) :=
  ⟨(balanced_append_iff hs.balanced).mpr (balanced_of_blank hw),
    (clear_append_iff hs.balanced).mpr ⟨hs.clear, clear_of_notMem (hw.notMem (by decide))⟩⟩

/-- The first piece before a bracket is the literal, with the blanks behind it. -/
theorem trim_first_piece (hs : IsLiteral s) (hw : w.Blank) (hb : IsBlock block) (hw' : w'.Blank) :
    ((withoutEmptyEnd (cuts '(' false (s ++ (w ++ block ++ w')))).headD []).trim = s := by
  rcases hb with rfl | ⟨inner, -, rfl⟩
  · have hall : (w ++ [] ++ w').Blank := by
      rw [List.append_nil]
      exact Text.blank_append.mpr ⟨hw, hw'⟩
    have hne : s ++ (w ++ [] ++ w') ≠ [] := List.append_ne_nil_of_left_ne_nil hs.ne_nil _
    rw [cuts_of_sheltered (clear_iff.mp (balanced_clear_append_blank hs hall).2),
      withoutEmptyEnd_of_ne_nil (by simpa only [List.forall_mem_singleton] using hne),
      List.headD_cons, Text.trim_append_blank hall, hs.trimmed]
  · obtain ⟨hbal, hclear⟩ := balanced_clear_append_blank hs hw
    have htext : s ++ (w ++ ('(' :: inner ++ [')']) ++ w')
        = (s ++ w) ++ '(' :: (inner ++ [')'] ++ w') := by
      simp only [List.append_assoc, List.cons_append]
    rw [htext, cuts_cut hbal hclear, withoutEmptyEnd_cons (cuts_ne_nil _ _ _), List.headD_cons,
      Text.trim_append_blank hw, hs.trimmed]

/-- **A literal ends before the block behind it**, whatever blanks stand around the block. -/
theorem literal_append (hs : IsLiteral s) (hw : w.Blank) (hb : IsBlock block) (hw' : w'.Blank) :
    literal component (s ++ (w ++ block ++ w')) = .ok (s, block) := by
  have hbal : Balanced (s ++ (w ++ block ++ w')) := by
    rw [← List.append_assoc, ← List.append_assoc, balanced_append_iff_left (balanced_of_blank hw'),
      balanced_append_iff (balanced_clear_append_blank hs hw).1]
    exact hb.balanced
  rw [literal, split_of_balanced (by decide) hbal]
  dsimp only
  rw [trim_first_piece hs hw hb hw', if_pos ⟨hs.closed, hs.long⟩, List.drop_left,
    Text.trim_append_append hw hw', hb.trimmed]
  rcases hb with rfl | ⟨inner, -, rfl⟩
  · rfl
  · rw [if_pos (by simp)]

end Literal

theorem marker_ne_legacyMarker (kind : Kind) : kind.marker ≠ Kind.legacyMarker := by
  cases kind <;> decide

/-- **A content is cut off from the block behind it**, whatever its kind admits. -/
theorem readContent_append (hs : kind.Admits s) (hk : kind ≠ .personality) (hb : IsBlock block) :
    readContent component kind.marker kind (s ++ spaced block) = .ok (s, block) := by
  obtain ⟨c, u, hcons, -⟩ := hs.exists_cons hk
  have hhead : (s ++ spaced block).head? = s.head? := by rw [hcons]; rfl
  rw [readContent.eq_def, if_neg (marker_ne_legacyMarker kind)]
  cases kind with
  | node | multi => exact congrArg Except.ok (selection_append hs hb)
  | text =>
    dsimp only
    rcases hs with ⟨hs, hq⟩ | hs
    · rw [hhead, if_neg hq, selection_append hs hb]
    · obtain ⟨w, hw, hspaced⟩ := exists_spaced_eq block
      have hread : literal component (s ++ (w ++ block ++ [])) = .ok (s, block) :=
        literal_append hs hw hb Text.blank_nil
      rwa [hhead, if_pos hs.opened, hspaced, ← List.append_nil (w ++ block)]
  | personality => exact absurd rfl hk

/-! ## What is read is all there is -/

/-- A selection is followed by its block, behind blanks. -/
theorem of_selection (hc : Text.isBlank c = false) (h : selection (c :: t) = (content, block)) :
    IsSelection content ∧ content.head? = some c
      ∧ ∃ w, Text.Blank w ∧ c :: t = content ++ w ++ block := by
  obtain ⟨heq, hin, hrest⟩ := cutAtBracket_spec (c :: t)
  obtain ⟨hcontent, hblock⟩ := Prod.mk.inj h
  -- the text does not begin with a space, so the content takes its first character
  obtain ⟨u, hu⟩ : ∃ u, (cutAtBracket (c :: t)).1 = c :: u := by
    cases hfirst : (cutAtBracket (c :: t)).1 with
    | nil =>
      rw [hfirst, List.nil_append] at heq
      rcases hrest with hnil | ⟨v, hv⟩
      · exact absurd (heq.trans hnil) (List.cons_ne_nil c t)
      · rw [← heq] at hv
        obtain ⟨rfl, -⟩ := List.cons.inj hv
        exact absurd hc (by decide)
    | cons d u =>
      rw [hfirst] at heq
      obtain ⟨rfl, -⟩ := List.cons.inj heq
      exact ⟨u, rfl⟩
  rw [hu] at heq hin hcontent
  obtain ⟨r, hr, htrim⟩ := Text.exists_eq_trim_cons hc u
  obtain ⟨v, hv⟩ := Text.exists_trim_cons hc u
  obtain ⟨l, hl, hstart⟩ := Text.exists_eq_trimStart (cutAtBracket (c :: t)).2
  rw [hcontent] at htrim hv
  refine ⟨⟨by rw [hv]; exact List.cons_ne_nil c v, by rw [← hcontent, Text.trim_trim], ?_⟩,
    by rw [hv]; rfl, r ++ l, Text.blank_append.mpr ⟨hr, hl⟩, ?_⟩
  · rw [htrim] at hin
    exact fun hi => hin (hi.trans ⟨[], r, rfl⟩)
  · calc c :: t = (c :: u) ++ (cutAtBracket (c :: t)).2 := heq
      _ = (content ++ r) ++ (l ++ block) := by rw [← htrim, ← hblock, ← hstart]
      _ = content ++ (r ++ l) ++ block := by simp only [List.append_assoc]

/-- A string of the legacy marker is trimmed inside, and its block follows behind blanks. -/
theorem of_legacyString (h : legacyString component rest = .ok (content, block)) :
    ∃ s w : Text, '"' ∉ s ∧ w.Blank ∧ content = '"' :: s.trim ++ ['"']
      ∧ rest = '"' :: s ++ ['"'] ++ w ++ block := by
  rw [legacyString.eq_def] at h
  split at h
  case h_1 body =>
    split at h
    case h_1 s after hcut =>
      obtain ⟨hcontent, hblock⟩ := Prod.mk.inj (Except.ok.inj h)
      obtain ⟨l, hl, hstart⟩ := Text.exists_eq_trimStart after
      refine ⟨s, l, Text.notMem_of_cut hcut, hl, hcontent.symm, ?_⟩
      rw [hblock] at hstart
      rw [Text.eq_of_cut hcut, hstart]
      simp only [List.cons_append, List.append_assoc, List.nil_append]
    case h_2 => exact nomatch h
  case h_2 => exact nomatch h

/-- A piece in front of a bracket begins as the text does. -/
theorem exists_cons_of_piece {p tail : Text} (hc : c ≠ '(') (h : c :: t = p ++ tail)
    (htail : tail = [] ∨ ∃ w, tail = '(' :: w) : ∃ v, p = c :: v := by
  cases p with
  | nil =>
    rcases htail with rfl | ⟨w, rfl⟩
    · exact absurd h (List.cons_ne_nil c t)
    · exact absurd (List.cons.inj h).1 hc
  | cons d v => exact ⟨v, by rw [(List.cons.inj h).1]⟩

/-- What follows a literal is its block and a blank. -/
theorem exists_block_of_tail {tail : Text} (htail : tail = [] ∨ ∃ w, tail = '(' :: w)
    (h : (if '(' ∈ tail.trim then tail.trim else []) = block) :
    ∃ w : Text, w.Blank ∧ tail = block ++ w := by
  rcases htail with rfl | ⟨w, rfl⟩
  · rw [Text.trim_eq_nil_iff.mpr Text.blank_nil, if_neg List.not_mem_nil] at h
    exact ⟨[], Text.blank_nil, by rw [← h, List.append_nil]⟩
  · obtain ⟨y, hy⟩ := Text.exists_trim_cons (by decide : Text.isBlank '(' = false) w
    obtain ⟨w', hw', hblock⟩ := Text.exists_eq_trim_cons (by decide : Text.isBlank '(' = false) w
    rw [if_pos (by rw [hy]; exact List.mem_cons_self)] at h
    exact ⟨w', hw', by rw [← h, ← hblock]⟩

/-- A literal is followed by its block; what follows it without a bracket is blank. -/
theorem of_literal (hhead : rest.head? = some '"')
    (h : literal component rest = .ok (content, block)) :
    IsLiteral content ∧ ∃ w w' : Text, w.Blank ∧ w'.Blank ∧ rest = content ++ w ++ block ++ w' := by
  obtain ⟨u, rfl⟩ := List.head?_eq_some_iff.mp hhead
  rw [literal] at h
  split at h
  case h_1 => exact nomatch h
  case h_2 pieces hsplit =>
    obtain ⟨hbal, rfl⟩ := of_split (by decide) hsplit
    obtain ⟨p, tail, hp, htail, hmem, hfirst⟩ := exists_first_piece '(' (List.cons_ne_nil '"' u)
    obtain ⟨hclear, hpbal, -⟩ := of_mem_cuts (by decide) _ p hmem
    obtain ⟨v, rfl⟩ := exists_cons_of_piece (by decide) hp htail
    rw [hfirst] at h
    dsimp only at h
    split at h
    case isFalse => exact nomatch h
    case isTrue hends =>
      obtain ⟨hcontent, hblock⟩ := Prod.mk.inj (Except.ok.inj h)
      obtain ⟨r, hr, hpiece⟩ := Text.exists_eq_trim_cons (by decide : Text.isBlank '"' = false) v
      obtain ⟨x, hx⟩ := Text.exists_trim_cons (by decide : Text.isBlank '"' = false) v
      have hrest : '"' :: u = content ++ (r ++ tail) := by
        rw [hp, ← hcontent, ← List.append_assoc, ← hpiece]
      rw [hcontent] at hends hx
      have hlit : IsLiteral content :=
        { long := hends.2
          opened := by rw [hx]; rfl
          closed := hends.1
          balanced := hcontent ▸ balanced_trim_iff.mpr (hpbal hbal)
          clear := hcontent ▸ hclear.trim }
      rw [hcontent, hrest, List.drop_left, Text.trim_blank_append hr] at hblock
      obtain ⟨w, hw, htail⟩ := exists_block_of_tail htail hblock
      refine ⟨hlit, r, w, hr, hw, ?_⟩
      rw [hrest, htail]
      simp only [List.append_assoc]

/-- **What a content is read from**: itself, but the string of an older rule is trimmed between its
quotes. -/
def IsReadFrom (marker raw content : Text) : Prop :=
  if marker = Kind.legacyMarker then
    ∃ s : Text, '"' ∉ s ∧ raw = '"' :: s ++ ['"'] ∧ content = '"' :: s.trim ++ ['"']
  else raw = content

theorem isReadFrom_of_ne (h : marker ≠ Kind.legacyMarker) (t : Text) : IsReadFrom marker t t :=
  (if_neg h).mpr rfl

/-- **What is read is all there is.**  The kind admits the content, and the text read is what stands
for the content, a blank, the block and a blank. -/
theorem exists_of_readContent (hc : Text.isBlank c = false)
    (hmarker : Kind.ofMarker? marker = some kind)
    (h : readContent component marker kind (c :: t) = .ok (content, block)) :
    kind.Admits content
      ∧ ∃ raw w w' : Text, IsReadFrom marker raw content ∧ w.Blank ∧ w'.Blank
        ∧ c :: t = raw ++ w ++ block ++ w' := by
  rw [readContent.eq_def] at h
  split at h
  case isTrue hlegacy =>
    obtain rfl : kind = .text := by
      rw [hlegacy] at hmarker
      exact (Option.some.inj hmarker).symm
    obtain ⟨s, w, hs, hw, hcontent, hrest⟩ := of_legacyString h
    refine ⟨.inr ?_, '"' :: s ++ ['"'], w, [], ?_, hw, Text.blank_nil, ?_⟩
    · rw [hcontent]
      exact isLiteral_quoted (Text.notMem_trim hs)
    · rw [IsReadFrom, if_pos hlegacy]
      exact ⟨s, hs, rfl, hcontent⟩
    · rw [hrest, List.append_nil]
  case isFalse hlegacy =>
    have hfrom := isReadFrom_of_ne hlegacy
    cases kind with
    | node | multi =>
      obtain ⟨hsel, -, w, hw, hrest⟩ := of_selection hc (Except.ok.inj h)
      exact ⟨hsel, content, w, [], hfrom content, hw, Text.blank_nil, by
        rw [hrest, List.append_nil]⟩
    | text =>
      dsimp only at h
      split at h
      case isTrue hquote =>
        obtain ⟨hlit, w, w', hw, hw', hrest⟩ := of_literal hquote h
        exact ⟨.inr hlit, content, w, w', hfrom content, hw, hw', hrest⟩
      case isFalse hquote =>
        obtain ⟨hsel, hhead, w, hw, hrest⟩ := of_selection hc (Except.ok.inj h)
        refine ⟨.inl ⟨hsel, ?_⟩, content, w, [], hfrom content, hw, Text.blank_nil, ?_⟩
        · rwa [hhead]
        · rw [hrest, List.append_nil]
    | personality =>
      obtain ⟨rfl, rfl⟩ := Prod.mk.inj (Except.ok.inj h)
      exact ⟨rfl, [], [], [], hfrom [], Text.blank_nil, Text.blank_nil, by simp⟩

end Component

end MathSpeech.Rule
