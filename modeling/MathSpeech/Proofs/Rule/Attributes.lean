import MathSpeech.Proofs.Rule.Quotation
import MathSpeech.Rule.Component.Parser

/-!
# Proofs/Rule/Attributes — a block of attributes holds exactly the legible ones

An attribute is **legible** if its token, the name and the value with a colon between, is read back
as that attribute.  Two halves:

* whatever a block of attributes says, all that is read from it is legible
  (`legible_of_mem_readBlock`), and its marks stay where they were (`clear_of_mem_readBlock`);
* legible attributes are read back from the block they are written as (`readBlock_bracketed_self`).

Reading a block never takes a name away (`keys_isPrefix_readBlock`).  `StandIn` is what a component
makes of its block: no block and no attributes, or a block that is read without a fault.
-/

namespace MathSpeech.Rule.Attributes

open Text (joined)

variable {mark : Char} {l name value token block inner : Text} {a : Text × Text}
  {as as' : Attributes}

/-! ## Tokens -/

/-- The token of an attribute: name and value with a colon between. -/
def written (a : Text × Text) : Text := a.1 ++ ':' :: a.2

/-- **A legible attribute**: one that is read back from its token. -/
structure Legible (a : Text × Text) : Prop where
  named : a.1 ≠ []
  trimmed : a.1.trim = a.1
  plain : ':' ∉ a.1
  value : a.2.trim = a.2
  balanced : Balanced (written a)
  clear : Clear ',' (written a)

theorem written_ne_nil (a : Text × Text) : written a ≠ [] := by
  simp [written]

/-- The name of a legible attribute begins with a character that is seen. -/
theorem Legible.exists_cons (h : Legible a) : ∃ c s, a.1 = c :: s ∧ Text.isBlank c = false := by
  obtain ⟨c, s, hs⟩ := List.exists_cons_of_ne_nil h.named
  have htrim := h.trimmed
  rw [hs] at htrim
  exact ⟨c, s, hs, Text.isBlank_of_trim_eq_cons htrim⟩

/-- Trimming the name and the value moves no mark. -/
theorem clear_written_trim (h : Clear mark (written (name, value))) :
    Clear mark (written (name.trim, value.trim)) := by
  rw [clear_iff, written, sheltered_append, sheltered_cons] at h ⊢
  rw [insideAfter_trim]
  exact ⟨h.1.trim, h.2.1, h.2.2.trim⟩

theorem balanced_written_trim (h : Balanced (written (name, value))) :
    Balanced (written (name.trim, value.trim)) := by
  rw [balanced_iff, written, insideAfter_append, insideAfter_cons] at h ⊢
  rwa [insideAfter_trim, insideAfter_trim]

theorem legible_written_trim (hname : name.trim ≠ []) (hcolon : ':' ∉ name)
    (hb : Balanced (written (name, value))) (hc : Clear ',' (written (name, value))) :
    Legible (name.trim, value.trim) where
  named := hname
  trimmed := Text.trim_trim name
  plain := Text.notMem_trim hcolon
  value := Text.trim_trim value
  balanced := balanced_written_trim hb
  clear := clear_written_trim hc

/-- A bare name is written with the value it gets, which has no marks but its own. -/
theorem clear_written_bare (hmark : mark ∉ (":true" : String).toList) (hb : Balanced token)
    (hc : Clear mark token) : Clear mark (written (token.trim, "true")) :=
  (clear_append_iff (balanced_trim_iff.mpr hb)).mpr ⟨hc.trim, clear_of_notMem hmark⟩

theorem legible_written_bare (hname : token.trim ≠ []) (hcolon : ':' ∉ token)
    (hb : Balanced token) (hc : Clear ',' token) : Legible (token.trim, "true") where
  named := hname
  trimmed := Text.trim_trim token
  plain := Text.notMem_trim hcolon
  value := rfl
  balanced := (balanced_append_iff (balanced_trim_iff.mpr hb)).mpr rfl
  clear := clear_written_bare (by decide) hb hc

/-- A token that can be read writes one attribute. -/
theorem exists_insert_of_readToken (h : readToken as token = .ok as') :
    ∃ name value, as' = as.insert name value := by
  rw [readToken] at h
  split at h
  all_goals
    split at h
    · exact nomatch h
    · exact ⟨_, _, (Except.ok.inj h).symm⟩

/-- **What a token gives**: a legible attribute, whose own token is clear of every mark of which the
token read was.  The marks of the value that a bare name gets do not count. -/
theorem exists_of_readToken (h : readToken as token = .ok as') (hb : Balanced token)
    (hc : Clear ',' token) :
    ∃ a, Legible a ∧ as' = as.insert a.1 a.2
      ∧ ∀ mark, mark ∉ (":true" : String).toList → Clear mark token → Clear mark (written a) := by
  rw [readToken] at h
  cases hcut : token.cut ':' with
  | none =>
    rw [hcut] at h
    dsimp only at h
    split at h
    case isTrue => exact nomatch h
    case isFalse hne =>
      have hname : token.trim ≠ [] := by simpa using hne
      refine ⟨(token.trim, "true"), ?_, (Except.ok.inj h).symm, ?_⟩
      · exact legible_written_bare hname (Text.cut_eq_none_iff.mp hcut) hb hc
      · exact fun mark hmark => clear_written_bare hmark hb
  | some parts =>
    obtain ⟨name, value⟩ := parts
    rw [hcut] at h
    dsimp only at h
    split at h
    case isTrue => exact nomatch h
    case isFalse hne =>
      obtain rfl : token = written (name, value) := Text.eq_of_cut hcut
      have hname : name.trim ≠ [] := by simpa using hne
      refine ⟨(name.trim, value.trim), ?_, (Except.ok.inj h).symm, ?_⟩
      · exact legible_written_trim hname (Text.notMem_of_cut hcut) hb hc
      · exact fun mark _ => clear_written_trim

/-- **A legible attribute is read back from its token**, behind whatever blank. -/
theorem readToken_written (h : Legible a) (hl : Text.Blank l) (as : Attributes) :
    readToken as (l ++ written a) = .ok (as.insert a.1 a.2) := by
  have hcolon : ':' ∉ l ++ a.1 := fun hm => (List.mem_append.mp hm).elim
    (hl.notMem (by decide)) h.plain
  have hcut : Text.cut ':' (l ++ written a) = some (l ++ a.1, a.2) := by
    rw [written, ← List.append_assoc]
    exact Text.cut_append hcolon a.2
  rw [readToken, hcut]
  dsimp only
  rw [Text.trim_blank_append hl, h.trimmed, h.value, if_neg (by simpa using h.named)]

/-! ## Lists of tokens -/

/-- **What one token keeps, all tokens keep**, up to the first faulty one. -/
theorem forall_mem_readTokens {P : Text × Text → Prop} {tokens : List Text}
    (step : ∀ token ∈ tokens, ∀ as as', readToken as token = .ok as' →
      ∃ a, P a ∧ as' = as.insert a.1 a.2)
    (has : ∀ a ∈ as.entries, P a) : ∀ a ∈ (readTokens as tokens).1.entries, P a := by
  induction tokens generalizing as with
  | nil => exact has
  | cons token rest ih =>
    have ih := @ih
    have hrest := fun token ht => step token (List.mem_cons_of_mem _ ht)
    rw [readTokens]
    split
    · exact ih hrest has
    · split
      case h_1 as' h =>
        obtain ⟨a, ha, rfl⟩ := step token List.mem_cons_self as as' h
        refine ih hrest fun b hb => ?_
        rcases OrderedMap.mem_entries_insert hb with rfl | hb
        · exact ha
        · exact has b hb
      case h_2 => exact has

/-- **Names stay**, in their places, whether or not a token is faulty. -/
theorem keys_isPrefix_readTokens (as : Attributes) (tokens : List Text) :
    as.keys <+: (readTokens as tokens).1.keys := by
  induction tokens generalizing as with
  | nil => exact List.prefix_rfl
  | cons token rest ih =>
    rw [readTokens]
    split
    · exact ih as
    · split
      case h_1 as' h =>
        obtain ⟨name, value, rfl⟩ := exists_insert_of_readToken h
        exact (as.keys_isPrefix_insert name value).trans (ih _)
      case h_2 => exact List.prefix_rfl

/-- A token that says something is read before the others. -/
theorem readTokens_written (h : Legible a) (hl : Text.Blank l) (as : Attributes)
    (rest : List Text) :
    readTokens as ((l ++ written a) :: rest) = readTokens (as.insert a.1 a.2) rest := by
  obtain ⟨c, s, hs, hc⟩ := h.exists_cons
  have hseen : ¬ (l ++ written a).trim.isEmpty = true := fun he => by
    have hblank := Text.trim_eq_nil_iff.mp (List.isEmpty_iff.mp he)
    have hmem : c ∈ l ++ written a := by
      rw [written, hs]
      simp
    rw [hblank c hmem] at hc
    exact Bool.noConfusion hc
  rw [readTokens, if_neg hseen, readToken_written h hl]

/-- **Legible attributes are read back from their tokens** in order. -/
theorem readTokens_map_written {es : List (Text × Text)} (h : ∀ a ∈ es, Legible a)
    (as : Attributes) :
    readTokens as (es.map fun a => ' ' :: written a) = (as.insertAll es, none) := by
  induction es generalizing as with
  | nil => rfl
  | cons a es ih =>
    have hstep := readTokens_written (h a List.mem_cons_self) Text.blank_space as
      (es.map fun a => ' ' :: written a)
    rw [ih fun b hb => h b (List.mem_cons_of_mem a hb)] at hstep
    exact hstep

/-! ## Blocks -/

/-- A text in brackets, with what stands between them. -/
theorem exists_bracketed_iff :
    (block.head? = some '(' ∧ block.getLast? = some ')')
      ↔ ∃ inner, block = '(' :: inner ++ [')'] := by
  constructor
  · rintro ⟨hhead, hlast⟩
    cases block with
    | nil => exact nomatch hhead
    | cons c t =>
      obtain rfl : c = '(' := Option.some.inj hhead
      rcases List.eq_nil_or_concat t with rfl | ⟨inner, d, rfl⟩
      · exact absurd hlast (by decide)
      · rw [List.concat_eq_append, ← List.cons_append, List.getLast?_concat] at hlast
        obtain rfl : d = ')' := Option.some.inj hlast
        exact ⟨inner, by rw [List.concat_eq_append, List.cons_append]⟩
  · rintro ⟨inner, rfl⟩
    exact ⟨rfl, List.getLast?_concat⟩

/-- **Reading a bracketed block**: its tokens stand between the commas outside strings. -/
theorem readBlock_bracketed (h : block.trim = '(' :: inner ++ [')']) (as : Attributes) :
    readBlock as block
      = if Balanced inner then readTokens as (withoutEmptyEnd (cuts ',' false inner))
        else (as, some (.openString inner)) := by
  have hinner : ('(' :: inner ++ [')']).tail.dropLast = inner := by
    rw [List.cons_append, List.tail_cons, List.dropLast_concat]
  rw [readBlock, if_pos (exists_bracketed_iff.mpr ⟨inner, h⟩), h, hinner, split_eq (by decide)]
  by_cases hb : Balanced inner
  · rw [if_pos hb, if_pos hb]
  · rw [if_neg hb, if_neg hb]

/-- A block that is not in brackets gives nothing. -/
theorem readBlock_of_not_bracketed (h : ¬ ∃ inner, block.trim = '(' :: inner ++ [')'])
    (as : Attributes) : readBlock as block = (as, some (.malformedAttributes block.trim)) := by
  rw [readBlock, if_neg fun hb => h (exists_bracketed_iff.mp hb)]

/-- **What holds of all that a block can give holds after reading it.** -/
theorem forall_mem_readBlock {P : Text × Text → Prop}
    (step : ∀ inner, block.trim = '(' :: inner ++ [')'] → Balanced inner →
      ∀ token ∈ cuts ',' false inner, ∀ as as', readToken as token = .ok as' →
        ∃ a, P a ∧ as' = as.insert a.1 a.2)
    (has : ∀ a ∈ as.entries, P a) : ∀ a ∈ (readBlock as block).1.entries, P a := by
  by_cases hex : ∃ inner, block.trim = '(' :: inner ++ [')']
  · obtain ⟨inner, h⟩ := hex
    rw [readBlock_bracketed h]
    split
    case isTrue hb =>
      exact forall_mem_readTokens
        (fun token ht => step inner h hb token (mem_of_mem_withoutEmptyEnd ht)) has
    case isFalse => exact has
  · rw [readBlock_of_not_bracketed hex]
    exact has

/-- **Names stay** when a block is read, whether or not it has a fault. -/
theorem keys_isPrefix_readBlock (as : Attributes) (block : Text) :
    as.keys <+: (readBlock as block).1.keys := by
  by_cases hex : ∃ inner, block.trim = '(' :: inner ++ [')']
  · obtain ⟨inner, h⟩ := hex
    rw [readBlock_bracketed h]
    split
    · exact keys_isPrefix_readTokens as _
    · exact List.prefix_rfl
  · have hkeep : as.keys = (readBlock as block).1.keys := by
      rw [readBlock_of_not_bracketed hex]
    exact ⟨[], (List.append_nil _).trans hkeep⟩

/-- **All that is read from a block is legible.** -/
theorem legible_of_mem_readBlock (block : Text) (has : ∀ a ∈ as.entries, Legible a) :
    ∀ a ∈ (readBlock as block).1.entries, Legible a :=
  forall_mem_readBlock (fun inner _ hb token ht as as' h => by
    obtain ⟨hcomma, hbal, -⟩ := of_mem_cuts (by decide) inner token ht
    obtain ⟨a, ha, has', -⟩ := exists_of_readToken h (hbal hb) hcomma
    exact ⟨a, ha, has'⟩) has

/-- **What a block is clear of, its attributes are clear of**, but for the value `true`. -/
theorem clear_of_mem_readBlock (hm : mark ∉ (":true" : String).toList) (hblock : Clear mark block)
    (has : ∀ a ∈ as.entries, Clear mark (written a)) :
    ∀ a ∈ (readBlock as block).1.entries, Clear mark (written a) :=
  forall_mem_readBlock (fun inner hinner hb token ht as as' h => by
    obtain ⟨hcomma, hbal, hmarks⟩ := of_mem_cuts (by decide) inner token ht
    obtain ⟨a, -, has', hclear⟩ := exists_of_readToken h (hbal hb) hcomma
    have hin : Clear mark inner := by
      have htrim := hblock.trim
      rw [hinner, clear_iff, List.cons_append, sheltered_cons, sheltered_append] at htrim
      exact clear_iff.mpr htrim.2.1
    exact ⟨a, hclear mark hm (hmarks mark hin), has'⟩) has

/-- A block that is read without a fault is in brackets and balanced. -/
theorem exists_inner_of_readBlock (h : readBlock as block = (as', none)) :
    ∃ inner, block.trim = '(' :: inner ++ [')'] ∧ Balanced inner := by
  by_cases hex : ∃ inner, block.trim = '(' :: inner ++ [')']
  · obtain ⟨inner, hinner⟩ := hex
    refine ⟨inner, hinner, ?_⟩
    by_contra hb
    rw [readBlock_bracketed hinner, if_neg hb] at h
    exact nomatch (Prod.mk.inj h).2
  · rw [readBlock_of_not_bracketed hex] at h
    exact nomatch (Prod.mk.inj h).2

/-! ## What stands in a block

A component without a block has no attributes; else its block must be read without a fault. -/

/-- **The attributes that stand in a block**: those read from it, and none if there is no block. -/
def StandIn (block : Text) (as : Attributes) : Prop :=
  block = [] ∧ as = .empty ∨ readBlock .empty block = (as, none)

theorem standIn_nil_iff : StandIn [] as ↔ as = .empty := by
  constructor
  · rintro (h | h)
    · exact h.2
    · exact nomatch (Prod.mk.inj h).2
  · exact fun h => .inl ⟨rfl, h⟩

/-- A block that is there is read. -/
theorem StandIn.readBlock_eq (h : StandIn block as) (hne : block ≠ []) :
    readBlock .empty block = (as, none) := h.resolve_left fun hnil => hne hnil.1

/-- **Blanks around a block do not count.** -/
theorem StandIn.trim (h : StandIn block as) : StandIn block.trim as := by
  rcases h with ⟨rfl, has⟩ | h
  · exact .inl ⟨rfl, has⟩
  · refine .inr ?_
    rwa [readBlock, Text.trim_trim]

/-- Trimmed, a block is nothing or a balanced text in brackets. -/
theorem StandIn.exists_inner (h : StandIn block as) :
    block = [] ∨ ∃ inner, block.trim = '(' :: inner ++ [')'] ∧ Balanced inner :=
  h.imp And.left exists_inner_of_readBlock

theorem StandIn.balanced (h : StandIn block as) : Balanced block := by
  rcases h.exists_inner with rfl | ⟨inner, htrim, hinner⟩
  · exact balanced_nil
  · have hclose : Balanced [')'] := rfl
    have hbracketed : Balanced ('(' :: inner ++ [')']) :=
      (balanced_append_iff_left hclose).mpr hinner
    rwa [← htrim, balanced_trim_iff] at hbracketed

/-- **All that stands in a block is legible.** -/
theorem StandIn.legible (h : StandIn block as) : ∀ a ∈ as.entries, Legible a := by
  rcases h with ⟨-, rfl⟩ | h
  · exact fun a ha => absurd ha (OrderedMap.notMem_empty a)
  · have hread := legible_of_mem_readBlock block fun a ha =>
      absurd ha (OrderedMap.notMem_empty a)
    rwa [h] at hread

theorem StandIn.clear (h : StandIn block as) (hm : mark ∉ (":true" : String).toList)
    (hblock : Clear mark block) : ∀ a ∈ as.entries, Clear mark (written a) := by
  rcases h with ⟨-, rfl⟩ | h
  · exact fun a ha => absurd ha (OrderedMap.notMem_empty a)
  · have hread := clear_of_mem_readBlock hm hblock fun a ha =>
      absurd ha (OrderedMap.notMem_empty a)
    rwa [h] at hread

/-! ## Writing a block -/

/-- The block that attributes are written as. -/
def bracketed (as : Attributes) : Text :=
  '(' :: joined ", " (as.entries.map written) ++ [')']

/-- **Legible attributes are read back from their block.** -/
theorem readBlock_bracketed_self (h : ∀ a ∈ as.entries, Legible a) (hne : as.entries ≠ []) :
    readBlock .empty (bracketed as) = (as, none) := by
  obtain ⟨a, es, hes⟩ := List.exists_cons_of_ne_nil hne
  have hwritten : ∀ t ∈ as.entries.map written, Balanced t ∧ Clear ',' t := fun t ht => by
    obtain ⟨b, hb, rfl⟩ := List.mem_map.mp ht
    exact ⟨(h b hb).balanced, (h b hb).clear⟩
  have hfilled : ∀ t ∈ written a :: (es.map written).map (' ' :: ·), t ≠ [] := fun t ht => by
    rcases List.mem_cons.mp ht with rfl | ht
    · exact written_ne_nil a
    · obtain ⟨b, -, rfl⟩ := List.mem_map.mp ht
      exact List.cons_ne_nil ' ' b
  have htrim : (bracketed as).trim = bracketed as :=
    Text.trim_cons_append (by decide) (by decide) _
  have hcuts : cuts ',' false (joined ", " (as.entries.map written))
      = written a :: (es.map written).map (' ' :: ·) := by
    rw [hes, List.map_cons] at hwritten ⊢
    exact cuts_joined (by decide) hwritten
  have htokens : (es.map written).map (' ' :: ·) = es.map fun a => ' ' :: written a :=
    List.map_map
  rw [readBlock_bracketed htrim,
    if_pos (balanced_joined (by decide) fun t ht => (hwritten t ht).1), hcuts,
    withoutEmptyEnd_of_ne_nil hfilled, htokens]
  rw [hes] at h
  have hfirst := readTokens_written (h a List.mem_cons_self) Text.blank_nil .empty
    (es.map fun a => ' ' :: written a)
  rw [List.nil_append] at hfirst
  rw [hfirst, readTokens_map_written fun b hb => h b (List.mem_cons_of_mem a hb)]
  have hall : OrderedMap.insertAll (OrderedMap.insert .empty a.1 a.2) es
      = OrderedMap.ofList as.entries := by rw [hes]; rfl
  rw [hall, OrderedMap.ofList_entries]

end MathSpeech.Rule.Attributes
