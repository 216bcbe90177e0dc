import MathSpeech.Proofs.Decimal.Quantity
import MathSpeech.Value

/-!
# Proofs/Value/Keys — which values are one key

A key stands for null, for a text or for a **quantity**, whatever kind of number it is written as.
Two values are one key exactly if they stand for the same (`Value.sameKey_iff`), so that any form of
a key finds its entry (`Value.findKey_congr`).  A double that is no number, a list and a mapping
stand for none of these and are never found.

A mapping has **single keys** if no two of its entries have one key, and no two entries of a mapping
in it; writing keeps this (`Value.HasSingleKeys.putKey`).
-/

namespace MathSpeech.Value

open Decimal (Binary Quantity)

/-! ## What a key stands for -/

/-- **What a key stands for.** -/
inductive KeyForm
  | null
  | text (t : Text)
  | number (q : Quantity)
deriving DecidableEq

/-- **The form of a key**, if the value is the same key as any. -/
def keyForm? : Value → Option KeyForm
  | .null => some .null
  | .text t => some (.text t)
  | .float x => (Binary.ofFloat x).quantity?.map .number
  | v => v.whole?.map fun n => .number (.finite n)

theorem isWhole_iff {x : Float} {n : ℤ} :
    isWhole x n = true ↔ (Binary.ofFloat x).quantity? = some (.finite n) := by
  rw [isWhole]
  cases Binary.ofFloat x with
  | notANumber => exact iff_of_false nofun nofun
  | infinite negative => exact iff_of_false nofun nofun
  | finite negative m e =>
    obtain ⟨hden, hsize⟩ := Binary.cast_scaled m e
    have hpos : (0 : ℚ) ≤ m * 2 ^ e := by positivity
    have hden' : ((Decimal.Ratio.scaled m 2 e).den : ℚ) ≠ 0 := Nat.cast_ne_zero.mpr hden.ne'
    rw [Binary.quantity?, Option.some.injEq, Quantity.finite.injEq,
      Binary.signed_eq_intCast_iff hpos, ← hsize, div_eq_iff hden']
    norm_cast
    simp

theorem exists_form_iff {f g : KeyForm} : (∃ c, some f = some c ∧ some g = some c) ↔ f = g := by
  constructor
  · rintro ⟨c, hf, hg⟩
    exact Option.some.inj (hf.trans hg.symm)
  · rintro rfl
    exact ⟨f, rfl, rfl⟩

/-- **One key**: the two values stand for the same. -/
theorem sameKey_iff {v w : Value} :
    sameKey v w = true ↔ ∃ f, v.keyForm? = some f ∧ w.keyForm? = some f := by
  have hwhole (m n : ℤ) : (m == n) = true ↔ ∃ f, some (KeyForm.number (.finite m)) = some f
      ∧ some (KeyForm.number (.finite n)) = some f := by
    rw [exists_form_iff, beq_iff_eq, KeyForm.number.injEq, Quantity.finite.injEq, Int.cast_inj]
  cases v <;> cases w
  case text.text s t =>
    rw [sameKey, keyForm?, keyForm?, exists_form_iff, beq_iff_eq, KeyForm.text.injEq]
  case float.float x y => simp [sameKey, keyForm?, Binary.beq_iff_quantity?]
  -- what remains are two whole numbers, a whole number beside a double, or values of two kinds
  all_goals first
    | exact hwhole _ _
    | simp [sameKey, keyForm?, whole?, isWhole_iff]

/-- One key is one for every other. -/
theorem sameKey_congr {k k' : Value} (h : sameKey k k' = true) (v : Value) :
    sameKey v k = sameKey v k' := by
  obtain ⟨f, hk, hk'⟩ := sameKey_iff.mp h
  rw [Bool.eq_iff_iff, sameKey_iff, sameKey_iff, hk, hk']

theorem sameKey_comm (v w : Value) : sameKey v w = sameKey w v := by
  rw [Bool.eq_iff_iff, sameKey_iff, sameKey_iff]
  exact exists_congr fun f => and_comm

/-! ## Reading and writing -/

section Entries

variable {k k' v : Value} {es : List (Value × Value)}

/-- **Any form of a key** finds its entry. -/
theorem findKey_congr (h : sameKey k k' = true) : findKey k es = findKey k' es := by
  induction es with
  | nil => rfl
  | cons e rest ih => rw [findKey, findKey, sameKey_congr h, ih]

theorem findKey_eq_none_iff : findKey k es = none ↔ ∀ e ∈ es, sameKey e.1 k = false := by
  induction es with
  | nil => exact iff_of_true rfl fun e he => absurd he List.not_mem_nil
  | cons e rest ih =>
    rw [List.forall_mem_cons, ← ih, findKey]
    cases sameKey e.1 k <;> simp

/-- What is found is the value of an entry. -/
theorem mem_of_findKey (h : findKey k es = some v) : ∃ e ∈ es, e.2 = v := by
  induction es with
  | nil => cases h
  | cons e rest ih =>
    rw [findKey] at h
    split at h
    · exact ⟨e, List.mem_cons_self, Option.some.inj h⟩
    · obtain ⟨e', he', hv⟩ := ih h
      exact ⟨e', List.mem_cons_of_mem e he', hv⟩

/-- **Reading after writing**: the key written has the new value, every other key its old one. -/
theorem findKey_putKey :
    findKey k' (putKey k v es) = if sameKey k k' then some v else findKey k' es := by
  induction es with
  | nil => rfl
  | cons e rest ih =>
    obtain ⟨a, w⟩ := e
    rw [putKey]
    cases ha : sameKey a k with
    | true =>
      rw [if_pos rfl, findKey, findKey, sameKey_comm a, sameKey_comm k, sameKey_congr ha]
      split <;> rfl
    | false =>
      rw [if_neg Bool.false_ne_true, findKey, findKey, ih]
      cases hk : sameKey a k' with
      | false => rfl
      | true =>
        have hne : sameKey k k' = false := by
          rw [← ha, sameKey_comm a, ← sameKey_congr hk]
        rw [if_pos rfl, hne]
        rfl

theorem putKey_of_findKey_eq_none (h : findKey k es = none) : putKey k v es = es ++ [(k, v)] := by
  induction es with
  | nil => rfl
  | cons e rest ih =>
    obtain ⟨he, hrest⟩ := List.forall_mem_cons.mp (findKey_eq_none_iff.mp h)
    rw [putKey, he, if_neg Bool.false_ne_true, ih (findKey_eq_none_iff.mpr hrest), List.cons_append]

/-- An entry after writing has the value written, or its value was there before. -/
theorem mem_putKey {e : Value × Value} (h : e ∈ putKey k v es) :
    e.2 = v ∨ ∃ e' ∈ es, e'.2 = e.2 := by
  induction es with
  | nil => exact .inl (congrArg Prod.snd (List.mem_singleton.mp h))
  | cons e' rest ih =>
    rw [putKey] at h
    split at h
    · obtain rfl | h := List.mem_cons.mp h
      · exact .inl rfl
      · exact .inr ⟨e, List.mem_cons_of_mem e' h, rfl⟩
    · obtain rfl | h := List.mem_cons.mp h
      · exact .inr ⟨_, List.mem_cons_self, rfl⟩
      · exact (ih h).imp_right fun ⟨d, hd, heq⟩ => ⟨d, List.mem_cons_of_mem e' hd, heq⟩

/-- **The keys after writing**: a new key goes to the end. -/
theorem map_fst_putKey : (putKey k v es).map Prod.fst
    = if (findKey k es).isSome then es.map Prod.fst else es.map Prod.fst ++ [k] := by
  induction es with
  | nil => rfl
  | cons e rest ih =>
    rw [putKey, findKey]
    split
    · rfl
    · rw [List.map_cons, ih, List.map_cons, List.cons_append]
      split <;> rfl

end Entries

/-! ## Single keys -/

/-- No two entries have one key. -/
def Apart (entries : List (Value × Value)) : Prop :=
  (entries.map Prod.fst).Pairwise fun k k' => sameKey k k' = false

instance (entries : List (Value × Value)) : Decidable (Apart entries) :=
  inferInstanceAs (Decidable (List.Pairwise _ _))

theorem Apart.putKey {entries : List (Value × Value)} (h : Apart entries) (k v : Value) :
    Apart (putKey k v entries) := by
  rw [Apart, map_fst_putKey]
  split
  · exact h
  · rename_i hnew
    rw [Option.not_isSome_iff_eq_none, findKey_eq_none_iff] at hnew
    refine List.pairwise_append.mpr ⟨h, List.pairwise_singleton .., fun a ha b hb => ?_⟩
    obtain ⟨e, he, rfl⟩ := List.mem_map.mp ha
    rw [List.mem_singleton.mp hb]
    exact hnew e he

/-- **Single keys**, in a mapping and in the mappings that its keys lead to. -/
inductive HasSingleKeys : Value → Prop
  | other {v : Value} (h : v.isMap = false) : HasSingleKeys v
  | map {entries : List (Value × Value)} (hkeys : Apart entries)
      (hvalues : ∀ e ∈ entries, HasSingleKeys e.2) : HasSingleKeys (.map entries)

namespace HasSingleKeys

variable {entries : List (Value × Value)}

theorem map_iff :
    HasSingleKeys (.map entries) ↔ Apart entries ∧ ∀ e ∈ entries, HasSingleKeys e.2 := by
  constructor
  · rintro (h | ⟨hkeys, hvalues⟩)
    · cases h
    · exact ⟨hkeys, hvalues⟩
  · rintro ⟨hkeys, hvalues⟩
    exact .map hkeys hvalues

theorem nil : HasSingleKeys (.map []) := .map .nil fun _ h => absurd h List.not_mem_nil

/-- Writing keeps keys single. -/
theorem putKey {v : Value} (h : HasSingleKeys (.map entries)) (hv : HasSingleKeys v) (k : Value) :
    HasSingleKeys (.map (Value.putKey k v entries)) := by
  obtain ⟨hkeys, hvalues⟩ := map_iff.mp h
  refine .map (hkeys.putKey k v) fun e he => ?_
  obtain heq | ⟨e', he', heq⟩ := mem_putKey he
  · rwa [heq]
  · exact heq ▸ hvalues e' he'

end HasSingleKeys

end MathSpeech.Value
