import MathSpeech.Proofs.Value.Keys
import MathSpeech.Settings

/-!
# Proofs/Settings/Merge — what a merged mapping holds

The merge of two mappings is told path by path.  What the new one binds is merged with the value of
the same path in the old one; where the new one binds nothing, the old one is read, unless the new
one has **cut the path off** by a value that is no mapping (`Settings.at?_mergeOver_eq_some_iff`).

One step of a path is one key of both mappings (`Settings.findKey_mergeEntries`), and the keys of
the new one have to be single: a later entry of the same key would be merged into the first one.
-/

namespace MathSpeech.Settings

open Value (sameKey findKey putKey Apart HasSingleKeys)

variable {old : Option Value} {base new : List (Value × Value)} {k v w : Value}
  {path : List Value}

/-! ## One key -/

theorem mergeOver_of_isMap_eq_false (hv : v.isMap = false) : mergeOver old v = v := by
  cases v <;> first | rfl | cases hv

theorem isMap_mergeOver : (mergeOver old v).isMap = v.isMap := by
  cases hv : v.isMap with
  | false => rw [mergeOver_of_isMap_eq_false hv, hv]
  | true =>
    cases v with
    | map new =>
      unfold mergeOver
      split <;> rfl
    | _ => cases hv

/-- **What is no mapping** comes from the new value alone. -/
theorem mergeOver_eq_iff (hv : v.isMap = false) : mergeOver old w = v ↔ w = v := by
  constructor
  · rintro rfl
    rw [isMap_mergeOver] at hv
    exact (mergeOver_of_isMap_eq_false hv).symm
  · rintro rfl
    exact mergeOver_of_isMap_eq_false hv

/-- **One key of merged entries**: the new value, merged with the old one, or else the old one. -/
theorem findKey_mergeEntries (h : Apart new) : findKey k (mergeEntries base new)
    = (findKey k new).elim (findKey k base) fun w => some (mergeOver (findKey k base) w) := by
  induction new generalizing base with
  | nil => rfl
  | cons e rest ih =>
    obtain ⟨a, w⟩ := e
    obtain ⟨hfirst, hrest⟩ := List.pairwise_cons.mp h
    rw [mergeEntries, ih hrest, Value.findKey_putKey, findKey]
    cases ha : sameKey a k with
    | false => rfl
    | true =>
      -- no later entry has the key, so that the value just written is read
      have hnone : findKey k rest = none := by
        refine Value.findKey_eq_none_iff.mpr fun e he => ?_
        rw [← Value.sameKey_congr ha, Value.sameKey_comm]
        exact hfirst e.1 (List.mem_map_of_mem he)
      rw [hnone, Value.findKey_congr ha]
      rfl

theorem mergeOver_none : mergeOver none v = v := by cases v <;> rfl

/-- Over what is no mapping, a value is not merged. -/
theorem mergeOver_some_of_isMap_eq_false (hw : w.isMap = false) : mergeOver (some w) v = v := by
  cases w with
  | map entries => cases hw
  | _ => cases v <;> rfl

/-- **New keys go to the end** in the order in which they come. -/
theorem mergeEntries_of_apart (h : Apart (base ++ new)) : mergeEntries base new = base ++ new := by
  induction new generalizing base with
  | nil => rw [mergeEntries, List.append_nil]
  | cons e rest ih =>
    obtain ⟨k, v⟩ := e
    have hsnoc : base ++ (k, v) :: rest = (base ++ [(k, v)]) ++ rest := by
      rw [List.append_assoc, List.singleton_append]
    have hnew : findKey k base = none := by
      refine Value.findKey_eq_none_iff.mpr fun e he => ?_
      rw [Apart, List.map_append] at h
      exact (List.pairwise_append.mp h).2.2 e.1 (List.mem_map_of_mem he) k List.mem_cons_self
    rw [mergeEntries, hnew, mergeOver_none, Value.putKey_of_findKey_eq_none hnew, hsnoc]
    exact ih (hsnoc ▸ h)

/-- **Merging into the empty mapping** gives a copy. -/
theorem mergeOver_empty (h : Apart new) : mergeOver (some (.map [])) (.map new) = .map new := by
  have hcopy : mergeEntries [] new = [] ++ new := mergeEntries_of_apart h
  rw [mergeOver, hcopy, List.nil_append]

/-! ## Paths -/

/-- **A path is cut off**: a beginning of it leads to what is no mapping. -/
def IsCutOff (v : Value) (path : List Value) : Prop :=
  ∃ q w, q <+: path ∧ q ≠ path ∧ at? v q = some w ∧ w.isMap = false

theorem at?_cons : at? v (k :: path) = (at? v [k]).bind fun w => at? w path := by
  cases v with
  | map entries =>
    rw [at?, at?]
    cases findKey k entries <;> rfl
  | _ => rfl

theorem isCutOff_of_isMap_eq_false (hv : v.isMap = false) (hpath : path ≠ []) : IsCutOff v path :=
  ⟨[], v, List.nil_prefix, hpath.symm, rfl, hv⟩

/-- A path through a mapping is cut off behind its first key. -/
theorem isCutOff_cons_iff : IsCutOff (.map new) (k :: path)
    ↔ ∃ w, findKey k new = some w ∧ IsCutOff w path := by
  constructor
  · rintro ⟨q, w, hq, hne, hat, hw⟩
    cases q with
    | nil =>
      obtain rfl := Option.some.inj hat
      cases hw
    | cons a q =>
      obtain ⟨rfl, hrest⟩ := List.cons_prefix_cons.mp hq
      obtain ⟨u, hu, hat⟩ := Option.bind_eq_some_iff.mp hat
      exact ⟨u, hu, q, w, hrest, fun h => hne (congrArg _ h), hat, hw⟩
  · rintro ⟨u, hu, q, w, hq, hne, hat, hw⟩
    have hat' : at? (.map new) (k :: q) = some w := by
      rw [at?, hu]
      exact hat
    refine ⟨k :: q, w, List.cons_prefix_cons.mpr ⟨rfl, hq⟩, ?_, hat', hw⟩
    exact fun h => hne (List.cons.inj h).2

/-- **An old value counts only as a mapping**: any other is not merged, and holds nothing. -/
theorem eq_map_or_ignored (old : Option Value) (k : Value) : (∃ base, old = some (.map base))
    ∨ (∀ v, mergeOver old v = v) ∧ (old.bind fun v => at? v [k]) = none := by
  cases old with
  | none => exact .inr ⟨fun v => mergeOver_none, rfl⟩
  | some w =>
    cases w with
    | map base => exact .inl ⟨base, rfl⟩
    | _ => exact .inr ⟨fun v => mergeOver_some_of_isMap_eq_false rfl, rfl⟩

theorem at?_map_singleton : at? (.map new) [k] = findKey k new := by
  rw [at?]
  cases findKey k new <;> rfl

/-- **One step into a merged mapping.** -/
theorem at?_mergeOver_singleton (h : Apart new) : at? (mergeOver old (.map new)) [k]
    = (findKey k new).elim (old.bind fun v => at? v [k])
      fun w => some (mergeOver (old.bind fun v => at? v [k]) w) := by
  obtain ⟨base, rfl⟩ | ⟨hold, hnone⟩ := eq_map_or_ignored old k
  · rw [mergeOver, Option.bind_some, at?_map_singleton, at?_map_singleton, findKey_mergeEntries h]
  · rw [hold, hnone, at?_map_singleton]
    cases findKey k new with
    | none => rfl
    | some w => rw [Option.elim_some, mergeOver_none]

/-- **What a path leads to in merged values**: what it leads to in the new value, merged with the
old one, or where the new value binds nothing and does not cut the path off, what it leads to in the
old one. -/
theorem at?_mergeOver_eq_some_iff {u : Value} (h : HasSingleKeys v) :
    at? (mergeOver old v) path = some u
      ↔ (∃ w, at? v path = some w ∧ mergeOver (old.bind fun v => at? v path) w = u)
        ∨ at? v path = none ∧ ¬ IsCutOff v path ∧ (old.bind fun v => at? v path) = some u := by
  induction path generalizing old v with
  | nil => simp [at?]
  | cons k path ih =>
    cases h with
    | other hv =>
      -- the new value cuts the path off
      have hnone : at? v (k :: path) = none := by cases v <;> first | rfl | cases hv
      rw [mergeOver_of_isMap_eq_false hv, hnone]
      simp [isCutOff_of_isMap_eq_false hv]
    | @map new hkeys hvalues =>
      have hstep : (old.bind fun v => at? v (k :: path))
          = (old.bind fun v => at? v [k]).bind fun v => at? v path := by
        rw [Option.bind_assoc]
        exact congrArg old.bind (funext fun v => at?_cons)
      have hat : at? (.map new) (k :: path) = (findKey k new).bind fun v => at? v path := rfl
      rw [at?_cons, at?_mergeOver_singleton hkeys, hat, hstep, isCutOff_cons_iff]
      cases hw : findKey k new with
      | none => simp
      | some w =>
        obtain ⟨e, he, rfl⟩ := Value.mem_of_findKey hw
        rw [Option.elim_some, Option.bind_some, ih (hvalues e he)]
        simp

/-- **The path law of a merge**: a value that is no mapping stands where the new mapping has it, or
where the old one has it and the new one neither binds the path nor cuts it off. -/
theorem at?_merge_eq_some_iff (hnew : HasSingleKeys (.map new)) (hv : v.isMap = false) :
    at? (mergeOver (some (.map base)) (.map new)) path = some v
      ↔ at? (.map new) path = some v
        ∨ at? (.map base) path = some v ∧ at? (.map new) path = none
          ∧ ¬ IsCutOff (.map new) path := by
  rw [at?_mergeOver_eq_some_iff hnew, Option.bind_some]
  simp only [mergeOver_eq_iff hv, exists_eq_right]
  tauto

end MathSpeech.Settings
