/-!
# OrderedMap — a map that remembers the order of its keys

An **ordered map** is a list of entries with distinct keys.  Writing to a key that is present
replaces its value and leaves the key where it is; a new key goes to the end.  Main statements:

* `OrderedMap.get?_insert` — reading after writing;
* `OrderedMap.keys_insert` — the keys after writing, in order;
* `OrderedMap.ext_get?` — maps with the same keys, in order, and the same values are the same.
-/

namespace MathSpeech

/-- **An ordered map**: entries with distinct keys, in the order in which the keys came. -/
structure OrderedMap (κ ν : Type) where
  /-- The entries, each key with its value. -/
  entries : List (κ × ν)
  /-- No key has two entries. -/
  nodup : (entries.map Prod.fst).Nodup

namespace OrderedMap

variable {κ ν : Type}

/-! ## Entries

The operations on the list of entries; the map operations below carry their proofs. -/

/-- The value of a key. -/
def find? [DecidableEq κ] (k : κ) : List (κ × ν) → Option ν
  | [] => none
  | (k', v) :: rest => if k' = k then some v else find? k rest

/-- The entries after `k` is given the value `v`. -/
def put [DecidableEq κ] (k : κ) (v : ν) : List (κ × ν) → List (κ × ν)
  | [] => [(k, v)]
  | (k', v') :: rest => if k' = k then (k, v) :: rest else (k', v') :: put k v rest

/-- The entries without that of `k`. -/
def drop [DecidableEq κ] (k : κ) : List (κ × ν) → List (κ × ν)
  | [] => []
  | (k', v) :: rest => if k' = k then rest else (k', v) :: drop k rest

theorem map_fst_put [DecidableEq κ] (k : κ) (v : ν) (es : List (κ × ν)) :
    (put k v es).map Prod.fst
      = if k ∈ es.map Prod.fst then es.map Prod.fst else es.map Prod.fst ++ [k] := by
  induction es with
  | nil => simp [put]
  | cons e rest ih =>
    obtain ⟨k', v'⟩ := e
    simp only [put]
    by_cases h : k' = k
    · subst h; simp
    · simp only [if_neg h, List.map_cons, ih, List.mem_cons]
      have hk : ¬ k = k' := fun e => h e.symm
      simp only [hk, false_or]
      split <;> simp

theorem sublist_drop [DecidableEq κ] (k : κ) (es : List (κ × ν)) :
    List.Sublist (drop k es) es := by
  induction es with
  | nil => simp [drop]
  | cons e rest ih =>
    obtain ⟨k', v'⟩ := e
    simp only [drop]
    split
    · exact List.sublist_cons_self ..
    · exact ih.cons_cons _

theorem nodup_put [DecidableEq κ] (k : κ) (v : ν) {es : List (κ × ν)}
    (h : (es.map Prod.fst).Nodup) : ((put k v es).map Prod.fst).Nodup := by
  rw [map_fst_put]
  split
  · exact h
  · rename_i hk
    exact List.nodup_append.mpr ⟨h, by simp, by
      intro a ha b hb
      simp at hb
      subst hb
      exact fun e => hk (e ▸ ha)⟩

/-! ## The map -/

theorem ext {m n : OrderedMap κ ν} (h : m.entries = n.entries) : m = n := by
  cases m; cases n; simp_all

instance [DecidableEq κ] [DecidableEq ν] : DecidableEq (OrderedMap κ ν) := fun m n =>
  if h : m.entries = n.entries then isTrue (ext h) else isFalse fun e => h (e ▸ rfl)

/-- The map without entries. -/
def empty : OrderedMap κ ν := ⟨[], by simp⟩

theorem notMem_empty (e : κ × ν) : e ∉ (empty : OrderedMap κ ν).entries := List.not_mem_nil

instance : EmptyCollection (OrderedMap κ ν) := ⟨empty⟩

instance : Inhabited (OrderedMap κ ν) := ⟨empty⟩

/-- The keys in order. -/
def keys (m : OrderedMap κ ν) : List κ := m.entries.map Prod.fst

theorem keys_eq_nil_iff {m : OrderedMap κ ν} : m.keys = [] ↔ m.entries = [] := List.map_eq_nil_iff

/-- The values in the order of their keys. -/
def values (m : OrderedMap κ ν) : List ν := m.entries.map Prod.snd

/-- The number of entries. -/
def size (m : OrderedMap κ ν) : Nat := m.entries.length

/-- A map without entries is empty. -/
def isEmpty (m : OrderedMap κ ν) : Bool := m.entries.isEmpty

/-- A map with one entry. -/
def singleton (k : κ) (v : ν) : OrderedMap κ ν := ⟨[(k, v)], by simp⟩

variable [DecidableEq κ]

/-- The value of a key, if it has one. -/
def get? (m : OrderedMap κ ν) (k : κ) : Option ν := find? k m.entries

/-- A key with a value. -/
def contains (m : OrderedMap κ ν) (k : κ) : Bool := (m.get? k).isSome

/-- **Writing**: `k` gets the value `v`; a key that is present keeps its place. -/
def insert (m : OrderedMap κ ν) (k : κ) (v : ν) : OrderedMap κ ν :=
  ⟨put k v m.entries, nodup_put k v m.nodup⟩

/-- The map without the key `k`. -/
def erase (m : OrderedMap κ ν) (k : κ) : OrderedMap κ ν :=
  ⟨drop k m.entries, ((sublist_drop k m.entries).map Prod.fst).nodup m.nodup⟩

/-- Writes all entries of a list, in order. -/
def insertAll (m : OrderedMap κ ν) (es : List (κ × ν)) : OrderedMap κ ν :=
  es.foldl (fun m e => m.insert e.1 e.2) m

/-- Writes all entries of `n` into `m`. -/
def update (m n : OrderedMap κ ν) : OrderedMap κ ν := m.insertAll n.entries

/-- The map that a list of entries writes: the last value of a key counts, its first place stays. -/
def ofList (es : List (κ × ν)) : OrderedMap κ ν := empty.insertAll es

/-- Changes the value of a key, where a missing value counts as `default`. -/
def adjust (m : OrderedMap κ ν) (k : κ) (default : ν) (f : ν → ν) : OrderedMap κ ν :=
  m.insert k (f ((m.get? k).getD default))

/-- **The same entries**, in whatever order. -/
def sameEntries [DecidableEq ν] (m n : OrderedMap κ ν) : Bool :=
  m.size == n.size && m.entries.all fun (k, v) => n.get? k == some v

/-! ## Reading after writing -/

@[simp] theorem get?_empty (k : κ) : (empty : OrderedMap κ ν).get? k = none := rfl

theorem get?_singleton (k : κ) (v : ν) (k' : κ) :
    (singleton k v).get? k' = if k = k' then some v else none := rfl

theorem find?_put (k : κ) (v : ν) (es : List (κ × ν)) (k' : κ) :
    find? k' (put k v es) = if k = k' then some v else find? k' es := by
  induction es with
  | nil => simp [put, find?]
  | cons e rest ih =>
    obtain ⟨a, w⟩ := e
    simp only [put]
    by_cases h : a = k
    · subst h; simp [find?]; grind
    · simp only [if_neg h, find?, ih]
      grind

/-- **Reading after writing**: the key written has the new value, every other key its old one. -/
theorem get?_insert (m : OrderedMap κ ν) (k : κ) (v : ν) (k' : κ) :
    (m.insert k v).get? k' = if k = k' then some v else m.get? k' :=
  find?_put k v m.entries k'

@[simp] theorem get?_insert_self (m : OrderedMap κ ν) (k : κ) (v : ν) :
    (m.insert k v).get? k = some v := by simp [get?_insert]

theorem find?_isSome_iff (k : κ) (es : List (κ × ν)) :
    (find? k es).isSome ↔ k ∈ es.map Prod.fst := by
  induction es with
  | nil => simp [find?]
  | cons e rest ih =>
    obtain ⟨a, w⟩ := e
    simp only [find?]
    by_cases h : a = k
    · simp [h]
    · have : ¬ k = a := fun e => h e.symm
      simp only [if_neg h, ih, List.map_cons, List.mem_cons, this, false_or]

theorem find?_eq_some_iff {k : κ} {v : ν} {es : List (κ × ν)} (h : (es.map Prod.fst).Nodup) :
    find? k es = some v ↔ (k, v) ∈ es := by
  induction es with
  | nil => simp [find?]
  | cons e rest ih =>
    obtain ⟨a, w⟩ := e
    obtain ⟨hnew, hrest⟩ := List.nodup_cons.mp h
    rw [find?]
    split
    · rename_i ha
      subst ha
      have hk : (a, v) ∉ rest := fun hm => hnew (List.mem_map.mpr ⟨_, hm, rfl⟩)
      simp [hk, eq_comm]
    · rename_i ha
      rw [ih hrest, List.mem_cons, Prod.mk.injEq]
      exact ⟨.inr, fun h => h.resolve_left fun e => ha e.1.symm⟩

/-- **The value of a key** is the one it has an entry with. -/
theorem get?_eq_some_iff {m : OrderedMap κ ν} {k : κ} {v : ν} :
    m.get? k = some v ↔ (k, v) ∈ m.entries := find?_eq_some_iff m.nodup

/-- A value is the value of some key. -/
theorem mem_values {m : OrderedMap κ ν} {v : ν} : v ∈ m.values ↔ ∃ k, m.get? k = some v := by
  simp only [values, List.mem_map, Prod.exists, exists_eq_right, get?_eq_some_iff]

/-- A key is present exactly when it is one of the keys. -/
theorem contains_iff (m : OrderedMap κ ν) (k : κ) : m.contains k ↔ k ∈ m.keys :=
  find?_isSome_iff k m.entries

theorem mem_keys {m : OrderedMap κ ν} {k : κ} : k ∈ m.keys ↔ ∃ v, m.get? k = some v := by
  rw [← contains_iff, contains, Option.isSome_iff_exists]

/-- **The keys after writing**: a new key goes to the end. -/
theorem keys_insert (m : OrderedMap κ ν) (k : κ) (v : ν) :
    (m.insert k v).keys = if k ∈ m.keys then m.keys else m.keys ++ [k] :=
  map_fst_put k v m.entries

/-- Writing keeps the keys and their places. -/
theorem keys_isPrefix_insert (m : OrderedMap κ ν) (k : κ) (v : ν) :
    m.keys <+: (m.insert k v).keys := by
  rw [keys_insert]
  split
  · exact List.prefix_rfl
  · exact List.prefix_append ..

/-! ## Entries after writing -/

theorem mem_put {k : κ} {v : ν} {es : List (κ × ν)} {e : κ × ν} (h : e ∈ put k v es) :
    e = (k, v) ∨ e ∈ es := by
  induction es with
  | nil => exact .inl (List.mem_singleton.mp h)
  | cons e' rest ih =>
    rw [put] at h
    split at h
    · exact (List.mem_cons.mp h).imp_right (List.mem_cons_of_mem e')
    · rcases List.mem_cons.mp h with rfl | h
      · exact .inr List.mem_cons_self
      · exact (ih h).imp_right (List.mem_cons_of_mem e')

/-- **An entry after writing** is the one written or was there before. -/
theorem mem_entries_insert {m : OrderedMap κ ν} {k : κ} {v : ν} {e : κ × ν}
    (h : e ∈ (m.insert k v).entries) : e = (k, v) ∨ e ∈ m.entries := mem_put h

theorem put_of_notMem {k : κ} {es : List (κ × ν)} (h : k ∉ es.map Prod.fst) (v : ν) :
    put k v es = es ++ [(k, v)] := by
  induction es with
  | nil => rfl
  | cons e rest ih =>
    rw [List.map_cons, List.mem_cons, not_or] at h
    rw [put, if_neg (Ne.symm h.1), ih h.2, List.cons_append]

/-- New keys go to the end in the order in which they are written. -/
theorem entries_insertAll {m : OrderedMap κ ν} {es : List (κ × ν)}
    (h : ((m.entries ++ es).map Prod.fst).Nodup) :
    (m.insertAll es).entries = m.entries ++ es := by
  induction es generalizing m with
  | nil => exact (List.append_nil _).symm
  | cons e rest ih =>
    have hnew : e.1 ∉ m.entries.map Prod.fst := fun hm => by
      rw [List.map_append, List.map_cons] at h
      exact (List.nodup_append.mp h).2.2 e.1 hm e.1 List.mem_cons_self rfl
    have hentries : (m.insert e.1 e.2).entries = m.entries ++ [e] := put_of_notMem hnew e.2
    have hstep : m.insertAll (e :: rest) = (m.insert e.1 e.2).insertAll rest := rfl
    rw [hstep, ih (by rwa [hentries, List.append_assoc, List.singleton_append]), hentries,
      List.append_assoc, List.singleton_append]

/-- **A map is written by its own entries.** -/
theorem ofList_entries (m : OrderedMap κ ν) : ofList m.entries = m := by
  have h : (((empty : OrderedMap κ ν).entries ++ m.entries).map Prod.fst).Nodup := m.nodup
  exact ext (entries_insertAll h)

/-! ## Maps with the same keys -/

theorem map_some_entries (m : OrderedMap κ ν) :
    m.entries.map some = m.keys.map fun k => (m.get? k).map fun v => (k, v) := by
  rw [keys, List.map_map]
  refine List.map_congr_left fun e he => ?_
  rw [Function.comp_apply, get?_eq_some_iff.mpr he, Option.map_some]

/-- **A map is known by its keys**, in order, and by their values. -/
theorem ext_get? {m n : OrderedMap κ ν} (hkeys : m.keys = n.keys)
    (hget : ∀ k, m.get? k = n.get? k) : m = n := by
  have hentries : m.entries.map some = n.entries.map some := by
    simp only [map_some_entries, hkeys, hget]
  exact ext ((List.map_inj_right fun _ _ h => Option.some.inj h).mp hentries)

/-! ## Entries with other values -/

section Values

variable {μ : Type} (g : κ → ν → μ)

theorem find?_map (k : κ) (es : List (κ × ν)) :
    find? k (es.map fun e => (e.1, g e.1 e.2)) = (find? k es).map (g k) := by
  induction es with
  | nil => rfl
  | cons e rest ih =>
    rw [List.map_cons, find?, find?, ih]
    split
    · rename_i hk
      rw [← hk, Option.map_some]
    · rfl

theorem map_put (k : κ) (v : ν) (es : List (κ × ν)) :
    (put k v es).map (fun e => (e.1, g e.1 e.2))
      = put k (g k v) (es.map fun e => (e.1, g e.1 e.2)) := by
  induction es with
  | nil => rfl
  | cons e rest ih =>
    rw [List.map_cons, put, put]
    split
    · rfl
    · exact congrArg _ ih

end Values

/-- Writing the value that is there changes nothing. -/
theorem put_of_find? {k : κ} {v : ν} {es : List (κ × ν)} (h : find? k es = some v) :
    put k v es = es := by
  induction es with
  | nil => cases h
  | cons e rest ih =>
    rw [find?] at h
    rw [put]
    split at h
    · rename_i hk
      rw [if_pos hk, ← hk, ← Option.some.inj h]
    · rename_i hk
      rw [if_neg hk, ih h]

end OrderedMap

end MathSpeech
