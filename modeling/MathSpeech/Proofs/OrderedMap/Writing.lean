import MathSpeech.OrderedMap
import Mathlib.Data.List.Basic
import Mathlib.Data.List.Nodup

/-!
# Proofs/OrderedMap/Writing — a map after a list of writes

What a list of writes makes of a map can be read off the list.  A key that is there keeps its place,
and the new ones follow in the order in which they first occur (`keys_insertAll`); each key has the
value written last (`get?_insertAll`).  A map is known by its keys and their values, so updates one
after the other are one update (`update_update`).
-/

namespace MathSpeech.OrderedMap

variable {κ ν : Type} [DecidableEq κ]

/-! ## The latest value -/

/-- **The value written last** for a key, among entries in the order in which they are written. -/
def latest? (k : κ) (es : List (κ × ν)) : Option ν := find? k es.reverse

theorem find?_append (k : κ) (es fs : List (κ × ν)) :
    find? k (es ++ fs) = (find? k es).or (find? k fs) := by
  induction es with
  | nil => rfl
  | cons e rest ih =>
    rw [List.cons_append, find?, find?, ih]
    split <;> rfl

theorem latest?_cons (k : κ) (e : κ × ν) (es : List (κ × ν)) :
    latest? k (e :: es) = (latest? k es).or (if e.1 = k then some e.2 else none) := by
  rw [latest?, List.reverse_cons, find?_append]
  rfl

/-- Among entries of a map the latest value is the only one. -/
theorem latest?_entries (k : κ) (m : OrderedMap κ ν) : latest? k m.entries = m.get? k := by
  have hnodup : (m.entries.reverse.map Prod.fst).Nodup := by
    rw [List.map_reverse]
    exact List.nodup_reverse.mpr m.nodup
  refine Option.ext fun v => ?_
  rw [latest?, find?_eq_some_iff hnodup, List.mem_reverse, get?_eq_some_iff]

/-! ## Writes one after the other -/

theorem insertAll_cons (m : OrderedMap κ ν) (e : κ × ν) (es : List (κ × ν)) :
    m.insertAll (e :: es) = (m.insert e.1 e.2).insertAll es := rfl

theorem insertAll_append (m : OrderedMap κ ν) (es fs : List (κ × ν)) :
    m.insertAll (es ++ fs) = (m.insertAll es).insertAll fs := List.foldl_append

/-- **Each key has the value written last**, or else its old one. -/
theorem get?_insertAll (m : OrderedMap κ ν) (es : List (κ × ν)) (k : κ) :
    (m.insertAll es).get? k = (latest? k es).or (m.get? k) := by
  induction es generalizing m with
  | nil => rfl
  | cons e rest ih =>
    rw [insertAll_cons, ih, get?_insert, latest?_cons, Option.or_assoc]
    split
    · rw [Option.some_or]
    · rw [Option.none_or]

/-- **The keys that are new**, in the order in which they first occur. -/
def newKeys (known ks : List κ) : List κ := (ks.filter (· ∉ known)).eraseDups

theorem newKeys_cons_of_mem {known : List κ} {k : κ} (h : k ∈ known) (ks : List κ) :
    newKeys known (k :: ks) = newKeys known ks := by
  rw [newKeys, List.filter_cons_of_neg (by simpa using h), newKeys]

/-- A new key is known from then on. -/
theorem newKeys_cons_of_notMem {known : List κ} {k : κ} (h : k ∉ known) (ks : List κ) :
    newKeys known (k :: ks) = k :: newKeys (known ++ [k]) ks := by
  have hothers : (ks.filter (· ∉ known)).filter (fun k' => !k' == k)
      = ks.filter (· ∉ known ++ [k]) := by
    rw [List.filter_filter]
    refine List.filter_congr fun k' _ => ?_
    by_cases hk : k' = k <;> simp [hk]
  rw [newKeys, List.filter_cons_of_pos (by simpa using h), List.eraseDups_cons, hothers, newKeys]

/-- Keys without repetition are new where they are not known. -/
theorem newKeys_of_nodup {ks : List κ} (h : ks.Nodup) (known : List κ) :
    newKeys known ks = ks.filter (· ∉ known) := by
  induction ks generalizing known with
  | nil => rfl
  | cons k rest ih =>
    obtain ⟨hnew, hrest⟩ := List.nodup_cons.mp h
    by_cases hk : k ∈ known
    · rw [newKeys_cons_of_mem hk, ih hrest, List.filter_cons_of_neg (by simpa using hk)]
    · have hothers : rest.filter (· ∉ known ++ [k]) = rest.filter (· ∉ known) :=
        List.filter_congr fun k' hk' => by simp [ne_of_mem_of_not_mem hk' hnew]
      rw [newKeys_cons_of_notMem hk, ih hrest, hothers,
        List.filter_cons_of_pos (by simpa using hk)]

/-- **The keys after a list of writes**: the old ones in their places, then the new ones in the
order in which they first occur. -/
theorem keys_insertAll (m : OrderedMap κ ν) (es : List (κ × ν)) :
    (m.insertAll es).keys = m.keys ++ newKeys m.keys (es.map Prod.fst) := by
  induction es generalizing m with
  | nil => exact (List.append_nil _).symm
  | cons e rest ih =>
    rw [insertAll_cons, ih, keys_insert, List.map_cons]
    by_cases hold : e.1 ∈ m.keys
    · rw [if_pos hold, newKeys_cons_of_mem hold]
    · rw [if_neg hold, newKeys_cons_of_notMem hold, List.append_assoc, List.singleton_append]

/-- **The keys that a list of writes makes**, in the order in which they first occur. -/
theorem keys_ofList (es : List (κ × ν)) : (ofList es).keys = newKeys [] (es.map Prod.fst) :=
  keys_insertAll empty es

theorem get?_ofList (es : List (κ × ν)) (k : κ) : (ofList es).get? k = latest? k es := by
  rw [ofList, get?_insertAll, get?_empty, Option.or_none]

theorem ofList_append (es fs : List (κ × ν)) : ofList (es ++ fs) = (ofList es).insertAll fs :=
  insertAll_append empty es fs

/-- Writing the value that is there changes nothing. -/
theorem insert_of_get? {m : OrderedMap κ ν} {k : κ} {v : ν} (h : m.get? k = some v) :
    m.insert k v = m := ext (put_of_find? h)

/-! ## Updates -/

theorem get?_update (m n : OrderedMap κ ν) (k : κ) :
    (m.update n).get? k = (n.get? k).or (m.get? k) := by
  rw [update, get?_insertAll, latest?_entries]

theorem keys_update (m n : OrderedMap κ ν) :
    (m.update n).keys = m.keys ++ n.keys.filter (· ∉ m.keys) := by
  rw [update, keys_insertAll, newKeys_of_nodup n.nodup]
  rfl

theorem mem_keys_update {m n : OrderedMap κ ν} {k : κ} :
    k ∈ (m.update n).keys ↔ k ∈ m.keys ∨ k ∈ n.keys := by
  rw [keys_update, List.mem_append, List.mem_filter, decide_eq_true_eq]
  tauto

/-- Writing into a map that is then written is writing afterwards. -/
theorem update_insert (m n : OrderedMap κ ν) (k : κ) (v : ν) :
    m.update (n.insert k v) = (m.update n).insert k v := by
  refine ext_get? ?_ fun k' => ?_
  · rw [keys_insert]
    simp only [mem_keys_update]
    rw [keys_update, keys_update, keys_insert]
    by_cases hn : k ∈ n.keys
    · rw [if_pos hn, if_pos (.inr hn)]
    · rw [if_neg hn, List.filter_append, ← List.append_assoc]
      by_cases hm : k ∈ m.keys <;> simp [hm, hn]
  · rw [get?_update, get?_insert, get?_insert, get?_update]
    split <;> rfl

/-- **Updates one after the other are one update.** -/
theorem update_update (m n o : OrderedMap κ ν) :
    (m.update n).update o = m.update (n.update o) := by
  have hall : ∀ es : List (κ × ν), (m.update n).insertAll es = m.update (n.insertAll es) := by
    intro es
    induction es generalizing n with
    | nil => rfl
    | cons e rest ih => rw [insertAll_cons, ← update_insert, ih, insertAll_cons]
  exact hall o.entries

/-- A map with none of the keys of another follows it when the two are written. -/
theorem entries_update_of_disjoint {m n : OrderedMap κ ν} (h : ∀ k ∈ n.keys, k ∉ m.keys) :
    (m.update n).entries = m.entries ++ n.entries := by
  refine entries_insertAll ?_
  rw [List.map_append]
  refine List.nodup_append.mpr ⟨m.nodup, n.nodup, ?_⟩
  rintro k hm _ hn rfl
  exact h k hn hm

end MathSpeech.OrderedMap
