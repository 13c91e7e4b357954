import Mathlib.Data.List.Basic
import Mathlib.Data.List.Nodup

/-!
# Finite maps and their iteration order

A map is its list of entries, with distinct keys. Lookups and insertions do not
depend on where an entry sits in that list. Code that walks over a hash map does:
the walk may meet the entries in any order, and two maps with equal contents need
not share one. An iteration order is therefore supplied from outside, and all it
promises is to list every entry exactly once.
-/

namespace Graced

universe u v
variable {K : Type u} {V : Type v}

/-- A map from keys to values; no key has two entries. -/
structure AssocMap (K : Type u) (V : Type v) where
  entries : List (K × V)
  distinct : (entries.map Prod.fst).Nodup

/-- One way of walking over the entries of a map. -/
structure IterationOrder (K : Type u) (V : Type v) where
  arrange : List (K × V) → List (K × V)
  complete : ∀ entries, (arrange entries).Perm entries

/-- Walking in stored order is one of the iteration orders. -/
instance : Inhabited (IterationOrder K V) := ⟨⟨id, fun _ => List.Perm.refl _⟩⟩

namespace AssocMap

variable [DecidableEq K]

/-- The value stored under a key, searching from the front. -/
def lookup (key : K) : List (K × V) → Option V
  | [] => none
  | (stored, value) :: rest => if stored = key then some value else lookup key rest

/-- Replace the value of a stored key, or append a new entry. -/
def store (key : K) (value : V) : List (K × V) → List (K × V)
  | [] => [(key, value)]
  | (stored, old) :: rest =>
    if stored = key then (key, value) :: rest else (stored, old) :: store key value rest

/-- Storing keeps the keys in place and can only append the new one. -/
theorem store_keys (key : K) (value : V) (entries : List (K × V)) :
    (store key value entries).map Prod.fst =
      if key ∈ entries.map Prod.fst then entries.map Prod.fst
      else entries.map Prod.fst ++ [key] := by
  induction entries with
  | nil => simp [store]
  | cons entry rest inductionHypothesis =>
    obtain ⟨stored, old⟩ := entry
    by_cases same : stored = key
    · simp [store, same]
    · have different : key ≠ stored := fun equal => same equal.symm
      simp only [store, if_neg same, List.map_cons, inductionHypothesis, List.mem_cons,
        different, false_or]
      split <;> simp

theorem store_distinct (key : K) (value : V) (entries : List (K × V))
    (distinct : (entries.map Prod.fst).Nodup) :
    ((store key value entries).map Prod.fst).Nodup := by
  rw [store_keys]
  split
  · exact distinct
  · rename_i absent
    exact List.Nodup.append distinct (List.nodup_singleton key)
      (fun _ member atEnd => absent (List.mem_singleton.mp atEnd ▸ member))

/-- A lookup after storing sees the new value under its key and is otherwise unchanged. -/
theorem lookup_store (key other : K) (value : V) (entries : List (K × V)) :
    lookup other (store key value entries) =
      if key = other then some value else lookup other entries := by
  induction entries with
  | nil => simp [store, lookup]
  | cons entry rest inductionHypothesis =>
    obtain ⟨stored, old⟩ := entry
    by_cases same : stored = key
    · subst same
      by_cases found : stored = other <;> simp [store, lookup, found]
    · by_cases found : stored = other
      · subst found
        have different : key ≠ stored := fun equal => same equal.symm
        simp [store, lookup, same, different]
      · simp [store, lookup, same, found, inductionHypothesis]

/-- With distinct keys, the entries are exactly what lookups find. -/
theorem mem_iff_lookup (key : K) (value : V) (entries : List (K × V))
    (distinct : (entries.map Prod.fst).Nodup) :
    (key, value) ∈ entries ↔ lookup key entries = some value := by
  induction entries with
  | nil => simp [lookup]
  | cons entry rest inductionHypothesis =>
    obtain ⟨stored, old⟩ := entry
    simp only [List.map_cons, List.nodup_cons] at distinct
    by_cases same : stored = key
    · subst same
      have absent : (stored, value) ∉ rest := fun member =>
        distinct.1 (List.mem_map.mpr ⟨_, member, rfl⟩)
      simp [lookup, absent, eq_comm]
    · have different : key ≠ stored := fun equal => same equal.symm
      simp [lookup, same, different, inductionHypothesis distinct.2]

/-- The map without entries. -/
def empty : AssocMap K V := ⟨[], List.nodup_nil⟩

/-- `get`, copied out. -/
def get (map : AssocMap K V) (key : K) : Option V := lookup key map.entries

/-- `insert`. -/
def insert (map : AssocMap K V) (key : K) (value : V) : AssocMap K V :=
  ⟨store key value map.entries, store_distinct key value map.entries map.distinct⟩

@[simp] theorem get_empty (key : K) : (empty : AssocMap K V).get key = none := rfl

@[simp] theorem get_insert (map : AssocMap K V) (key other : K) (value : V) :
    (map.insert key value).get other = if key = other then some value else map.get other :=
  lookup_store key other value map.entries

/-- An entry is stored exactly when its lookup finds it. -/
theorem mem_entries (map : AssocMap K V) (key : K) (value : V) :
    (key, value) ∈ map.entries ↔ map.get key = some value :=
  mem_iff_lookup key value map.entries map.distinct

/-- A key has an entry exactly when its lookup finds something. -/
theorem mem_keys (map : AssocMap K V) (key : K) :
    key ∈ map.entries.map Prod.fst ↔ (map.get key).isSome := by
  simp only [List.mem_map, Option.isSome_iff_exists, ← mem_entries]
  constructor
  · rintro ⟨⟨stored, value⟩, member, rfl⟩
    exact ⟨value, member⟩
  · rintro ⟨value, member⟩
    exact ⟨(key, value), member, rfl⟩

/-- `remove`, without what was removed. -/
def remove (map : AssocMap K V) (key : K) : AssocMap K V :=
  ⟨map.entries.filter (fun entry => entry.1 ≠ key),
    map.distinct.sublist (List.filter_sublist.map Prod.fst)⟩

/-- A lookup after filtering out a key finds nothing there and is otherwise unchanged. -/
theorem lookup_filter (key other : K) (entries : List (K × V)) :
    lookup other (entries.filter (fun entry => entry.1 ≠ key)) =
      if key = other then none else lookup other entries := by
  induction entries with
  | nil => simp [lookup]
  | cons entry rest inductionHypothesis =>
    obtain ⟨stored, value⟩ := entry
    by_cases removed : stored = key
    · subst removed
      by_cases same : stored = other
      · simpa [lookup, same] using inductionHypothesis
      · simpa [lookup, same] using inductionHypothesis
    · by_cases same : stored = other
      · subst same
        have different : key ≠ stored := fun equal => removed equal.symm
        simp [lookup, removed, different]
      · simpa [lookup, removed, same] using inductionHypothesis

@[simp] theorem get_remove (map : AssocMap K V) (key other : K) :
    (map.remove key).get other = if key = other then none else map.get other :=
  lookup_filter key other map.entries

/-- Maps that agree on every lookup have the same entries, in some order. -/
theorem entries_perm (first second : AssocMap K V)
    (agree : ∀ key, first.get key = second.get key) : first.entries.Perm second.entries := by
  apply (List.perm_ext_iff_of_nodup first.distinct.of_map second.distinct.of_map).mpr
  rintro ⟨key, value⟩
  rw [mem_entries, mem_entries, agree]

/-- `from_iter`: insert the pairs one after another, later values replacing earlier. -/
def ofList (pairs : List (K × V)) : AssocMap K V :=
  pairs.foldl (fun map pair => map.insert pair.1 pair.2) empty

/-- Inserting pairs stores nothing but these pairs. -/
theorem insertAll_get (pairs : List (K × V)) (map : AssocMap K V) (key : K) (value : V)
    (found : (pairs.foldl (fun map pair => map.insert pair.1 pair.2) map).get key = some value) :
    (key, value) ∈ pairs ∨ map.get key = some value := by
  induction pairs generalizing map with
  | nil => exact .inr found
  | cons pair rest inductionHypothesis =>
    rcases inductionHypothesis _ found with later | stored
    · exact .inl (List.mem_cons_of_mem _ later)
    · rw [get_insert] at stored
      split at stored
      · rename_i same
        exact .inl (same ▸ Option.some.inj stored ▸ List.mem_cons_self)
      · exact .inr stored

/-- What a map finds was among the pairs from which it was made. -/
theorem ofList_mem (pairs : List (K × V)) (key : K) (value : V)
    (found : (ofList pairs).get key = some value) : (key, value) ∈ pairs :=
  (insertAll_get pairs empty key value found).resolve_right (by simp)

/-- A new key is stored behind all others. -/
theorem store_absent (key : K) (value : V) (entries : List (K × V))
    (absent : key ∉ entries.map Prod.fst) :
    store key value entries = entries ++ [(key, value)] := by
  induction entries with
  | nil => rfl
  | cons entry rest inductionHypothesis =>
    obtain ⟨stored, old⟩ := entry
    simp only [List.map_cons, List.mem_cons, not_or] at absent
    have different : stored ≠ key := fun equal => absent.1 equal.symm
    simp [store, different, inductionHypothesis absent.2]

/-- Inserting pairs with distinct new keys appends them. -/
theorem insertAll_entries (pairs : List (K × V)) (map : AssocMap K V)
    (distinct : ((map.entries ++ pairs).map Prod.fst).Nodup) :
    (pairs.foldl (fun map pair => map.insert pair.1 pair.2) map).entries =
      map.entries ++ pairs := by
  induction pairs generalizing map with
  | nil => simp
  | cons pair rest inductionHypothesis =>
    have absent : pair.1 ∉ map.entries.map Prod.fst := by
      rw [List.map_append, List.map_cons] at distinct
      intro stored
      exact (List.nodup_append.mp distinct).2.2 _ stored _ List.mem_cons_self rfl
    have stored : (map.insert pair.1 pair.2).entries = map.entries ++ [pair] :=
      store_absent pair.1 pair.2 map.entries absent
    rw [List.foldl_cons, inductionHypothesis, stored, List.append_assoc, List.singleton_append]
    rw [stored, List.append_assoc, List.singleton_append]
    exact distinct

/-- Pairs with distinct keys are the entries of the map made from them. -/
theorem ofList_entries (pairs : List (K × V)) (distinct : (pairs.map Prod.fst).Nodup) :
    (ofList pairs).entries = pairs := by
  simpa [ofList, empty] using insertAll_entries pairs empty (by simpa [empty] using distinct)

/-- The order of pairs with distinct keys makes no difference to lookups. -/
theorem ofList_get_perm (pairs others : List (K × V)) (distinct : (pairs.map Prod.fst).Nodup)
    (reordered : pairs.Perm others) (key : K) :
    (ofList pairs).get key = (ofList others).get key := by
  have distinctOthers : (others.map Prod.fst).Nodup :=
    (reordered.map Prod.fst).nodup_iff.mp distinct
  apply Option.ext
  intro value
  rw [← mem_entries, ← mem_entries, ofList_entries pairs distinct,
    ofList_entries others distinctOthers, reordered.mem_iff]

end AssocMap

end Graced
