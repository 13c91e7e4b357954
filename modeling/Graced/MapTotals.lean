import Graced.AssocMap
import Mathlib.Algebra.BigOperators.Group.List.Basic
import Mathlib.Algebra.Ring.Int.Defs

/-!
# Totals over finite maps

The total of a map adds up a weight of every entry. An insertion changes it by the weight
that it puts in less the weight of what it replaces. A total can also be taken over keys,
where any list of distinct keys will do that leaves out none of the map.
-/

namespace Graced.AssocMap

universe u v
variable {K : Type u} {V : Type v}

/-- What a stored value weighs; nothing weighs nothing. -/
def weigh (weight : V → Int) (found : Option V) : Int := (found.map weight).getD 0

@[simp] theorem weigh_none (weight : V → Int) : weigh weight none = 0 := rfl

@[simp] theorem weigh_some (weight : V → Int) (value : V) :
    weigh weight (some value) = weight value := rfl

/-- The total weight of the entries. -/
def total (weight : K → V → Int) (map : AssocMap K V) : Int :=
  (map.entries.map (fun entry => weight entry.1 entry.2)).sum

@[simp] theorem total_empty (weight : K → V → Int) : total weight empty = 0 := rfl

variable [DecidableEq K]

/-- Storing in a list of entries exchanges the old weight of the key for the new one. -/
theorem store_total (weight : K → V → Int) (key : K) (value : V) (entries : List (K × V)) :
    ((store key value entries).map (fun entry => weight entry.1 entry.2)).sum =
      (entries.map (fun entry => weight entry.1 entry.2)).sum -
        weigh (weight key) (lookup key entries) + weight key value := by
  induction entries with
  | nil => simp [store, lookup]
  | cons entry rest inductionHypothesis =>
    obtain ⟨stored, old⟩ := entry
    by_cases same : stored = key
    · subst same
      simp only [store, lookup, if_true, List.map_cons, List.sum_cons, weigh_some]
      omega
    · simp only [store, lookup, if_neg same, List.map_cons, List.sum_cons, inductionHypothesis]
      omega

/-- An insertion exchanges the old weight of its key for the new one. -/
theorem total_insert (weight : K → V → Int) (map : AssocMap K V) (key : K) (value : V) :
    total weight (map.insert key value) =
      total weight map - weigh (weight key) (map.get key) + weight key value :=
  store_total weight key value map.entries

/-- Filtering a key out of entries takes its weight away. -/
theorem filter_total (weight : K → V → Int) (key : K) (entries : List (K × V))
    (distinct : (entries.map Prod.fst).Nodup) :
    ((entries.filter (fun entry => entry.1 ≠ key)).map (fun entry => weight entry.1 entry.2)).sum =
      (entries.map (fun entry => weight entry.1 entry.2)).sum -
        weigh (weight key) (lookup key entries) := by
  induction entries with
  | nil => simp [lookup]
  | cons entry rest inductionHypothesis =>
    obtain ⟨stored, value⟩ := entry
    obtain ⟨absent, distinctRest⟩ := List.nodup_cons.mp distinct
    by_cases same : stored = key
    · subst same
      have untouched : rest.filter (fun entry => entry.1 ≠ stored) = rest := by
        apply List.filter_eq_self.mpr
        intro entry member
        have different : entry.1 ≠ stored := by
          rintro rfl
          exact absent (List.mem_map.mpr ⟨entry, member, rfl⟩)
        simpa using different
      rw [List.filter_cons_of_neg (by simp), untouched]
      simp only [lookup, if_true, List.map_cons, List.sum_cons, weigh_some]
      omega
    · rw [List.filter_cons_of_pos (by simpa using same)]
      simp only [lookup, if_neg same, List.map_cons, List.sum_cons,
        inductionHypothesis distinctRest]
      omega

/-- A removal takes the weight of its key away. -/
theorem total_remove (weight : K → V → Int) (map : AssocMap K V) (key : K) :
    total weight (map.remove key) = total weight map - weigh (weight key) (map.get key) :=
  filter_total weight key map.entries map.distinct

/-- The total of the entries under one key is what a lookup of it finds. -/
theorem total_single (weight : V → Int) (map : AssocMap K V) (key : K) :
    total (fun stored value => if stored = key then weight value else 0) map =
      weigh weight (map.get key) := by
  have others : total (fun stored value => if stored = key then weight value else 0)
      (map.remove key) = 0 := by
    apply List.sum_eq_zero
    intro amount member
    obtain ⟨entry, kept, rfl⟩ := List.mem_map.mp member
    have different : entry.1 ≠ key := by simpa using (List.mem_filter.mp kept).2
    exact if_neg different
  have split := total_remove (fun stored value => if stored = key then weight value else 0) map key
  have alone : weigh (fun value => if key = key then weight value else 0) (map.get key) =
      weigh weight (map.get key) := by simp only [if_true]
  omega

/-- Distinct keys of which one has a weight weigh as much as that one. -/
theorem sum_single (keys : List K) (distinct : keys.Nodup) (key : K) (weight : Int)
    (member : key ∈ keys) : (keys.map (fun k => if key = k then weight else 0)).sum = weight := by
  induction keys with
  | nil => simp at member
  | cons head tail inductionHypothesis =>
    obtain ⟨absent, distinctTail⟩ := List.nodup_cons.mp distinct
    by_cases same : key = head
    · subst same
      have others : tail.map (fun k => if key = k then weight else 0) = tail.map (fun _ => 0) := by
        apply List.map_congr_left
        intro k inTail
        have different : key ≠ k := fun equal => absent (equal ▸ inTail)
        simp [different]
      simp [others]
    · have inTail : key ∈ tail := (List.mem_cons.mp member).resolve_left same
      simp [same, inductionHypothesis distinctTail inTail]

/-- Looking up distinct keys that leave out none of the entries finds the total. -/
theorem sum_lookups (weight : V → Int) (keys : List K) (distinct : keys.Nodup)
    (entries : List (K × V)) (distinctEntries : (entries.map Prod.fst).Nodup)
    (covered : ∀ entry ∈ entries, entry.1 ∈ keys) :
    (keys.map (fun key => weigh weight (lookup key entries))).sum =
      (entries.map (fun entry => weight entry.2)).sum := by
  induction entries with
  | nil => simp [lookup]
  | cons entry rest inductionHypothesis =>
    obtain ⟨stored, value⟩ := entry
    obtain ⟨absent, distinctRest⟩ := List.nodup_cons.mp distinctEntries
    have split (key : K) : weigh weight (lookup key ((stored, value) :: rest)) =
        (if stored = key then weight value else 0) + weigh weight (lookup key rest) := by
      by_cases same : stored = key
      · subst same
        have missing : lookup stored rest = none := by
          cases found : lookup stored rest with
          | none => rfl
          | some other =>
            have member := (mem_iff_lookup stored other rest distinctRest).mpr found
            exact absurd (List.mem_map_of_mem member) absent
        simp [lookup, missing]
      · simp [lookup, same]
    have first := sum_single keys distinct stored (weight value)
      (covered (stored, value) List.mem_cons_self)
    have others := inductionHypothesis distinctRest
      (fun entry member => covered entry (List.mem_cons_of_mem _ member))
    simp only [split, List.sum_map_add, first, others, List.map_cons, List.sum_cons]

/-- The values listed with distinct keys weigh as much as what the keys of any covering list
find in the map made from them. -/
theorem sum_ofList (weight : V → Int) (keys : List K) (distinct : keys.Nodup)
    (pairs : List (K × V)) (distinctPairs : (pairs.map Prod.fst).Nodup)
    (covered : ∀ pair ∈ pairs, pair.1 ∈ keys) :
    (keys.map (fun key => weigh weight ((ofList pairs).get key))).sum =
      (pairs.map (fun pair => weight pair.2)).sum := by
  unfold get
  rw [ofList_entries pairs distinctPairs]
  exact sum_lookups weight keys distinct pairs distinctPairs covered

end Graced.AssocMap
