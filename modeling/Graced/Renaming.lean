import Graced.AssocMap
import Graced.Outcome
import Mathlib.Logic.Equiv.Defs

/-!
# Other names for the same keys

A map whose keys are renamed one to one answers under the new names as it did under the old
ones, and an insertion commutes with the renaming. A computation that only compares keys
therefore gives the same result with other names: an outcome is carried over by renaming its
value and its error.
-/

namespace Graced

universe u v w

namespace AssocMap

variable {K : Type u} {L : Type v} {V : Type w}

/-- The map with other names for its keys. -/
def renameKeys (names : K ≃ L) (map : AssocMap K V) : AssocMap L V where
  entries := map.entries.map (Prod.map names id)
  distinct := by
    rw [List.map_map]
    have renamed : Prod.fst ∘ Prod.map names (id : V → V) = names ∘ Prod.fst := rfl
    rw [renamed, ← List.map_map]
    exact map.distinct.map names.injective

/-- Nothing is renamed to nothing. -/
@[simp] theorem renameKeys_empty (names : K ≃ L) :
    (empty : AssocMap K V).renameKeys names = empty := rfl

variable [DecidableEq K] [DecidableEq L]

/-- Looking up the new name among the renamed entries. -/
theorem lookup_rename (names : K ≃ L) (key : K) (entries : List (K × V)) :
    lookup (names key) (entries.map (Prod.map names id)) = lookup key entries := by
  induction entries with
  | nil => rfl
  | cons entry rest inductionHypothesis =>
    obtain ⟨stored, value⟩ := entry
    simp [lookup, inductionHypothesis]

/-- Storing under the new name among the renamed entries. -/
theorem store_rename (names : K ≃ L) (key : K) (value : V) (entries : List (K × V)) :
    store (names key) value (entries.map (Prod.map names id)) =
      (store key value entries).map (Prod.map names id) := by
  induction entries with
  | nil => rfl
  | cons entry rest inductionHypothesis =>
    obtain ⟨stored, old⟩ := entry
    by_cases same : stored = key
    · simp [store, same]
    · simp [store, same, inductionHypothesis]

/-- The new name of a key has what the key has. -/
@[simp] theorem get_renameKeys (names : K ≃ L) (map : AssocMap K V) (key : K) :
    (map.renameKeys names).get (names key) = map.get key :=
  lookup_rename names key map.entries

/-- What is inserted under the new name is renamed with the rest. -/
@[simp] theorem insert_renameKeys (names : K ≃ L) (map : AssocMap K V) (key : K) (value : V) :
    (map.renameKeys names).insert (names key) value = (map.insert key value).renameKeys names := by
  have same := store_rename names key value map.entries
  simp only [insert, renameKeys, same]

end AssocMap

namespace IterationOrder

variable {K : Type u} {L : Type v} {V : Type w}

/-- The order that walks over the renamed entries as the given one walks over the entries. -/
def rename (names : K ≃ L) (order : IterationOrder K V) : IterationOrder L V where
  arrange entries := (order.arrange (entries.map (Prod.map names.symm id))).map (Prod.map names id)
  complete entries := by
    have walked := (order.complete (entries.map (Prod.map names.symm id))).map (Prod.map names id)
    have back : Prod.map names (id : V → V) ∘ Prod.map names.symm id = id := by
      funext entry
      obtain ⟨key, value⟩ := entry
      simp
    simpa [List.map_map, back] using walked

/-- The renamed entries are walked over in that order. -/
theorem arrange_rename (names : K ≃ L) (order : IterationOrder K V) (entries : List (K × V)) :
    (order.rename names).arrange (entries.map (Prod.map names id)) =
      (order.arrange entries).map (Prod.map names id) := by
  have back : Prod.map names.symm (id : V → V) ∘ Prod.map names id = id := by
    funext entry
    obtain ⟨key, value⟩ := entry
    simp
  simp [rename, List.map_map, back]

end IterationOrder

namespace Outcome

variable {ε δ : Type u} {α β γ κ : Type v}

/-- Rename the value and the error. -/
def rename (value : α → β) (error : ε → δ) : Outcome ε α → Outcome δ β
  | .ok found => .ok (value found)
  | .err cause => .err (error cause)
  | .panic => .panic

/-- A sequence is renamed if each of its steps is. -/
theorem rename_bind (value : α → β) (result : γ → κ) (error : ε → δ) (outcome : Outcome ε α)
    (next : α → Outcome ε γ) (renamedNext : β → Outcome δ κ)
    (each : ∀ found, renamedNext (value found) = (next found).rename result error) :
    (outcome.rename value error >>= renamedNext) = (outcome >>= next).rename result error := by
  cases outcome with
  | ok found => exact each found
  | err cause => rfl
  | panic => rfl

/-- A traversal is renamed if each of its elements is. -/
theorem rename_collect {A B : Type v} (element : A → B) (value : α → β) (error : ε → δ)
    (f : A → Outcome ε α) (g : B → Outcome δ β) (elements : List A)
    (each : ∀ found ∈ elements, g (element found) = (f found).rename value error) :
    Outcome.collect g (elements.map element) =
      (Outcome.collect f elements).rename (List.map value) error := by
  induction elements with
  | nil => rfl
  | cons head tail inductionHypothesis =>
    have inTail := inductionHypothesis
      (fun found member => each found (List.mem_cons_of_mem _ member))
    simp only [List.map_cons, collect, each head List.mem_cons_self, inTail]
    apply rename_bind
    intro found
    apply rename_bind
    intro others
    rfl

end Outcome

end Graced
