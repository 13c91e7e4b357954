import Mathlib.Data.List.Perm.Basic
import Mathlib.Order.Lattice

/-!
# The two greatest elements of a list

Two elements stand out in a list if the keys of all others are smaller than both of theirs.
However the list is arranged by falling keys, it then starts with these two; only which of
them comes first may differ. Without two such elements there is no telling which ones a
falling arrangement starts with.
-/

namespace Graced.TopTwo

universe u v
variable {α : Type u} {κ : Type v} [LinearOrder κ] {key : α → κ} {items : List α}
  {first second : α}

/-- All other elements have smaller keys than these two. -/
def StandOut (key : α → κ) (items : List α) (first second : α) : Prop :=
  ∃ others, items.Perm (first :: second :: others) ∧
    ∀ other ∈ others, key other < key first ∧ key other < key second

/-- The keys fall along the list. -/
def Falling (key : α → κ) (items : List α) : Prop :=
  items.Pairwise (fun earlier later => key later ≤ key earlier)

/-- The same two stand out in every arrangement. -/
theorem StandOut.perm {arranged : List α} (standOut : StandOut key items first second)
    (same : arranged.Perm items) : StandOut key arranged first second := by
  obtain ⟨others, split, smaller⟩ := standOut
  exact ⟨others, same.trans split, smaller⟩

/-- A falling list starts with a greatest element. -/
theorem Falling.head_bound {head : α} {tail : List α} (falling : Falling key (head :: tail))
    (item : α) (member : item ∈ head :: tail) : key item ≤ key head := by
  rcases List.mem_cons.mp member with rfl | inTail
  · exact le_rfl
  · exact (List.pairwise_cons.mp falling).1 item inTail

/-- If the first element of a falling list is one of the two, the second is the other. -/
theorem second_of_first {tail others : List α} (falling : Falling key (first :: tail))
    (arranged : (first :: tail).Perm (first :: second :: others))
    (smaller : ∀ other ∈ others, key other < key first ∧ key other < key second) :
    ∃ rest, tail = second :: rest := by
  have inTail : tail.Perm (second :: others) := arranged.cons_inv
  cases tail with
  | nil => exact absurd inTail.length_eq (by simp)
  | cons next rest =>
    have tailFalling : Falling key (next :: rest) := (List.pairwise_cons.mp falling).2
    have bound : key second ≤ key next :=
      tailFalling.head_bound second (inTail.mem_iff.mpr List.mem_cons_self)
    rcases List.mem_cons.mp (inTail.mem_iff.mp List.mem_cons_self) with rfl | other
    · exact ⟨rest, rfl⟩
    · exact absurd (smaller next other).2 (not_lt.mpr bound)

/-- A falling list starts with the two elements that stand out. -/
theorem StandOut.start (standOut : StandOut key items first second)
    (falling : Falling key items) :
    ∃ rest, items = first :: second :: rest ∨ items = second :: first :: rest := by
  obtain ⟨others, arranged, smaller⟩ := standOut
  cases items with
  | nil => exact absurd arranged.length_eq (by simp)
  | cons head tail =>
    have bound : key first ≤ key head :=
      falling.head_bound first (arranged.mem_iff.mpr List.mem_cons_self)
    have inList := arranged.mem_iff.mp (List.mem_cons_self : head ∈ head :: tail)
    rcases List.mem_cons.mp inList with rfl | inList
    · obtain ⟨rest, rfl⟩ := second_of_first falling arranged smaller
      exact ⟨rest, .inl rfl⟩
    · rcases List.mem_cons.mp inList with rfl | other
      · obtain ⟨rest, rfl⟩ := second_of_first falling (arranged.trans (List.Perm.swap _ _ _))
          (fun other member => (smaller other member).symm)
        exact ⟨rest, .inr rfl⟩
      · exact absurd (smaller head other).1 (not_lt.mpr bound)

end Graced.TopTwo
