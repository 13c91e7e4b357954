import Mathlib.Data.List.Basic
import Mathlib.Data.List.TakeWhile

/-!
# Ordered forests and the lists they flatten to

A forest is a first tree, made of a value and the forest of its children, followed
by the forest of its later siblings. Flattening it in preorder loses the nesting;
this file says when and how the nesting comes back.

A relation tells which entries of a list may stand under which earlier ones. An
entry adopts the roots that follow it for as long as they may stand under it. When
the relation is transitive, the parent that an entry ends up with is the nearest
earlier entry that everything in between, and the entry itself, may stand under.
-/

namespace Graced

universe u v
variable {α : Type u} {β : Type v}

/-- A list of trees: the value and the children of the first, and the others. -/
inductive Forest (α : Type u) where
  | nil : Forest α
  | node (value : α) (children siblings : Forest α) : Forest α
deriving DecidableEq, Repr

namespace Forest

/-- One forest after another. -/
def append : Forest α → Forest α → Forest α
  | nil, other => other
  | node value children siblings, other => node value children (append siblings other)

instance : Append (Forest α) := ⟨append⟩

/-- The number of trees. -/
def width : Forest α → Nat
  | nil => 0
  | node _ _ siblings => siblings.width + 1

/-- The number of values. -/
def size : Forest α → Nat
  | nil => 0
  | node _ children siblings => children.size + siblings.size + 1

/-- The values of the roots. -/
def roots : Forest α → List α
  | nil => []
  | node value _ siblings => value :: siblings.roots

/-- The tree at a position: its value and its children. -/
def tree? : Forest α → Nat → Option (α × Forest α)
  | nil, _ => none
  | node value children _, 0 => some (value, children)
  | node _ _ siblings, position + 1 => siblings.tree? position

/-- Replace every value. -/
def map (f : α → β) : Forest α → Forest β
  | nil => nil
  | node value children siblings => node (f value) (children.map f) (siblings.map f)

/-- All values; a value comes before its children, and they come before its siblings. -/
def preorder : Forest α → List α
  | nil => []
  | node value children siblings => value :: (children.preorder ++ siblings.preorder)

/-- The parent of every value in preorder. Values are named by their position, the
first being at the given one, and the roots hang below the given parent. -/
def parents : Option Nat → Nat → Forest α → List (Option Nat)
  | _, _, nil => []
  | parent, position, node _ children siblings =>
    parent :: (parents (some position) (position + 1) children ++
      parents parent (position + 1 + children.size) siblings)

/-- No value has more children than the bound. -/
def narrow (bound : Nat) : Forest α → Bool
  | nil => true
  | node _ children siblings =>
    children.width ≤ bound && children.narrow bound && siblings.narrow bound

/-- Combine every value with its depth, the roots being at the given one. -/
def label (tag : Nat → α → β) : Nat → Forest α → Forest β
  | _, nil => nil
  | depth, node value children siblings =>
    node (tag depth value) (label tag (depth + 1) children) (label tag depth siblings)

/-- The first trees, up to one whose root fails the test. -/
def takeRoots (test : α → Bool) : Forest α → Forest α
  | nil => nil
  | node value children siblings =>
    if test value then node value children (takeRoots test siblings) else nil

/-- What `takeRoots` leaves. -/
def dropRoots (test : α → Bool) : Forest α → Forest α
  | nil => nil
  | node value children siblings =>
    if test value then dropRoots test siblings else node value children siblings

/-- Rebuild a forest from a list: each entry adopts the trees that follow it for as
long as their roots may stand under it. -/
def nest (under : α → α → Bool) : List α → Forest α
  | [] => nil
  | value :: rest =>
    node value ((nest under rest).takeRoots (under value))
      ((nest under rest).dropRoots (under value))

@[simp] theorem nil_append (other : Forest α) : nil ++ other = other := rfl

@[simp] theorem node_append (value : α) (children siblings other : Forest α) :
    node value children siblings ++ other = node value children (siblings ++ other) := rfl

@[simp] theorem append_nil (forest : Forest α) : forest ++ nil = forest := by
  induction forest with
  | nil => rfl
  | node value children siblings _ later => rw [node_append, later]

theorem append_assoc (first second third : Forest α) :
    first ++ second ++ third = first ++ (second ++ third) := by
  induction first with
  | nil => rfl
  | node value children siblings _ later => simp only [node_append, later]

@[simp] theorem width_append (forest other : Forest α) :
    (forest ++ other).width = forest.width + other.width := by
  induction forest with
  | nil => simp [width]
  | node value children siblings _ later => simp only [node_append, width, later]; omega

@[simp] theorem size_append (forest other : Forest α) :
    (forest ++ other).size = forest.size + other.size := by
  induction forest with
  | nil => simp [size]
  | node value children siblings _ later => simp only [node_append, size, later]; omega

theorem width_le_size (forest : Forest α) : forest.width ≤ forest.size := by
  induction forest with
  | nil => exact Nat.le_refl 0
  | node value children siblings _ later =>
    rw [width, size]
    omega

@[simp] theorem preorder_append (forest other : Forest α) :
    (forest ++ other).preorder = forest.preorder ++ other.preorder := by
  induction forest with
  | nil => rfl
  | node value children siblings _ later => simp [preorder, later]

@[simp] theorem narrow_append (bound : Nat) (forest other : Forest α) :
    (forest ++ other).narrow bound = (forest.narrow bound && other.narrow bound) := by
  induction forest with
  | nil => simp [narrow]
  | node value children siblings _ later => simp [narrow, later, Bool.and_assoc]

@[simp] theorem length_preorder (forest : Forest α) : forest.preorder.length = forest.size := by
  induction forest with
  | nil => rfl
  | node value children siblings inner later => simp [preorder, size, inner, later]

@[simp] theorem preorder_map (f : α → β) (forest : Forest α) :
    (forest.map f).preorder = forest.preorder.map f := by
  induction forest with
  | nil => rfl
  | node value children siblings inner later => simp [map, preorder, inner, later]

@[simp] theorem size_map (f : α → β) (forest : Forest α) : (forest.map f).size = forest.size := by
  rw [← length_preorder, preorder_map, List.length_map, length_preorder]

/-- The parents depend on the nesting only. -/
@[simp] theorem parents_map (f : α → β) (forest : Forest α) (parent : Option Nat)
    (position : Nat) : (forest.map f).parents parent position = forest.parents parent position := by
  induction forest generalizing parent position with
  | nil => rfl
  | node value children siblings inner later => simp [map, parents, inner, later]

theorem tree?_fst (forest : Forest α) (position : Nat) :
    (forest.tree? position).map Prod.fst = forest.roots[position]? := by
  induction forest generalizing position with
  | nil => rfl
  | node value children siblings _ later =>
    cases position with
    | zero => rfl
    | succ position => exact later position

/-- The roots are among the values, in order. -/
theorem roots_sublist (forest : Forest α) : forest.roots.Sublist forest.preorder := by
  induction forest with
  | nil => exact List.Sublist.refl _
  | node value children siblings _ later =>
    exact (later.trans (List.sublist_append_right _ _)).cons_cons _

@[simp] theorem width_map (f : α → β) (forest : Forest α) :
    (forest.map f).width = forest.width := by
  induction forest with
  | nil => rfl
  | node value children siblings _ later => simp [map, width, later]

@[simp] theorem narrow_map (f : α → β) (bound : Nat) (forest : Forest α) :
    (forest.map f).narrow bound = forest.narrow bound := by
  induction forest with
  | nil => rfl
  | node value children siblings inner later => simp [map, narrow, inner, later]

/-- Removing the labels gives the forest back. -/
theorem map_label (tag : Nat → α → β) (untag : β → α)
    (removes : ∀ depth value, untag (tag depth value) = value) (depth : Nat) (forest : Forest α) :
    (forest.label tag depth).map untag = forest := by
  induction forest generalizing depth with
  | nil => rfl
  | node value children siblings inner later => simp [label, map, removes, inner, later]

/-- Taking and leaving trees splits the forest. -/
@[simp] theorem take_append_drop (test : α → Bool) (forest : Forest α) :
    forest.takeRoots test ++ forest.dropRoots test = forest := by
  induction forest with
  | nil => rfl
  | node value children siblings _ later =>
    by_cases passes : test value = true <;> simp [takeRoots, dropRoots, passes, later]

/-- When the test holds of all roots, the trees to take go on into what follows. -/
theorem takeRoots_append (test : α → Bool) (forest other : Forest α)
    (taken : forest.dropRoots test = nil) :
    (forest ++ other).takeRoots test = forest ++ other.takeRoots test ∧
      (forest ++ other).dropRoots test = other.dropRoots test := by
  induction forest with
  | nil => exact ⟨rfl, rfl⟩
  | node value children siblings _ later =>
    by_cases passes : test value = true
    · simp only [dropRoots, passes, if_true] at taken
      simp [takeRoots, dropRoots, passes, later taken]
    · simp [dropRoots, passes] at taken

/-- No entry is lost, repeated or moved when the nesting is rebuilt. -/
@[simp] theorem preorder_nest (under : α → α → Bool) (entries : List α) :
    (nest under entries).preorder = entries := by
  induction entries with
  | nil => rfl
  | cons value rest inductionHypothesis =>
    rw [nest, preorder, ← preorder_append, take_append_drop, inductionHypothesis]

@[simp] theorem size_nest (under : α → α → Bool) (entries : List α) :
    (nest under entries).size = entries.length := by
  rw [← length_preorder, preorder_nest]

/-- The last position below the bound at which the test succeeds. -/
def lastBelow (test : Nat → Bool) : Nat → Option Nat
  | 0 => none
  | bound + 1 => if test bound then some bound else lastBelow test bound

/-- May everything after one position, up to the other, stand under it? -/
def above (under : α → α → Bool) (entries : List α) (position other : Nat) : Bool :=
  match entries[position]? with
  | none => false
  | some value => ((entries.take (other + 1)).drop (position + 1)).all (under value)

/-- The search finds a position exactly when it passes and no later one does. -/
theorem lastBelow_eq_some (test : Nat → Bool) (bound position : Nat) :
    lastBelow test bound = some position ↔
      position < bound ∧ test position = true ∧
        ∀ later, position < later → later < bound → test later = false := by
  induction bound with
  | zero => simp [lastBelow]
  | succ bound inductionHypothesis =>
    by_cases passes : test bound = true
    · simp only [lastBelow, passes, if_true, Option.some.injEq]
      constructor
      · rintro rfl
        exact ⟨by omega, passes, by omega⟩
      · rintro ⟨inside, _, fails⟩
        by_contra different
        simp [fails bound (by omega) (by omega)] at passes
    · simp only [lastBelow, passes, Bool.false_eq_true, if_false, inductionHypothesis]
      constructor
      · rintro ⟨inside, found, fails⟩
        refine ⟨by omega, found, ?_⟩
        intro later after below
        rcases Nat.lt_succ_iff_lt_or_eq.mp below with earlier | rfl
        · exact fails later after earlier
        · simpa using passes
      · rintro ⟨inside, found, fails⟩
        have different : position ≠ bound := by
          rintro rfl
          exact passes found
        exact ⟨by omega, found, fun later after below => fails later after (by omega)⟩

/-- The search finds nothing exactly when nothing passes. -/
theorem lastBelow_eq_none (test : Nat → Bool) (bound : Nat) :
    lastBelow test bound = none ↔ ∀ position < bound, test position = false := by
  induction bound with
  | zero => simp [lastBelow]
  | succ bound inductionHypothesis =>
    by_cases passes : test bound = true
    · simp only [lastBelow, passes, if_true, reduceCtorEq, false_iff, not_forall]
      exact ⟨bound, by omega, by simp [passes]⟩
    · simp only [lastBelow, passes, Bool.false_eq_true, if_false, inductionHypothesis]
      constructor
      · intro fails position below
        rcases Nat.lt_succ_iff_lt_or_eq.mp below with earlier | rfl
        · exact fails position earlier
        · simpa using passes
      · intro fails position below
        exact fails position (by omega)

/-- Setting the first position apart. -/
theorem lastBelow_succ (test : Nat → Bool) (bound : Nat) :
    lastBelow test (bound + 1) =
      ((lastBelow (fun position => test (position + 1)) bound).map (· + 1)).or
        (if test 0 then some 0 else none) := by
  induction bound with
  | zero => simp [lastBelow]
  | succ bound inductionHypothesis =>
    rw [lastBelow, inductionHypothesis]
    by_cases passes : test (bound + 1) = true <;> simp [lastBelow, passes]

/-- Moving the positions and the parent of the roots moves nothing else. -/
theorem parents_shift (forest : Forest α) (parent : Option Nat) (position : Nat) :
    forest.parents parent position =
      (forest.parents none 0).map (fun found => (found.map (· + position)).or parent) := by
  induction forest generalizing parent position with
  | nil => rfl
  | node value children siblings inner later =>
    rw [parents, parents, inner (some position), inner (some 0), later parent,
      later none (0 + 1 + children.size)]
    simp only [List.map_cons, List.map_append, List.map_map, Option.map_none, Option.none_or,
      List.cons.injEq, true_and]
    congr 1
    · apply List.map_congr_left
      intro found _
      cases found with
      | none => simp
      | some up => simp; omega
    · apply List.map_congr_left
      intro found _
      cases found with
      | none => simp
      | some up => simp; omega

theorem parents_append (forest other : Forest α) (parent : Option Nat) (position : Nat) :
    (forest ++ other).parents parent position =
      forest.parents parent position ++ other.parents parent (position + forest.size) := by
  induction forest generalizing position with
  | nil => rfl
  | node value children siblings _ later =>
    rw [node_append, parents, parents, later]
    simp only [List.cons_append, List.append_assoc, size]
    congr 4
    omega

@[simp] theorem length_parents (forest : Forest α) (parent : Option Nat) (position : Nat) :
    (forest.parents parent position).length = forest.size := by
  induction forest generalizing parent position with
  | nil => rfl
  | node value children siblings inner later => simp [parents, size, inner, later]

/-- Every value below another may stand under it. -/
def Ordered (under : α → α → Bool) : Forest α → Prop
  | nil => True
  | node value children siblings =>
    (∀ inside ∈ children.preorder, under value inside = true) ∧
      children.Ordered under ∧ siblings.Ordered under

theorem ordered_append (under : α → α → Bool) (forest other : Forest α) :
    (forest ++ other).Ordered under ↔ forest.Ordered under ∧ other.Ordered under := by
  induction forest with
  | nil => simp [Ordered]
  | node value children siblings _ later => simp only [node_append, Ordered, later, and_assoc]

/-- In an ordered forest, taking trees whose roots may stand under a value takes
exactly the entries that may, as far as the first that may not. -/
theorem preorder_takeRoots (under : α → α → Bool)
    (transitive : ∀ first second third, under first second = true →
      under second third = true → under first third = true)
    (value : α) (forest : Forest α) (ordered : forest.Ordered under) :
    (forest.takeRoots (under value)).preorder = forest.preorder.takeWhile (under value) := by
  induction forest with
  | nil => rfl
  | node root children siblings _ later =>
    obtain ⟨below, _, rest⟩ := ordered
    by_cases passes : under value root = true
    · have inner : ∀ inside ∈ children.preorder, under value inside = true :=
        fun inside member => transitive value root inside passes (below inside member)
      simp only [takeRoots, passes, if_true, preorder, List.takeWhile_cons,
        List.takeWhile_append_of_pos inner, later rest]
    · simp [takeRoots, passes, preorder]

/-- What is rebuilt by a transitive relation is ordered by it. -/
theorem nest_ordered (under : α → α → Bool)
    (transitive : ∀ first second third, under first second = true →
      under second third = true → under first third = true)
    (entries : List α) : (nest under entries).Ordered under := by
  induction entries with
  | nil => trivial
  | cons value rest inductionHypothesis =>
    have parts := (ordered_append under ((nest under rest).takeRoots (under value))
      ((nest under rest).dropRoots (under value))).mp (by rwa [take_append_drop])
    refine ⟨?_, parts⟩
    rw [preorder_takeRoots under transitive value _ inductionHypothesis]
    intro inside member
    exact List.mem_takeWhile_imp member

/-- A position is inside the entries taken from the front exactly when all entries
up to it pass. -/
theorem lt_length_takeWhile (test : α → Bool) (entries : List α) (position : Nat)
    (inside : position < entries.length) :
    position < (entries.takeWhile test).length ↔ (entries.take (position + 1)).all test = true := by
  induction entries generalizing position with
  | nil => simp at inside
  | cons value rest inductionHypothesis =>
    by_cases passes : test value = true
    · cases position with
      | zero => simp [passes]
      | succ position =>
        simpa [passes] using inductionHypothesis position (by simpa using inside)
    · simp [passes]

/-- The parent after rebuilding is the nearest entry that stands above everything
up to and including the child.

By induction on the list: the first entry adopts a front part of the forest built
from the others, which are the entries up to the first that may not stand under it.
It becomes the parent of exactly those of them that had none. -/
theorem nest_parents (under : α → α → Bool)
    (transitive : ∀ first second third, under first second = true →
      under second third = true → under first third = true)
    (entries : List α) :
    (nest under entries).parents none 0 = (List.range entries.length).map
      (fun position =>
        lastBelow (fun earlier => above under entries earlier position) position) := by
  induction entries with
  | nil => rfl
  | cons value rest inductionHypothesis =>
    let taken := (nest under rest).takeRoots (under value)
    let left := (nest under rest).dropRoots (under value)
    have count : taken.size = (rest.takeWhile (under value)).length := by
      rw [← length_preorder, preorder_takeRoots under transitive value _
        (nest_ordered under transitive rest), preorder_nest]
    have split : taken.parents none 0 ++ left.parents none taken.size =
        (List.range rest.length).map
          (fun position =>
            lastBelow (fun earlier => above under rest earlier position) position) := by
      rw [← inductionHypothesis, ← take_append_drop (under value) (nest under rest),
        parents_append, Nat.zero_add]
    have moved : left.parents none (1 + taken.size) =
        (left.parents none taken.size).map (Option.map (· + 1)) := by
      rw [parents_shift left none (1 + taken.size), parents_shift left none taken.size,
        List.map_map]
      apply List.map_congr_left
      intro found _
      cases found with
      | none => rfl
      | some up => simp [Nat.add_comm, Nat.add_left_comm]
    rw [List.length_cons, List.range_succ_eq_map, List.map_cons, List.map_map]
    change none :: (taken.parents (some 0) 1 ++ left.parents none (0 + 1 + taken.size)) = _
    refine List.cons_eq_cons.mpr ⟨rfl, ?_⟩
    rw [parents_shift taken (some 0) 1, Nat.zero_add, moved]
    apply List.ext_getElem?
    intro position
    have here : (taken.parents none 0 ++ left.parents none taken.size)[position]? =
        ((List.range rest.length).map (fun position =>
          lastBelow (fun earlier => above under rest earlier position) position))[position]? := by
      rw [split]
    have next : lastBelow (fun earlier => above under (value :: rest) earlier (position + 1))
        (position + 1) =
        ((lastBelow (fun earlier => above under rest earlier position) position).map (· + 1)).or
          (if (rest.take (position + 1)).all (under value) then some 0 else none) := by
      rw [lastBelow_succ]
      simp [above]
    rw [List.getElem?_map] at here ⊢
    by_cases inside : position < rest.length
    · have within := lt_length_takeWhile (under value) rest position inside
      simp only [List.getElem?_range inside, Option.map_some, Function.comp_apply,
        Nat.succ_eq_add_one, next] at here ⊢
      by_cases adopted : position < taken.size
      · rw [List.getElem?_append_left (by simpa using adopted)] at here ⊢
        rw [List.getElem?_map, here, if_pos (within.mp (count ▸ adopted))]
        rfl
      · rw [List.getElem?_append_right (by simpa using adopted)] at here ⊢
        rw [List.length_map, List.getElem?_map, here, if_neg (fun all => adopted
          (count ▸ within.mpr all)), Option.or_none]
        rfl
    · have whole : taken.size + left.size = rest.length := by
        rw [← size_append, take_append_drop, size_nest]
      rw [List.getElem?_eq_none (by simp; omega), List.getElem?_eq_none (by simp; omega)]
      rfl

/-- A parent in the list is the given one or a position of the forest itself. -/
theorem mem_parents (forest : Forest α) (parent found : Option Nat) (position : Nat)
    (member : found ∈ forest.parents parent position) :
    found = parent ∨ ∃ up, found = some up ∧ position ≤ up ∧ up < position + forest.size := by
  induction forest generalizing parent position with
  | nil => simp [parents] at member
  | node value children siblings inner later =>
    simp only [parents, List.mem_cons, List.mem_append] at member
    simp only [size]
    rcases member with rfl | below | beside
    · exact Or.inl rfl
    · rcases inner _ _ below with rfl | ⟨up, rfl, low, high⟩
      · exact Or.inr ⟨position, rfl, by omega, by omega⟩
      · exact Or.inr ⟨up, rfl, by omega, by omega⟩
    · rcases later _ _ beside with rfl | ⟨up, rfl, low, high⟩
      · exact Or.inl rfl
      · exact Or.inr ⟨up, rfl, by omega, by omega⟩

/-- The given parent occurs once for every tree. -/
theorem count_parent (forest : Forest α) (parent : Option Nat) (position : Nat)
    (earlier : ∀ up, parent = some up → up < position) :
    (forest.parents parent position).count parent = forest.width := by
  induction forest generalizing position with
  | nil => rfl
  | node value children siblings _ later =>
    have absent : (children.parents (some position) (position + 1)).count parent = 0 := by
      rw [List.count_eq_zero]
      intro member
      rcases mem_parents children _ _ _ member with same | ⟨up, same, low, _⟩
      · exact absurd (earlier position same) (by omega)
      · exact absurd (earlier up same) (by omega)
    rw [parents, List.count_cons_self, List.count_append, absent, Nat.zero_add,
      later _ (fun up same => by have := earlier up same; omega), width]

/-- No value has too many children exactly when none is a parent too often. -/
theorem narrow_iff_count (forest : Forest α) (bound : Nat) (parent : Option Nat) (position : Nat)
    (earlier : ∀ up, parent = some up → up < position) :
    forest.narrow bound = true ↔
      ∀ up, position ≤ up → (forest.parents parent position).count (some up) ≤ bound := by
  induction forest generalizing parent position with
  | nil => simp [narrow, parents]
  | node value children siblings inner later =>
    have own : (children.parents (some position) (position + 1)).count (some position) =
        children.width :=
      count_parent children _ _ (fun up same => by obtain rfl := Option.some.inj same; omega)
    have innerIff := inner (some position) (position + 1)
      (fun up same => by obtain rfl := Option.some.inj same; omega)
    have laterIff := later parent (position + 1 + children.size)
      (fun up same => by have := earlier up same; omega)
    have different (up : Nat) (low : position ≤ up) : parent ≠ some up := by
      intro same
      have := earlier up same
      omega
    have head (up : Nat) (low : position ≤ up) :
        ((node value children siblings).parents parent position).count (some up) =
          (children.parents (some position) (position + 1)).count (some up) +
            (siblings.parents parent (position + 1 + children.size)).count (some up) := by
      rw [parents, List.count_cons_of_ne (different up low), List.count_append]
    have siblingsOnly (up : Nat) (low : position ≤ up) (high : up < position + 1 + children.size) :
        (siblings.parents parent (position + 1 + children.size)).count (some up) = 0 := by
      rw [List.count_eq_zero]
      intro member
      rcases mem_parents siblings _ _ _ member with same | ⟨found, same, lowest, _⟩
      · exact different up low same.symm
      · obtain rfl := Option.some.inj same
        omega
    have childrenOnly (up : Nat) (low : position + 1 + children.size ≤ up) :
        (children.parents (some position) (position + 1)).count (some up) = 0 := by
      rw [List.count_eq_zero]
      intro member
      rcases mem_parents children _ _ _ member with same | ⟨found, same, _, highest⟩
      · obtain rfl := Option.some.inj same
        omega
      · obtain rfl := Option.some.inj same
        omega
    simp only [narrow, Bool.and_eq_true, decide_eq_true_eq, innerIff, laterIff]
    constructor
    · rintro ⟨⟨wide, below⟩, beside⟩ up low
      rw [head up low]
      rcases Nat.lt_or_ge up (position + 1 + children.size) with inside | outside
      · rw [siblingsOnly up low inside, Nat.add_zero]
        rcases Nat.eq_or_lt_of_le low with rfl | deeper
        · rw [own]
          exact wide
        · exact below up deeper
      · rw [childrenOnly up outside, Nat.zero_add]
        exact beside up outside
    · intro all
      refine ⟨⟨?_, ?_⟩, ?_⟩
      · rw [← own]
        have whole := all position (Nat.le_refl _)
        rw [head position (Nat.le_refl _)] at whole
        omega
      · intro up low
        have whole := all up (by omega)
        rw [head up (by omega)] at whole
        omega
      · intro up low
        have whole := all up (by omega)
        rw [head up (by omega)] at whole
        omega

/-- Rebuilding a labelled forest gives it back, whatever entries follow it, as long
as the first of them is no deeper than the roots. -/
theorem nest_preorder_label (under : β → β → Bool) (tag : Nat → α → β)
    (deeper : ∀ depth value depth' value',
      under (tag depth value) (tag depth' value') = decide (depth < depth'))
    (forest : Forest α) (depth : Nat) (after : List β)
    (stops : ∀ entry, after.head? = some entry → ∀ depth' value, depth ≤ depth' →
      under (tag depth' value) entry = false) :
    nest under ((forest.label tag depth).preorder ++ after) =
      forest.label tag depth ++ nest under after := by
  induction forest generalizing depth after with
  | nil => rfl
  | node value children siblings inner later =>
    have stopsChildren : ∀ entry,
        ((siblings.label tag depth).preorder ++ after).head? = some entry →
        ∀ depth' value, depth + 1 ≤ depth' → under (tag depth' value) entry = false := by
      intro entry first depth' value below
      cases siblings with
      | nil => exact stops entry first depth' value (by omega)
      | node sibling nephews others =>
        simp only [label, preorder, List.cons_append, List.head?_cons, Option.some.injEq] at first
        rw [← first, deeper]
        simp
        omega
    have rebuilt := later depth after stops
    have stopsRoot : ((siblings.label tag depth ++ nest under after).takeRoots
        (under (tag depth value))) = nil ∧ ((siblings.label tag depth ++ nest under after).dropRoots
        (under (tag depth value))) = siblings.label tag depth ++ nest under after := by
      cases siblings with
      | nil =>
        cases after with
        | nil => exact ⟨rfl, rfl⟩
        | cons entry rest =>
          have blocked := stops entry rfl depth value (Nat.le_refl _)
          simp [label, nest, takeRoots, dropRoots, blocked]
      | node sibling nephews others => simp [label, takeRoots, dropRoots, deeper]
    have adoptsChildren : (children.label tag (depth + 1)).dropRoots (under (tag depth value)) =
        nil := by
      clear inner stopsChildren
      induction children with
      | nil => rfl
      | node child below others _ rest => simp [label, dropRoots, deeper, rest]
    rw [label, preorder, List.cons_append, List.append_assoc, nest,
      inner (depth + 1) _ stopsChildren, rebuilt]
    have parts := takeRoots_append (under (tag depth value)) _
      (siblings.label tag depth ++ nest under after) adoptsChildren
    rw [parts.1, parts.2, stopsRoot.1, stopsRoot.2, append_nil, node_append]

/-- Finish rebuilding from an open state. The state has the trees closed at the root,
and for each open value, innermost first, its closed children. The pending trees come
next in the innermost scope, and the rest is what the later entries nest to. -/
def resume (under : α → α → Bool) :
    List (α × Forest α) → Forest α → Forest α → Forest α → Forest α
  | [], closed, pending, rest => closed ++ (pending ++ rest)
  | (value, children) :: below, closed, pending, rest =>
    resume under below closed
      (node value (children ++ (pending ++ rest.takeRoots (under value))) nil)
      (rest.dropRoots (under value))

/-- Pending trees join the closed ones of the innermost scope. -/
theorem resume_settle (under : α → α → Bool) (value : α) (below : List (α × Forest α))
    (children closed pending rest : Forest α) :
    resume under ((value, children) :: below) closed pending rest =
      resume under ((value, children ++ pending) :: below) closed nil rest := by
  simp [resume, append_assoc]

/-- A scope that takes nothing of the rest can be closed. -/
theorem resume_close (under : α → α → Bool) (value : α) (below : List (α × Forest α))
    (children closed rest : Forest α) (stops : rest.takeRoots (under value) = nil) :
    resume under ((value, children) :: below) closed nil rest =
      resume under below closed (node value children nil) rest := by
  have left := take_append_drop (under value) rest
  rw [stops, nil_append] at left
  rw [resume, stops, left]
  simp

/-- An entry that may stand under the innermost open value opens a scope in it. -/
theorem resume_open (under : α → α → Bool) (entry : α) (later : List α)
    (stack : List (α × Forest α)) (closed : Forest α)
    (fits : ∀ top, stack.head? = some top → under top.1 entry = true) :
    resume under stack closed nil (nest under (entry :: later)) =
      resume under ((entry, nil) :: stack) closed nil (nest under later) := by
  cases stack with
  | nil => simp [resume, nest]
  | cons top below =>
    have adopts : under top.1 entry = true := fits top rfl
    simp [resume, nest, takeRoots, dropRoots, adopts]

/-- The bound on the number of children has to hold in every scope already. -/
theorem narrow_of_resume (under : α → α → Bool) (bound : Nat) (value : α)
    (below : List (α × Forest α)) (children closed pending rest : Forest α)
    (small : (resume under ((value, children) :: below) closed pending rest).narrow bound = true) :
    children.width + pending.width ≤ bound := by
  have pendingNarrow (stack : List (α × Forest α)) (pending rest : Forest α)
      (small : (resume under stack closed pending rest).narrow bound = true) :
      pending.narrow bound = true := by
    induction stack generalizing pending rest with
    | nil => simp_all [resume]
    | cons top below inductionHypothesis =>
      have inner := inductionHypothesis _ _ small
      simp_all [narrow]
  have inner := pendingNarrow below _ _ small
  simp [narrow] at inner
  omega

end Forest

end Graced
