import Graced.CallTree
import Mathlib.Data.List.Basic

/-!
# Paths and positions in the call tree

An instruction gets its path when it is pushed, from a counter that moves on only as earlier
siblings are closed. In the finished tree the path is the root index followed by the
positions that lead to the instruction, each cut to one byte; as long as no instruction has
more than 255 direct calls nothing is cut, and different instructions have different paths.

A path starts with the index of the root instruction. The lookup by path takes its first
entry for a position among the children of the root already, so that it never finds the
instruction whose path it is given.
-/

namespace Graced

/-- The instruction that positions lead to. -/
def StackIx.descend (ix : StackIx) : List Nat → Option StackIx
  | [] => some ix
  | position :: rest => do
    let child ← ix.inner[position]?
    child.descend rest

namespace CallPaths

open CallTree Forest

universe u
variable {ε : Type u}

/-- Looking a path up goes down its positions. -/
theorem trace_eq_descend (ix : StackIx) (path : Path) :
    ix.trace path = ix.descend (path.map UInt8.toNat) := by
  induction path generalizing ix with
  | nil => rfl
  | cons position rest inductionHypothesis =>
    rw [StackIx.trace, List.map_cons, StackIx.descend]
    congr 1
    funext child
    exact inductionHypothesis child

/-- The instruction at a position of a placed forest. -/
theorem place_getElem? {α : Type} (ixOf : α → CompiledInstruction) (path : Path)
    (first position : Nat) (forest : Forest α) (child : StackIx)
    (found : (place ixOf path first forest)[position]? = some child) :
    ∃ value children, children.size < forest.size ∧ child = ⟨ixOf value,
      place ixOf (path ++ [.ofNat (first + position)]) 0 children,
      path ++ [.ofNat (first + position)]⟩ := by
  induction forest generalizing first position with
  | nil => simp [place] at found
  | node value children siblings _ later =>
    rw [place] at found
    rw [size]
    cases position with
    | zero =>
      rw [List.getElem?_cons_zero] at found
      exact ⟨value, children, by omega, (Option.some.inj found).symm⟩
    | succ position =>
      rw [List.getElem?_cons_succ] at found
      obtain ⟨below, calls, smaller, same⟩ := later (first + 1) position found
      rw [Nat.add_assoc, Nat.add_comm 1] at same
      exact ⟨below, calls, by omega, same⟩

theorem length_place {α : Type} (ixOf : α → CompiledInstruction) (path : Path) (first : Nat)
    (forest : Forest α) : (place ixOf path first forest).length = forest.width := by
  induction forest generalizing first with
  | nil => rfl
  | node value children siblings _ later => rw [place, List.length_cons, later, width]

/-- Below an instruction whose calls are placed under its path, positions add up to paths, and
no instruction has more direct calls than the forest has values. -/
theorem descend_placed {α : Type} (ixOf : α → CompiledInstruction) (ix : CompiledInstruction)
    (path : Path) (forest : Forest α) (positions : List Nat) (node : StackIx)
    (reached : StackIx.descend ⟨ix, place ixOf path 0 forest, path⟩ positions = some node) :
    node.path = path ++ positions.map UInt8.ofNat ∧ node.inner.length ≤ forest.size := by
  induction positions generalizing ix path forest with
  | nil =>
    obtain rfl := Option.some.inj reached
    exact ⟨(List.append_nil path).symm,
      (length_place ixOf path 0 forest).trans_le (width_le_size forest)⟩
  | cons position rest inductionHypothesis =>
    obtain ⟨child, found, below⟩ := Option.bind_eq_some_iff.mp reached
    obtain ⟨value, children, smaller, rfl⟩ :=
      place_getElem? ixOf path 0 position forest child found
    obtain ⟨samePath, few⟩ := inductionHypothesis _ _ children below
    refine ⟨?_, few.trans smaller.le⟩
    rw [samePath, Nat.zero_add, List.append_assoc, List.singleton_append, List.map_cons]

/-- The path of an instruction of a built tree: the root index and the positions, as bytes. -/
theorem built_path (profile : Profile) (ix : CompiledInstruction)
    (innerIxs : List IxWithStackHeight) (index : UInt8) (tree : StackIx)
    (built : (buildIxStack profile ix innerIxs index : Outcome ε StackIx) = .ok tree)
    (positions : List Nat) (node : StackIx) (reached : tree.descend positions = some node) :
    node.path = index :: positions.map UInt8.ofNat := by
  rw [buildIxStack_eq] at built
  split at built
  · simp at built
  · obtain rfl := Outcome.ok.inj built
    exact (descend_placed IxWithStackHeight.ix ix [index] _ positions node reached).1

/-- No instruction of a built tree has more direct calls than the list has entries. -/
theorem built_few (profile : Profile) (ix : CompiledInstruction)
    (innerIxs : List IxWithStackHeight) (index : UInt8) (tree : StackIx)
    (built : (buildIxStack profile ix innerIxs index : Outcome ε StackIx) = .ok tree)
    (positions : List Nat) (node : StackIx) (reached : tree.descend positions = some node) :
    node.inner.length ≤ innerIxs.length := by
  rw [buildIxStack_eq] at built
  split at built
  · simp at built
  · obtain rfl := Outcome.ok.inj built
    rw [← size_nest under innerIxs]
    exact (descend_placed IxWithStackHeight.ix ix [index] _ positions node reached).2

/-- Positions in a tree without crowded instructions are bytes. -/
theorem descend_small (ix : StackIx) (positions : List Nat) (node : StackIx)
    (reached : ix.descend positions = some node)
    (uncrowded : ∀ down within, ix.descend down = some within → within.inner.length ≤ 255) :
    ∀ position ∈ positions, position < 256 := by
  induction positions generalizing ix with
  | nil => simp
  | cons position rest inductionHypothesis =>
    obtain ⟨child, found, below⟩ := Option.bind_eq_some_iff.mp reached
    have inside := (List.getElem?_eq_some_iff.mp found).1
    have few := uncrowded [] ix rfl
    have later := inductionHypothesis child below fun down within arrived =>
      uncrowded (position :: down) within (by rw [StackIx.descend, found]; exact arrived)
    rintro other member
    rcases List.mem_cons.mp member with rfl | deeper
    · omega
    · exact later other deeper

/-- Bytes come back as the numbers they were. -/
theorem map_toNat_ofNat (positions : List Nat) (small : ∀ position ∈ positions, position < 256) :
    (positions.map UInt8.ofNat).map UInt8.toNat = positions := by
  rw [List.map_map]
  refine (List.map_congr_left fun position member => ?_).trans (List.map_id positions)
  exact UInt8.toNat_ofNat_of_lt' (small position member)

/-- Where no placed instruction is crowded, no value of the forest has too many children. -/
theorem narrow_of_uncrowded {α : Type} (ixOf : α → CompiledInstruction) (bound : Nat) (path : Path)
    (first : Nat) (forest : Forest α)
    (uncrowded : ∀ child ∈ place ixOf path first forest, ∀ positions node,
      child.descend positions = some node → node.inner.length ≤ bound) :
    forest.narrow bound = true := by
  induction forest generalizing path first with
  | nil => rfl
  | node value children siblings inner later =>
    rw [place] at uncrowded
    simp only [narrow, Bool.and_eq_true, decide_eq_true_eq]
    refine ⟨⟨?_, ?_⟩, ?_⟩
    · rw [← length_place ixOf (path ++ [.ofNat first]) 0 children]
      exact uncrowded _ List.mem_cons_self [] _ rfl
    · refine inner (path ++ [.ofNat first]) 0 fun child member positions node reached => ?_
      obtain ⟨position, found⟩ := List.mem_iff_getElem?.mp member
      refine uncrowded _ List.mem_cons_self (position :: positions) node ?_
      rw [StackIx.descend, found]
      exact reached
    · exact later path (first + 1) fun child member =>
        uncrowded child (List.mem_cons_of_mem _ member)

/-- An instruction's path is the root index and the positions that lead to it, so that
different positions have different paths. -/
structure PathsArePositions (index : UInt8) (tree : StackIx) : Prop where
  path : ∀ positions node, tree.descend positions = some node →
    node.path.map UInt8.toNat = index.toNat :: positions
  distinct : ∀ positions others node other, tree.descend positions = some node →
    tree.descend others = some other → node.path = other.path → positions = others

/-- A tree without crowded instructions is built in every build. -/
theorem built_of_uncrowded (profile other : Profile) (ix : CompiledInstruction)
    (innerIxs : List IxWithStackHeight) (index : UInt8) (tree : StackIx)
    (built : (buildIxStack profile ix innerIxs index : Outcome ε StackIx) = .ok tree)
    (uncrowded : ∀ positions node, tree.descend positions = some node →
      node.inner.length ≤ 255) :
    (buildIxStack other ix innerIxs index : Outcome ε StackIx) = .ok tree := by
  rw [buildIxStack_eq] at built ⊢
  split at built
  · simp at built
  · obtain rfl := Outcome.ok.inj built
    have few := uncrowded [] _ rfl
    rw [length_place] at few
    have countable : Countable (nest under innerIxs) := by
      refine ⟨by omega, narrow_of_uncrowded IxWithStackHeight.ix 255 [index] 0 _ ?_⟩
      intro child member positions node reached
      obtain ⟨position, found⟩ := List.mem_iff_getElem?.mp member
      refine uncrowded (position :: positions) node ?_
      rw [StackIx.descend, found]
      exact reached
    rw [if_neg fun panics => panics.2 countable]

/-- A tree without crowded instructions is built in every build, and its paths are positions. -/
theorem paths_are_positions (profile : Profile) (ix : CompiledInstruction)
    (innerIxs : List IxWithStackHeight) (index : UInt8) (tree : StackIx)
    (built : (buildIxStack profile ix innerIxs index : Outcome ε StackIx) = .ok tree)
    (uncrowded : ∀ positions node, tree.descend positions = some node →
      node.inner.length ≤ 255) :
    (∀ other : Profile, (buildIxStack other ix innerIxs index : Outcome ε StackIx) = .ok tree) ∧
      PathsArePositions index tree := by
  have path : ∀ positions node, tree.descend positions = some node →
      node.path.map UInt8.toNat = index.toNat :: positions := by
    intro positions node reached
    rw [built_path profile ix innerIxs index tree built positions node reached, List.map_cons,
      map_toNat_ofNat positions (descend_small tree positions node reached uncrowded)]
  refine ⟨fun other => built_of_uncrowded profile other ix innerIxs index tree built uncrowded,
    path, ?_⟩
  intro positions others node other reached otherReached samePath
  have numbers := path positions node reached
  rw [samePath, path others other otherReached] at numbers
  exact (List.cons.inj numbers).2.symm

/-- No instruction of a built tree is found by its path: the root index would have to be a
position as well. -/
theorem trace_never_finds (profile : Profile) (ix : CompiledInstruction)
    (innerIxs : List IxWithStackHeight) (index : UInt8) (tree : StackIx)
    (built : (buildIxStack profile ix innerIxs index : Outcome ε StackIx) = .ok tree)
    (positions : List Nat) (node : StackIx) (reached : tree.descend positions = some node) :
    tree.trace node.path ≠ some node := by
  intro found
  rw [trace_eq_descend] at found
  have ownPath := congrArg List.length
    (built_path profile ix innerIxs index tree built positions node reached)
  have foundPath := congrArg List.length
    (built_path profile ix innerIxs index tree built _ node found)
  simp only [List.length_cons, List.length_map] at ownPath foundPath
  omega

/-- A call that makes a call, and another call. -/
def nestedIxs : List IxWithStackHeight :=
  [⟨⟨1, [], []⟩, some 2⟩, ⟨⟨2, [], []⟩, some 3⟩, ⟨⟨3, [], []⟩, none⟩]

/-- Their tree. -/
def nestedTree : StackIx :=
  ⟨⟨0, [], []⟩, [⟨⟨1, [], []⟩, [⟨⟨2, [], []⟩, [], [0, 0, 0]⟩], [0, 0]⟩,
    ⟨⟨3, [], []⟩, [], [0, 1]⟩], [0]⟩

theorem nestedTree_built :
    (buildIxStack ⟨true⟩ ⟨0, [], []⟩ nestedIxs 0 : Outcome Empty StackIx) = .ok nestedTree := rfl

/-- A list with few entries leads to few calls of each. -/
theorem paths_are_positions_of_nested : PathsArePositions 0 nestedTree :=
  (paths_are_positions ⟨true⟩ ⟨0, [], []⟩ nestedIxs 0 nestedTree nestedTree_built
    fun positions node reached =>
      (built_few ⟨true⟩ ⟨0, [], []⟩ nestedIxs 0 nestedTree nestedTree_built positions node
        reached).trans (by decide)).2

/-- The innermost call is not found by its path. -/
theorem trace_never_finds_nested : nestedTree.trace [0, 0, 0] ≠
    some ⟨⟨2, [], []⟩, [], [0, 0, 0]⟩ :=
  trace_never_finds ⟨true⟩ ⟨0, [], []⟩ nestedIxs 0 nestedTree nestedTree_built [0, 0] _ rfl

/-- The path of the root leads to its first call, that of the first call to the call it makes,
and that of the other call nowhere. -/
theorem trace_strays :
    (buildIxStack ⟨true⟩ ⟨0, [], []⟩ nestedIxs 0 : Outcome Empty StackIx) = .ok nestedTree ∧
      nestedTree.trace nestedTree.path =
        some ⟨⟨1, [], []⟩, [⟨⟨2, [], []⟩, [], [0, 0, 0]⟩], [0, 0]⟩ ∧
      nestedTree.trace [0, 0] = some ⟨⟨2, [], []⟩, [], [0, 0, 0]⟩ ∧
      nestedTree.trace [0, 1] = none ∧
      nestedTree.trace nestedTree.path ≠ some nestedTree := by
  refine ⟨nestedTree_built, rfl, rfl, rfl, fun found => ?_⟩
  exact absurd (congrArg StackIx.path (Option.some.inj found)) (by decide)

end CallPaths

end Graced
