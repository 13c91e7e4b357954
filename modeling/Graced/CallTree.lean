import Graced.Forest
import Graced.Instruction

/-!
# The call tree is the forest of the listed heights

An entry of the flat list can be called by an earlier one when both heights are
known and its own is greater. The stack machine rebuilds exactly the forest that
this relation nests the list to: at every point the open scopes, their closed
children and the forest of the entries still to come make up the same result.

The only way to fail is a child counter that overflows in a checked build. The
children of the root are not counted when the stack is drained, so the root may
have one child more than any other instruction.
-/

namespace Graced.CallTree

open Forest

universe u
variable {ε : Type u}

/-- May the earlier entry be a caller of the later one? -/
def under (caller callee : IxWithStackHeight) : Bool := isValidParent caller.height callee.height

theorem under_iff (caller callee : IxWithStackHeight) :
    under caller callee = true ↔
      ∃ low high, caller.height = some low ∧ callee.height = some high ∧ low < high := by
  unfold under isValidParent
  cases caller.height <;> cases callee.height <;> simp

theorem under_trans (first second third : IxWithStackHeight) (outer : under first second = true)
    (inner : under second third = true) : under first third = true := by
  obtain ⟨low, middle, atLow, atMiddle, less⟩ := (under_iff first second).mp outer
  obtain ⟨middle', high, atMiddle', atHigh, less'⟩ := (under_iff second third).mp inner
  obtain rfl := Option.some.inj (atMiddle.symm.trans atMiddle')
  exact (under_iff first third).mpr ⟨low, high, atLow, atHigh, by omega⟩

/-- The instructions of a forest, the first root being the child of the path at the
given position. -/
def place {α : Type} (ixOf : α → CompiledInstruction) :
    Path → Nat → Forest α → List StackIx
  | _, _, .nil => []
  | path, position, .node value children siblings =>
    ⟨ixOf value, place ixOf (path ++ [.ofNat position]) 0 children, path ++ [.ofNat position]⟩ ::
      place ixOf path (position + 1) siblings

theorem place_append {α : Type} (ixOf : α → CompiledInstruction) (path : Path) (position : Nat)
    (forest other : Forest α) :
    place ixOf path position (forest ++ other) =
      place ixOf path position forest ++ place ixOf path (position + forest.width) other := by
  induction forest generalizing position with
  | nil => rfl
  | node value children siblings _ later =>
    simp only [node_append, place, later, width, List.cons_append, Nat.add_assoc, Nat.add_comm 1]

/-- Only the instructions are placed. -/
theorem place_map {α β : Type} (ixOf : β → CompiledInstruction) (f : α → β) (path : Path)
    (position : Nat) (forest : Forest α) :
    place ixOf path position (forest.map f) = place (fun value => ixOf (f value)) path position
      forest := by
  induction forest generalizing path position with
  | nil => rfl
  | node value children siblings inner later => simp only [map, place, inner, later]

/-- An entry whose scope is open, and its closed children. -/
abbrev OpenEntry := IxWithStackHeight × Forest IxWithStackHeight

/-- The path that the next child of the innermost scope gets. -/
def nextPath (index : UInt8) (closed : Forest IxWithStackHeight) : List OpenEntry → Path
  | [] => [index, .ofNat closed.width]
  | (_, children) :: below => nextPath index closed below ++ [.ofNat children.width]

/-- The open instruction that stands for an open entry. -/
def frame (index : UInt8) (closed : Forest IxWithStackHeight) (entry : IxWithStackHeight)
    (children : Forest IxWithStackHeight) (below : List OpenEntry) : OpenIx :=
  ⟨⟨entry.ix, place IxWithStackHeight.ix (nextPath index closed below) 0 children,
      nextPath index closed below⟩,
    entry.height, .ofNat children.width⟩

/-- The stack that stands for the open entries. -/
def frames (index : UInt8) (closed : Forest IxWithStackHeight) : List OpenEntry → List OpenIx
  | [] => []
  | (entry, children) :: below =>
    frame index closed entry children below :: frames index closed below

/-- The state of the loop that stands for open entries and closed trees. -/
def scopesOf (index : UInt8) (closed : Forest IxWithStackHeight) (stack : List OpenEntry) :
    Scopes :=
  ⟨frames index closed stack, place IxWithStackHeight.ix [index] 0 closed, .ofNat closed.width⟩

/-- All child counts fit in their byte, and the closed children did. -/
structure Counted (closed : Forest IxWithStackHeight) (stack : List OpenEntry) : Prop where
  root : closed.width ≤ 255 ∧ closed.narrow 255 = true
  scopes : ∀ scope ∈ stack, scope.2.width ≤ 255 ∧ scope.2.narrow 255 = true

/-- What the counters can hold: 256 children of the root and 255 of any other. -/
def Countable (forest : Forest IxWithStackHeight) : Prop :=
  forest.width ≤ 256 ∧ forest.narrow 255 = true

instance (forest : Forest IxWithStackHeight) : Decidable (Countable forest) :=
  inferInstanceAs (Decidable (_ ∧ _))

/-- A counter in range steps to the next count, or panics at the last one. -/
theorem increment8_ofNat (profile : Profile) (count : Nat)
    (small : profile.overflowChecks = true → count ≤ 255) :
    (profile.increment8 (.ofNat count) : Outcome ε UInt8) =
      if profile.overflowChecks ∧ count = 255 then .panic else .ok (.ofNat (count + 1)) := by
  unfold Profile.increment8
  by_cases checks : profile.overflowChecks = true
  · have range := small checks
    have same : (UInt8.ofNat count).toNat = count := by
      rw [UInt8.toNat_ofNat']
      omega
    simp [checks, same, UInt8.ofNat_add]
  · simp [checks, UInt8.ofNat_add]

/-- Adopting a finished instruction adds a tree to the closed children. -/
theorem frame_adopt (index : UInt8) (closed : Forest IxWithStackHeight)
    (parent entry : IxWithStackHeight) (siblings children : Forest IxWithStackHeight)
    (below : List OpenEntry) :
    (frame index closed parent siblings below).adopt
        (frame index closed entry children ((parent, siblings) :: below)).node
        (.ofNat (siblings.width + 1)) =
      frame index closed parent (siblings ++ .node entry children .nil) below := by
  simp [frame, OpenIx.adopt, place_append, place, nextPath, width]

/-- The finished first scope adds a tree to the root. -/
theorem place_finished (index : UInt8) (closed children : Forest IxWithStackHeight)
    (entry : IxWithStackHeight) :
    place IxWithStackHeight.ix [index] 0 closed ++ [(frame index closed entry children []).node] =
      place IxWithStackHeight.ix [index] 0 (closed ++ .node entry children .nil) := by
  simp [frame, place_append, place, nextPath]

/-- A closed scope leaves its parent counted, unless the parent's counter is full. -/
theorem counted_adopt (closed : Forest IxWithStackHeight) (parent entry : IxWithStackHeight)
    (siblings children : Forest IxWithStackHeight) (below : List OpenEntry)
    (counted : Counted closed ((entry, children) :: (parent, siblings) :: below))
    (room : siblings.width ≠ 255) :
    Counted closed ((parent, siblings ++ .node entry children .nil) :: below) := by
  have own : children.width ≤ 255 ∧ children.narrow 255 = true :=
    counted.scopes (entry, children) (by simp)
  have parents : siblings.width ≤ 255 ∧ siblings.narrow 255 = true :=
    counted.scopes (parent, siblings) (by simp)
  refine ⟨counted.root, ?_⟩
  intro scope member
  rcases List.mem_cons.mp member with rfl | deeper
  · simp only [width_append, narrow_append, width, narrow, Bool.and_eq_true, decide_eq_true_eq,
      Bool.and_true]
    exact ⟨by omega, parents.2, own.1, own.2⟩
  · exact counted.scopes scope (by simp [deeper])

@[simp] theorem frame_height (index : UInt8) (closed children : Forest IxWithStackHeight)
    (entry : IxWithStackHeight) (below : List OpenEntry) :
    (frame index closed entry children below).height = entry.height := rfl

@[simp] theorem frame_count (index : UInt8) (closed children : Forest IxWithStackHeight)
    (entry : IxWithStackHeight) (below : List OpenEntry) :
    (frame index closed entry children below).count = .ofNat children.width := rfl

/-- A scope that cannot take the next entry is closed before it. -/
theorem resume_invalid (entry next : IxWithStackHeight) (below : List OpenEntry)
    (children closed inner later : Forest IxWithStackHeight)
    (invalid : ¬ isValidParent entry.height next.height = true) :
    resume under ((entry, children) :: below) closed .nil (.node next inner later) =
      resume under below closed (.node entry children .nil) (.node next inner later) := by
  apply resume_close under entry below children closed
  rw [takeRoots, if_neg]
  exact invalid

/-- What closing scopes for an entry may result in: a state in which the innermost
scope may take the entry and which rebuilds to the same forest, or a panic because
that forest is not countable. -/
def ClosedFor (profile : Profile) (index : UInt8) (next : IxWithStackHeight)
    (stack : List OpenEntry) (closed : Forest IxWithStackHeight) (result : Outcome ε Scopes) :
    Prop :=
  (∃ stack' closed', result = .ok (scopesOf index closed' stack') ∧
    (profile.overflowChecks = true → Counted closed' stack') ∧
    (∀ top, stack'.head? = some top → under top.1 next = true) ∧
    ∀ inner later, resume under stack closed .nil (.node next inner later) =
      resume under stack' closed' .nil (.node next inner later)) ∨
  (result = .panic ∧ profile.overflowChecks = true ∧
    ∀ inner later, ¬ Countable (resume under stack closed .nil (.node next inner later)))

/-- Closing scopes does what it may. By induction on the scopes below the innermost
one: each closed scope adds a tree to the next. -/
theorem closeScopes_spec (profile : Profile) (index : UInt8) (next entry : IxWithStackHeight)
    (children closed : Forest IxWithStackHeight) (below : List OpenEntry)
    (counted : profile.overflowChecks = true → Counted closed ((entry, children) :: below)) :
    ClosedFor profile index next ((entry, children) :: below) closed
      (closeScopes profile next.height (frame index closed entry children below)
        (frames index closed below) (place IxWithStackHeight.ix [index] 0 closed)
        (.ofNat closed.width) :
          Outcome ε Scopes) := by
  induction below generalizing entry children with
  | nil =>
    by_cases valid : isValidParent entry.height next.height = true
    · refine Or.inl ⟨[(entry, children)], closed, ?_, counted, ?_, fun _ _ => rfl⟩
      · simp [closeScopes, frames, valid, scopesOf]
      · rintro top ⟨⟩
        exact valid
    · rw [frames, closeScopes, frame_height, if_neg valid,
        increment8_ofNat profile closed.width (fun checks => (counted checks).root.1)]
      by_cases full : profile.overflowChecks = true ∧ closed.width = 255
      · refine Or.inr ⟨by simp [full], full.1, ?_⟩
        intro inner later countable
        have wide := countable.1
        rw [resume_invalid _ _ _ _ _ _ _ valid] at wide
        simp only [resume, width_append, width] at wide
        omega
      · refine Or.inl ⟨[], closed ++ .node entry children .nil, ?_, ?_, by simp, ?_⟩
        · simp [full, place_finished, scopesOf, frames, width]
        · intro checks
          have own : children.width ≤ 255 ∧ children.narrow 255 = true :=
            (counted checks).scopes (entry, children) (by simp)
          have root := (counted checks).root
          have room : closed.width ≠ 255 := fun last => full ⟨checks, last⟩
          refine ⟨?_, by simp⟩
          simp only [width_append, narrow_append, width, narrow, Bool.and_eq_true,
            decide_eq_true_eq, Bool.and_true]
          exact ⟨by omega, root.2, own.1, own.2⟩
        · intro inner later
          rw [resume_invalid _ _ _ _ _ _ _ valid]
          simp [resume, append_assoc]
  | cons parent below inductionHypothesis =>
    obtain ⟨parent, siblings⟩ := parent
    by_cases valid : isValidParent entry.height next.height = true
    · refine Or.inl ⟨_, closed, ?_, counted, ?_, fun _ _ => rfl⟩
      · simp [closeScopes, frames, valid, scopesOf]
      · rintro top ⟨⟩
        exact valid
    · have parentSmall : profile.overflowChecks = true → siblings.width ≤ 255 :=
        fun checks => ((counted checks).scopes (parent, siblings) (by simp)).1
      have moved (inner later : Forest IxWithStackHeight) :
          resume under ((entry, children) :: (parent, siblings) :: below) closed .nil
            (.node next inner later) =
          resume under ((parent, siblings ++ .node entry children .nil) :: below) closed .nil
            (.node next inner later) := by
        rw [resume_invalid _ _ _ _ _ _ _ valid, resume_settle]
      rw [frames, closeScopes, frame_height, if_neg valid, frame_count,
        increment8_ofNat profile _ parentSmall]
      unfold ClosedFor
      simp only [moved]
      by_cases full : profile.overflowChecks = true ∧ siblings.width = 255
      · refine Or.inr ⟨by simp [full], full.1, ?_⟩
        intro inner later countable
        have wide := narrow_of_resume under 255 parent below _ closed .nil _ countable.2
        simp only [width_append, width] at wide
        omega
      · have room (checks : profile.overflowChecks = true) :
            Counted closed ((parent, siblings ++ .node entry children .nil) :: below) :=
          counted_adopt closed parent entry siblings children below (counted checks)
            (fun last => full ⟨checks, last⟩)
        rw [if_neg full, Outcome.ok_bind, frame_adopt]
        exact inductionHypothesis parent (siblings ++ .node entry children .nil) room

/-- Draining the stack finishes rebuilding with nothing to come. -/
theorem drainScopes_spec (profile : Profile) (index : UInt8) (entry : IxWithStackHeight)
    (children closed : Forest IxWithStackHeight) (below : List OpenEntry)
    (counted : profile.overflowChecks = true → Counted closed ((entry, children) :: below)) :
    (drainScopes profile (frame index closed entry children below) (frames index closed below)
        (place IxWithStackHeight.ix [index] 0 closed) : Outcome ε (List StackIx)) =
      if profile.overflowChecks ∧
          ¬ Countable (resume under ((entry, children) :: below) closed .nil .nil) then .panic
      else .ok (place IxWithStackHeight.ix [index] 0
        (resume under ((entry, children) :: below) closed .nil .nil)) := by
  induction below generalizing entry children with
  | nil =>
    have result : resume under [(entry, children)] closed .nil .nil =
        closed ++ .node entry children .nil := by
      simp [resume, takeRoots, dropRoots]
    have countable (checks : profile.overflowChecks = true) :
        Countable (closed ++ .node entry children .nil) := by
      have own : children.width ≤ 255 ∧ children.narrow 255 = true :=
        (counted checks).scopes (entry, children) (by simp)
      have root := (counted checks).root
      unfold Countable
      simp only [width_append, narrow_append, width, narrow, Bool.and_eq_true,
        decide_eq_true_eq, Bool.and_true]
      exact ⟨by omega, root.2, own.1, own.2⟩
    rw [result, if_neg (fun both => both.2 (countable both.1)), frames, drainScopes,
      place_finished]
  | cons parent below inductionHypothesis =>
    obtain ⟨parent, siblings⟩ := parent
    have moved : resume under ((entry, children) :: (parent, siblings) :: below) closed .nil .nil =
        resume under ((parent, siblings ++ .node entry children .nil) :: below) closed
          .nil .nil := by
      rw [resume_close under entry _ children closed .nil rfl, resume_settle]
    rw [moved, frames, drainScopes, frame_count, increment8_ofNat profile _
      (fun checks => ((counted checks).scopes (parent, siblings) (by simp)).1)]
    by_cases full : profile.overflowChecks = true ∧ siblings.width = 255
    · rw [if_pos full, if_pos]
      · rfl
      · refine ⟨full.1, ?_⟩
        intro countable
        have wide := narrow_of_resume under 255 parent below _ closed .nil _ countable.2
        simp only [width_append, width] at wide
        omega
    · rw [if_neg full, Outcome.ok_bind, frame_adopt]
      exact inductionHypothesis parent (siblings ++ .node entry children .nil)
        (fun checks => counted_adopt closed parent entry siblings children below (counted checks)
          (fun last => full ⟨checks, last⟩))

/-- The state before the first entry stands for no scopes and no trees. -/
theorem scopesOf_nil (index : UInt8) : scopesOf index .nil [] = ⟨[], [], 0⟩ := rfl

/-- Pushing an entry opens a scope without children. -/
theorem push_scopesOf (index : UInt8) (entry : IxWithStackHeight) (stack : List OpenEntry)
    (closed : Forest IxWithStackHeight) :
    (scopesOf index closed stack).push [index] entry =
      scopesOf index closed ((entry, .nil) :: stack) := by
  cases stack <;>
    simp [scopesOf, Scopes.push, frames, frame, Scopes.nextPath, nextPath, place, width]

/-- A new scope has nothing to count yet. -/
theorem counted_push (closed : Forest IxWithStackHeight) (entry : IxWithStackHeight)
    (stack : List OpenEntry) (counted : Counted closed stack) :
    Counted closed ((entry, .nil) :: stack) := by
  refine ⟨counted.root, ?_⟩
  intro scope member
  rcases List.mem_cons.mp member with rfl | deeper
  · exact ⟨by simp [width], rfl⟩
  · exact counted.scopes scope deeper

/-- Closing scopes for an entry, also when no scope is open. -/
theorem close_spec (profile : Profile) (index : UInt8) (next : IxWithStackHeight)
    (stack : List OpenEntry) (closed : Forest IxWithStackHeight)
    (counted : profile.overflowChecks = true → Counted closed stack) :
    ClosedFor profile index next stack closed
      ((scopesOf index closed stack).close profile next.height : Outcome ε Scopes) := by
  cases stack with
  | nil => exact Or.inl ⟨[], closed, rfl, counted, by simp, fun _ _ => rfl⟩
  | cons top below => exact closeScopes_spec profile index next top.1 top.2 closed below counted

/-- The loop and the final drain rebuild the forest of what is open and what comes. -/
theorem openScopes_spec (profile : Profile) (index : UInt8) (entries : List IxWithStackHeight)
    (stack : List OpenEntry) (closed : Forest IxWithStackHeight)
    (counted : profile.overflowChecks = true → Counted closed stack) :
    (openScopes profile [index] (scopesOf index closed stack) entries >>=
        fun scopes => scopes.drain profile : Outcome ε (List StackIx)) =
      if profile.overflowChecks ∧
          ¬ Countable (resume under stack closed .nil (nest under entries)) then .panic
      else .ok (place IxWithStackHeight.ix [index] 0
        (resume under stack closed .nil (nest under entries))) := by
  induction entries generalizing stack closed with
  | nil =>
    cases stack with
    | nil =>
      have countable (checks : profile.overflowChecks = true) : Countable closed :=
        ⟨by have := (counted checks).root.1; omega, (counted checks).root.2⟩
      have result : resume under [] closed .nil (nest under []) = closed := by
        simp [resume, nest]
      rw [result, if_neg (fun both => both.2 (countable both.1))]
      rfl
    | cons top below => exact drainScopes_spec profile index top.1 top.2 closed below counted
  | cons entry rest inductionHypothesis =>
    rw [openScopes]
    rcases close_spec (ε := ε) profile index entry stack closed counted with
      ⟨stack', closed', success, counted', fits, same⟩ | ⟨failure, checks, crowded⟩
    · have opened : resume under stack closed .nil (nest under (entry :: rest)) =
          resume under ((entry, .nil) :: stack') closed' .nil (nest under rest) := by
        rw [← resume_open under entry rest stack' closed' fits]
        exact same _ _
      rw [success, opened, Outcome.ok_bind, push_scopesOf]
      exact inductionHypothesis ((entry, .nil) :: stack') closed'
        (fun checks => counted_push closed' entry stack' (counted' checks))
    · rw [failure, if_pos ⟨checks, crowded _ _⟩]
      rfl

/-- The call tree is the forest that the heights nest the list to, unless that forest
has more children somewhere than a checked counter can count. -/
theorem buildIxStack_eq (profile : Profile) (ix : CompiledInstruction)
    (innerIxs : List IxWithStackHeight) (index : UInt8) :
    (buildIxStack profile ix innerIxs index : Outcome ε StackIx) =
      if profile.overflowChecks ∧ ¬ Countable (nest under innerIxs) then .panic
      else .ok ⟨ix, place IxWithStackHeight.ix [index] 0 (nest under innerIxs), [index]⟩ := by
  have rebuilt := openScopes_spec (ε := ε) profile index innerIxs [] .nil
    (fun _ => ⟨⟨by simp [width], rfl⟩, by simp⟩)
  have whole : resume under [] .nil .nil (nest under innerIxs) = nest under innerIxs := by
    simp [resume]
  rw [scopesOf_nil, whole] at rebuilt
  rw [buildIxStack, ← bind_assoc, rebuilt]
  by_cases crowded : profile.overflowChecks = true ∧ ¬ Countable (nest under innerIxs)
  · rw [if_pos crowded, if_pos crowded]
    rfl
  · rw [if_neg crowded, if_neg crowded]
    rfl

mutual

/-- The calls below an instruction, without the paths. -/
def callsBelow : StackIx → Forest CompiledInstruction
  | ⟨_, inner, _⟩ => calls inner

/-- The forest that a list of instructions is. -/
def calls : List StackIx → Forest CompiledInstruction
  | [] => .nil
  | child :: rest => .node child.ix (callsBelow child) (calls rest)

end

mutual

/-- Flattening the instructions is flattening their forest. -/
theorem flatInnerInstructions_ix (tree : StackIx) :
    tree.flatInnerInstructions.map (fun ix => ix.ix) = (callsBelow tree).preorder := by
  obtain ⟨ix, inner, path⟩ := tree
  exact flatten_ix inner

theorem flatten_ix (trees : List StackIx) :
    (StackIx.flatten trees).map (fun ix => ix.ix) = (calls trees).preorder := by
  match trees with
  | [] => rfl
  | child :: rest =>
    simp only [StackIx.flatten, calls, preorder, List.map_cons, List.map_append,
      flatInnerInstructions_ix child, flatten_ix rest]

end

/-- Placing a forest keeps its shape. -/
@[simp] theorem calls_place {α : Type} (ixOf : α → CompiledInstruction) (forest : Forest α)
    (path : Path) (position : Nat) :
    calls (place ixOf path position forest) = forest.map ixOf := by
  induction forest generalizing path position with
  | nil => rfl
  | node value children siblings inner later =>
    simp [place, calls, callsBelow, map, inner, later]

/-- Is the height at the earlier position smaller, both being known? -/
def smaller (heights : List (Option Nat)) (earlier position : Nat) : Bool :=
  match heights[earlier]?, heights[position]? with
  | some (some low), some (some high) => decide (low < high)
  | _, _ => false

/-- Has the earlier position a smaller height, and is no height from there on, up to
the given position, missing? -/
def candidate (heights : List (Option Nat)) (position earlier : Nat) : Bool :=
  smaller heights earlier position &&
    ((heights.take (position + 1)).drop earlier).all Option.isSome

/-- The nearest earlier position that is a candidate. -/
def nearest (heights : List (Option Nat)) (position : Nat) : Option Nat :=
  lastBelow (candidate heights position) position

/-- The parent that each entry has by its height; none is the root instruction. -/
def listedParents (innerIxs : List IxWithStackHeight) : List (Option Nat) :=
  (List.range innerIxs.length).map (nearest (innerIxs.map (fun entry => entry.height)))

/-- No entry is the parent of more than 255 others, and the root instruction of no
more than 256. -/
def CountsFit (innerIxs : List IxWithStackHeight) : Prop :=
  (listedParents innerIxs).count none ≤ 256 ∧
    ∀ caller, (listedParents innerIxs).count (some caller) ≤ 255

/-- A test holds of all entries in a stretch of a list. -/
theorem all_between {α : Type} (entries : List α) (test : α → Bool) (first last : Nat) :
    ((entries.take (last + 1)).drop first).all test = true ↔
      ∀ position, first ≤ position → position ≤ last → ∀ entry, entries[position]? = some entry →
        test entry = true := by
  simp only [List.all_eq_true, List.mem_iff_getElem?, List.getElem?_drop]
  constructor
  · intro all position low high entry found
    refine all entry ⟨position - first, ?_⟩
    rw [Nat.add_sub_cancel' low, List.getElem?_take_of_lt (by omega), found]
  · rintro all entry ⟨offset, found⟩
    rw [List.getElem?_take] at found
    split at found
    · exact all (first + offset) (by omega) (by omega) entry found
    · simp at found

/-- Heights decide what an entry stands under. -/
theorem above_heights (innerIxs : List IxWithStackHeight) (earlier position : Nat) :
    above under innerIxs earlier position =
      above isValidParent (innerIxs.map (fun entry => entry.height)) earlier position := by
  cases found : innerIxs[earlier]? with
  | none => simp [above, found]
  | some entry =>
    simp only [above, found, List.getElem?_map, Option.map_some, ← List.map_take, ← List.map_drop,
      List.all_map]
    rfl

theorem isValidParent_iff (parent height : Option Nat) : isValidParent parent height = true ↔
    ∃ low high, parent = some low ∧ height = some high ∧ low < high := by
  cases parent <;> cases height <;> simp [isValidParent]

theorem smaller_iff (heights : List (Option Nat)) (earlier position : Nat) :
    smaller heights earlier position = true ↔ ∃ low high, heights[earlier]? = some (some low) ∧
      heights[position]? = some (some high) ∧ low < high := by
  unfold smaller
  rcases heights[earlier]? with _ | _ | low <;> rcases heights[position]? with _ | _ | high <;> simp

/-- What stands above everything in between has a smaller height, with none missing. -/
theorem candidate_of_above (heights : List (Option Nat)) (earlier position : Nat)
    (before : earlier < position) (inside : position < heights.length)
    (stands : above isValidParent heights earlier position = true) :
    candidate heights position earlier = true := by
  obtain ⟨top, found⟩ : ∃ top, heights[earlier]? = some top :=
    ⟨heights[earlier], List.getElem?_eq_getElem (by omega)⟩
  obtain ⟨last, foundLast⟩ : ∃ last, heights[position]? = some last :=
    ⟨heights[position], List.getElem?_eq_getElem inside⟩
  simp only [above, found, all_between] at stands
  obtain ⟨low, high, rfl, rfl, less⟩ := (isValidParent_iff _ _).mp
    (stands position before (Nat.le_refl _) last foundLast)
  simp only [candidate, Bool.and_eq_true, smaller_iff, all_between]
  refine ⟨⟨low, high, found, foundLast, less⟩, ?_⟩
  intro between low' high' height foundBetween
  rcases Nat.eq_or_lt_of_le low' with rfl | after
  · obtain rfl := Option.some.inj (found.symm.trans foundBetween)
    rfl
  · obtain ⟨_, _, _, rfl, _⟩ := (isValidParent_iff _ _).mp
      (stands between after high' height foundBetween)
    rfl

/-- The nearest smaller height stands above everything in between: a height in between
that were not greater would be smaller and nearer. -/
theorem above_of_candidate (heights : List (Option Nat)) (earlier position : Nat)
    (passes : candidate heights position earlier = true)
    (nearer : ∀ later, earlier < later → later < position →
      candidate heights position later = false) :
    above isValidParent heights earlier position = true := by
  simp only [candidate, Bool.and_eq_true, smaller_iff, all_between] at passes
  obtain ⟨⟨low, high, found, foundLast, less⟩, known⟩ := passes
  simp only [above, found, all_between]
  intro between after within height foundBetween
  obtain ⟨middle, rfl⟩ := Option.isSome_iff_exists.mp
    (known between (by omega) within height foundBetween)
  rw [isValidParent_iff]
  refine ⟨low, middle, rfl, rfl, ?_⟩
  rcases Nat.eq_or_lt_of_le within with rfl | inner
  · obtain rfl := Option.some.inj (Option.some.inj (foundLast.symm.trans foundBetween))
    exact less
  · by_contra notGreater
    have smallerToo : candidate heights position between = true := by
      simp only [candidate, Bool.and_eq_true, smaller_iff, all_between]
      refine ⟨⟨middle, high, foundBetween, foundLast, by omega⟩, ?_⟩
      intro k low' high'
      exact known k (by omega) high'
    simp [nearer between after inner] at smallerToo

/-- The parent by height is the parent in the rebuilt forest. -/
theorem lastBelow_above (heights : List (Option Nat)) (position : Nat)
    (inside : position < heights.length) :
    lastBelow (fun earlier => above isValidParent heights earlier position) position =
      nearest heights position := by
  unfold nearest
  have fewer (earlier : Nat) (before : earlier < position)
      (fails : candidate heights position earlier = false) :
      above isValidParent heights earlier position = false := by
    by_contra stands
    rw [candidate_of_above heights earlier position before inside (by simpa using stands)] at fails
    contradiction
  cases search : lastBelow (candidate heights position) position with
  | none =>
    rw [lastBelow_eq_none] at search ⊢
    intro earlier before
    exact fewer earlier before (search earlier before)
  | some earlier =>
    rw [lastBelow_eq_some] at search ⊢
    obtain ⟨before, passes, nearer⟩ := search
    exact ⟨before, above_of_candidate heights earlier position passes nearer,
      fun later after below => fewer later below (nearer later after below)⟩

/-- The parents of the rebuilt forest are those listed by height. -/
theorem parents_nest (innerIxs : List IxWithStackHeight) :
    (nest under innerIxs).parents none 0 = listedParents innerIxs := by
  rw [nest_parents under under_trans, listedParents]
  apply List.map_congr_left
  intro position member
  simp only [above_heights]
  exact lastBelow_above _ position (by simpa using member)

/-- Counting children in the forest is counting parents in the list. -/
theorem countable_iff (innerIxs : List IxWithStackHeight) :
    Countable (nest under innerIxs) ↔ CountsFit innerIxs := by
  unfold Countable CountsFit
  rw [← parents_nest, count_parent _ none 0 (by simp), narrow_iff_count _ 255 none 0 (by simp)]
  simp

/-- The flattened call tree has the listed instructions in the listed order exactly when
no child counter overflows, or nobody checks. -/
theorem flat_inner_instructions_in_order_iff (profile : Profile) (ix : CompiledInstruction)
    (innerIxs : List IxWithStackHeight) (index : UInt8) :
    (∃ tree, (buildIxStack profile ix innerIxs index : Outcome Empty StackIx) = .ok tree ∧
      tree.flatInnerInstructions.map (fun ix => ix.ix) =
        innerIxs.map (fun entry => entry.ix)) ↔
      (profile.overflowChecks = true → CountsFit innerIxs) := by
  rw [buildIxStack_eq, ← countable_iff]
  by_cases crowded : profile.overflowChecks = true ∧ ¬ Countable (nest under innerIxs)
  · simp [crowded]
  · rw [if_neg crowded]
    have fits : profile.overflowChecks = true → Countable (nest under innerIxs) :=
      fun checks => by_contra (fun wide => crowded ⟨checks, wide⟩)
    refine iff_of_true ⟨_, rfl, ?_⟩ fits
    rw [flatInnerInstructions_ix, callsBelow, calls_place, preorder_map, preorder_nest]

/-- A checked build has no call tree of 257 calls whose heights are unknown. -/
theorem flat_inner_instructions_of_many_calls :
    ¬ ∃ tree, (buildIxStack ⟨true⟩ ⟨0, [], []⟩ (List.replicate 257 ⟨⟨0, [], []⟩, none⟩) 0 :
        Outcome Empty StackIx) = .ok tree ∧
      tree.flatInnerInstructions.map (fun ix => ix.ix) =
        (List.replicate 257 (⟨⟨0, [], []⟩, none⟩ : IxWithStackHeight)).map
          (fun entry => entry.ix) := by
  have wide : ¬ Countable (nest under (List.replicate 257 ⟨⟨0, [], []⟩, none⟩)) := by
    decide +kernel
  rw [buildIxStack_eq, if_pos ⟨rfl, wide⟩]
  rintro ⟨tree, impossible, _⟩
  cases impossible

/-- Instructions in preorder, each with the height at which it was called when the
root instruction ran at the given one. -/
def listing (height : Nat) (forest : Forest CompiledInstruction) : List IxWithStackHeight :=
  (forest.label (fun depth ix => ⟨ix, some depth⟩) (height + 1)).preorder

/-- A listed forest nests to itself. -/
theorem nest_listing (height : Nat) (forest : Forest CompiledInstruction) :
    (nest under (listing height forest)).map (fun entry => entry.ix) = forest := by
  have rebuilt := nest_preorder_label under
    (fun depth ix => (⟨ix, some depth⟩ : IxWithStackHeight)) (fun _ _ _ _ => rfl) forest
    (height + 1) [] (by simp)
  rw [List.append_nil, nest, append_nil] at rebuilt
  rw [listing, rebuilt]
  exact map_label _ _ (fun _ _ => rfl) _ _

/-- The tree rebuilt from a listing is the listed forest, placed. -/
theorem place_listing (path : Path) (position height : Nat) (forest : Forest CompiledInstruction) :
    place IxWithStackHeight.ix path position (nest under (listing height forest)) =
      place id path position forest := by
  rw [← congrArg (place id path position) (nest_listing height forest), place_map]
  rfl

/-- Every entry is called by the nearest earlier one of smaller height with no height
missing in between, and every forest of calls is rebuilt from its listing, exactly
when no child counter overflows, or nobody checks. -/
theorem call_tree_shape_iff (profile : Profile) (ix : CompiledInstruction) (index : UInt8) :
    (∀ innerIxs,
      (∃ tree, (buildIxStack profile ix innerIxs index : Outcome Empty StackIx) = .ok tree ∧
        (calls tree.inner).preorder = innerIxs.map (fun entry => entry.ix) ∧
        (calls tree.inner).parents none 0 = listedParents innerIxs) ↔
      (profile.overflowChecks = true → CountsFit innerIxs)) ∧
    ∀ height forest,
      (∃ tree, (buildIxStack profile ix (listing height forest) index : Outcome Empty StackIx) =
        .ok tree ∧ calls tree.inner = forest) ↔
      (profile.overflowChecks = true → forest.width ≤ 256 ∧ forest.narrow 255 = true) := by
  constructor
  · intro innerIxs
    rw [buildIxStack_eq, ← countable_iff]
    by_cases crowded : profile.overflowChecks = true ∧ ¬ Countable (nest under innerIxs)
    · simp [crowded]
    · rw [if_neg crowded]
      have fits : profile.overflowChecks = true → Countable (nest under innerIxs) :=
        fun checks => by_contra (fun wide => crowded ⟨checks, wide⟩)
      refine iff_of_true ⟨_, rfl, ?_, ?_⟩ fits
      · rw [calls_place, preorder_map, preorder_nest]
      · rw [calls_place, parents_map, parents_nest]
  · intro height forest
    have same : Countable (nest under (listing height forest)) ↔
        forest.width ≤ 256 ∧ forest.narrow 255 = true := by
      conv_rhs => rw [← nest_listing height forest, width_map, narrow_map]
      rfl
    rw [buildIxStack_eq, ← same]
    by_cases crowded : profile.overflowChecks = true ∧
        ¬ Countable (nest under (listing height forest))
    · simp [crowded]
    · rw [if_neg crowded]
      have fits : profile.overflowChecks = true →
          Countable (nest under (listing height forest)) :=
        fun checks => by_contra (fun wide => crowded ⟨checks, wide⟩)
      refine iff_of_true ⟨_, rfl, ?_⟩ fits
      rw [calls_place, nest_listing]

/-- A checked build does not rebuild a call that made 256 calls itself. -/
theorem call_tree_shape_of_many_calls :
    ¬ ∃ tree, (buildIxStack ⟨true⟩ ⟨0, [], []⟩
        (⟨⟨1, [], []⟩, some 2⟩ :: List.replicate 256 ⟨⟨2, [], []⟩, some 3⟩) 0 :
          Outcome Empty StackIx) = .ok tree ∧
      (calls tree.inner).parents none 0 = listedParents
        (⟨⟨1, [], []⟩, some 2⟩ :: List.replicate 256 ⟨⟨2, [], []⟩, some 3⟩) := by
  have wide : ¬ Countable (nest under
      (⟨⟨1, [], []⟩, some 2⟩ :: List.replicate 256 ⟨⟨2, [], []⟩, some 3⟩)) := by
    decide +kernel
  rw [buildIxStack_eq, if_pos ⟨rfl, wide⟩]
  rintro ⟨tree, impossible, _⟩
  cases impossible

end Graced.CallTree
