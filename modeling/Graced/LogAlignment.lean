import Graced.CallTree
import Graced.Logs
import Mathlib.Data.List.Forall2
import Mathlib.Data.List.ReduceOption

/-!
# When an instruction finds its own logs

Two forests are matched by positions: the instructions that ran, and those of them
that wrote an invoke line. An instruction that wrote none, such as a signature check
by a precompile, moves every later sibling one position away from its own call. A
position beyond 256 comes around to the first.

A path is followed from the root, so what it finds is decided level by level. A level
is aligned when none of its instructions is in the logs, or when those that are come
before those that are not and all positions are different. Every instruction then
finds its own call or none, and on no other level does every one.
-/

namespace Graced.LogAlignment

open Forest CallTree

/-- An instruction that ran, with its call if it wrote an invoke line. -/
structure Executed where
  ix : CompiledInstruction
  call : Option InstructionCall

/-- The calls that the log parser returns: those that wrote an invoke line, nested as
they ran. -/
def logged : Forest Executed → Forest InstructionCall
  | .nil => .nil
  | .node executed children siblings =>
    match executed.call with
    | some call => .node call (logged children) (logged siblings)
    | none => logged siblings

/-- Instructions without an invoke line call nothing that has one. -/
def SilentAlone : Forest Executed → Prop
  | .nil => True
  | .node executed children siblings =>
    (executed.call = none → ∀ inside ∈ children.preorder, inside.call = none) ∧
      SilentAlone children ∧ SilentAlone siblings

/-- What ran in a transaction; different instructions wrote different invoke lines. -/
structure Execution where
  forest : Forest Executed
  silentAlone : SilentAlone forest
  distinct : (forest.preorder.filterMap Executed.call).Nodup

/-- The positions of some siblings in the logs are their own. -/
def LevelAligned (calls : List (Option InstructionCall)) : Prop :=
  (∀ call ∈ calls, call = none) ∨
    (calls.length ≤ 256 ∧ calls.Pairwise (fun earlier later => earlier = none → later = none))

/-- All levels below the roots are aligned. -/
def AlignedBelow : Forest Executed → Prop
  | .nil => True
  | .node _ children siblings =>
    (LevelAligned (children.roots.map Executed.call) ∧ AlignedBelow children) ∧
      AlignedBelow siblings

/-- All levels are aligned. -/
def Aligned (forest : Forest Executed) : Prop :=
  LevelAligned (forest.roots.map Executed.call) ∧ AlignedBelow forest

/-- The roots that are in the logs. -/
theorem roots_logged (forest : Forest Executed) :
    (logged forest).roots = (forest.roots.map Executed.call).reduceOption := by
  induction forest with
  | nil => rfl
  | node executed children siblings _ later =>
    cases wrote : executed.call with
    | none => simp [logged, wrote, roots, later]
    | some call => simp [logged, wrote, roots, later]

/-- Nothing remains of calls exactly when there are none. -/
theorem reduceOption_eq_nil (calls : List (Option InstructionCall)) :
    calls.reduceOption = [] ↔ ∀ call ∈ calls, call = none := by
  rw [List.reduceOption_eq_nil_iff]
  constructor
  · rintro ⟨count, rfl⟩ call member
    exact List.eq_of_mem_replicate member
  · intro silent
    exact ⟨calls.length, List.eq_replicate_iff.mpr ⟨rfl, silent⟩⟩

/-- When silent instructions come last, positions agree up to the first of them. -/
theorem reduceOption_position (calls : List (Option InstructionCall))
    (trailing : calls.Pairwise (fun earlier later => earlier = none → later = none))
    (position : Nat) (call : InstructionCall) (found : calls.reduceOption[position]? = some call) :
    calls[position]? = some (some call) := by
  induction calls generalizing position with
  | nil => simp at found
  | cons first rest inductionHypothesis =>
    obtain ⟨after, restTrailing⟩ := List.pairwise_cons.mp trailing
    cases first with
    | none =>
      have silent : rest.reduceOption = [] :=
        (reduceOption_eq_nil rest).mpr (fun other member => after other member rfl)
      simp [silent] at found
    | some wrote =>
      cases position with
      | zero => simpa using found
      | succ position => exact inductionHypothesis restTrailing position (by simpa using found)

/-- Positions that agree put silent instructions last. -/
theorem trailing_of_positions (calls : List (Option InstructionCall))
    (own : ∀ (position : Nat) (call : InstructionCall), calls.reduceOption[position]? = some call →
      calls[position]? = some (some call)) :
    calls.Pairwise (fun earlier later => earlier = none → later = none) := by
  induction calls with
  | nil => exact List.Pairwise.nil
  | cons first rest inductionHypothesis =>
    cases first with
    | none =>
      have silent : rest.reduceOption = [] := by
        by_contra wrote
        obtain ⟨call, others, same⟩ := List.exists_cons_of_ne_nil wrote
        have atFirst := own 0 call (by simp [same])
        simp at atFirst
      refine List.pairwise_cons.mpr
        ⟨fun other member _ => (reduceOption_eq_nil rest).mp silent other member, ?_⟩
      exact inductionHypothesis (by simp [silent])
    | some wrote =>
      refine List.pairwise_cons.mpr ⟨by simp, inductionHypothesis ?_⟩
      intro position call found
      simpa using own (position + 1) call (by simpa using found)

/-- A level is aligned exactly when every position on it, counted in one byte, is that
of the instruction's own call or of none. -/
theorem levelAligned_iff (calls : List (Option InstructionCall))
    (distinct : calls.reduceOption.Nodup) :
    LevelAligned calls ↔ ∀ position own, calls[position]? = some own →
      ∀ call, calls.reduceOption[position % 256]? = some call → own = some call := by
  constructor
  · rintro (silent | ⟨few, trailing⟩) position own atPosition call found
    · simp [(reduceOption_eq_nil calls).mpr silent] at found
    · obtain ⟨inside, _⟩ := List.getElem?_eq_some_iff.mp atPosition
      rw [Nat.mod_eq_of_lt (by omega)] at found
      have same := reduceOption_position calls trailing position call found
      exact Option.some.inj (atPosition.symm.trans same)
  · intro all
    by_cases few : calls.length ≤ 256
    · refine Or.inr ⟨few, trailing_of_positions calls ?_⟩
      intro position call found
      have inside : position < calls.length := by
        obtain ⟨within, _⟩ := List.getElem?_eq_some_iff.mp found
        exact Nat.lt_of_lt_of_le within (List.reduceOption_length_le calls)
      rw [List.getElem?_eq_getElem inside, all position calls[position]
        (List.getElem?_eq_getElem inside) call (by rwa [Nat.mod_eq_of_lt (by omega)])]
    · left
      rw [← reduceOption_eq_nil]
      by_contra nonempty
      -- the first call in the logs is taken both by the first instruction and by the
      -- one whose position comes around to it
      obtain ⟨call, others, same⟩ := List.exists_cons_of_ne_nil nonempty
      cases calls with
      | nil => simp at few
      | cons first rest =>
        have around : 255 < rest.length := by simp at few; omega
        have atFirst : first = some call := all 0 first rfl call (by simp [same])
        have atAround : rest[255] = some call :=
          all 256 rest[255] (by simp [around]) call (by simp [same])
        subst atFirst
        have repeated : call ∈ rest.reduceOption := by
          rw [List.reduceOption_mem_iff, ← atAround]
          exact List.getElem_mem around
        rw [List.reduceOption_cons_of_some, List.nodup_cons] at distinct
        exact distinct.1 repeated

/-- The calls in which the children of a path are looked up. -/
def callsAt (calls : Forest InstructionCall) : Path → Option (Forest InstructionCall)
  | [] => some calls
  | position :: rest => do
    let (_, invocations) ← calls.tree? position.toNat
    callsAt invocations rest

/-- The last position of a path is looked up where the others lead. -/
theorem traceIxCall_snoc (calls : Forest InstructionCall) (path : Path) (position : UInt8) :
    traceIxCall calls (path ++ [position]) =
      (callsAt calls path).bind (fun site => (site.tree? position.toNat).map Prod.fst) := by
  induction path generalizing calls with
  | nil =>
    simp only [List.nil_append, traceIxCall, callsAt, Option.bind_some]
    cases calls.tree? position.toNat <;> rfl
  | cons first rest inductionHypothesis =>
    simp only [List.cons_append, traceIxCall, callsAt]
    cases found : calls.tree? first.toNat with
    | none => rfl
    | some tree =>
      have more : ∃ next others, rest ++ [position] = next :: others := by
        cases rest <;> simp
      obtain ⟨next, others, same⟩ := more
      simp only [same, Option.bind_eq_bind, Option.bind_some]
      rw [← same]
      exact inductionHypothesis tree.2

theorem callsAt_snoc (calls : Forest InstructionCall) (path : Path) (position : UInt8) :
    callsAt calls (path ++ [position]) =
      (callsAt calls path).bind (fun site => (site.tree? position.toNat).map Prod.snd) := by
  induction path generalizing calls with
  | nil =>
    simp only [List.nil_append, callsAt, Option.bind_some]
    cases calls.tree? position.toNat <;> rfl
  | cons first rest inductionHypothesis =>
    simp only [List.cons_append, callsAt]
    cases calls.tree? first.toNat with
    | none => rfl
    | some tree => exact inductionHypothesis tree.2

/-- Every instruction of a forest finds its own call or none, when the first root has
the given position and its level is looked up in the given calls. -/
def OwnBelow : Option (Forest InstructionCall) → Nat → Forest Executed → Prop
  | _, _, .nil => True
  | site, position, .node executed children siblings =>
    (∀ tree, site.bind (fun calls => calls.tree? (position % 256)) = some tree →
      executed.call = some tree.1) ∧
    OwnBelow ((site.bind (fun calls => calls.tree? (position % 256))).map Prod.snd) 0 children ∧
    OwnBelow site (position + 1) siblings

/-- Where no calls are left, nobody finds a wrong one. -/
theorem ownBelow_none (forest : Forest Executed) (position : Nat) :
    OwnBelow none position forest := by
  induction forest generalizing position with
  | nil => trivial
  | node executed children siblings inner later => exact ⟨by simp, inner 0, later _⟩

/-- A level and the levels below it. -/
theorem ownBelow_some_iff (calls : Forest InstructionCall) (position : Nat)
    (forest : Forest Executed) :
    OwnBelow (some calls) position forest ↔
      ∀ offset executed children, forest.tree? offset = some (executed, children) →
        (∀ tree, calls.tree? ((position + offset) % 256) = some tree →
          executed.call = some tree.1) ∧
        OwnBelow ((calls.tree? ((position + offset) % 256)).map Prod.snd) 0 children := by
  induction forest generalizing position with
  | nil => simp [OwnBelow, tree?]
  | node first below siblings _ later =>
    rw [OwnBelow, later]
    constructor
    · rintro ⟨own, inner, others⟩ offset executed children found
      cases offset with
      | zero =>
        obtain ⟨rfl, rfl⟩ := Prod.mk.inj (Option.some.inj found)
        exact ⟨own, inner⟩
      | succ offset =>
        rw [← Nat.add_assoc, Nat.add_right_comm]
        exact others offset executed children found
    · intro all
      refine ⟨(all 0 first below rfl).1, (all 0 first below rfl).2, ?_⟩
      intro offset executed children found
      rw [Nat.add_right_comm]
      exact all (offset + 1) executed children found

theorem alignedBelow_iff (forest : Forest Executed) :
    AlignedBelow forest ↔ ∀ position executed children,
      forest.tree? position = some (executed, children) → Aligned children := by
  induction forest with
  | nil => simp [AlignedBelow, tree?]
  | node first below siblings _ later =>
    rw [AlignedBelow, later]
    constructor
    · rintro ⟨inner, others⟩ position executed children found
      cases position with
      | zero =>
        obtain ⟨rfl, rfl⟩ := Prod.mk.inj (Option.some.inj found)
        exact inner
      | succ position => exact others position executed children found
    · intro all
      exact ⟨all 0 first below rfl, fun position => all (position + 1)⟩

/-- Levels without calls are aligned. -/
theorem aligned_of_silent (forest : Forest Executed)
    (silent : ∀ executed ∈ forest.preorder, executed.call = none) : Aligned forest := by
  have level (children : Forest Executed)
      (silent : ∀ executed ∈ children.preorder, executed.call = none) :
      LevelAligned (children.roots.map Executed.call) := by
    refine Or.inl ?_
    intro call member
    obtain ⟨executed, isRoot, rfl⟩ := List.mem_map.mp member
    exact silent executed ((roots_sublist children).subset isRoot)
  refine ⟨level forest silent, ?_⟩
  induction forest with
  | nil => trivial
  | node executed children siblings inner later =>
    have childrenSilent : ∀ executed ∈ children.preorder, executed.call = none :=
      fun inside member => silent inside (by simp [preorder, member])
    have siblingsSilent : ∀ executed ∈ siblings.preorder, executed.call = none :=
      fun inside member => silent inside (by simp [preorder, member])
    exact ⟨⟨level children childrenSilent, inner childrenSilent⟩, later siblingsSilent⟩

/-- Where silent instructions come last, the tree at a position in the logs is that of
the instruction at this position. -/
theorem tree?_logged (forest : Forest Executed)
    (trailing : (forest.roots.map Executed.call).Pairwise
      (fun earlier later => earlier = none → later = none))
    (position : Nat) (executed : Executed) (children : Forest Executed)
    (found : forest.tree? position = some (executed, children)) :
    (logged forest).tree? position = executed.call.map (fun call => (call, logged children)) := by
  induction forest generalizing position with
  | nil => simp [tree?] at found
  | node first below siblings _ later =>
    rw [roots, List.map_cons, List.pairwise_cons] at trailing
    obtain ⟨after, rest⟩ := trailing
    cases wrote : first.call with
    | none =>
      have silent : (logged siblings).roots = [] := by
        rw [roots_logged, reduceOption_eq_nil]
        exact fun call member => after call member wrote
      have nothing : (logged siblings).tree? position = none := by
        have atPosition := tree?_fst (logged siblings) position
        simpa [silent] using atPosition
      have own : executed.call = none := by
        cases position with
        | zero =>
          obtain ⟨rfl, rfl⟩ := Prod.mk.inj (Option.some.inj found)
          exact wrote
        | succ position =>
          refine after _ (List.mem_map.mpr ⟨executed, ?_, rfl⟩) wrote
          have atPosition := tree?_fst siblings position
          rw [show siblings.tree? position = some (executed, children) from found] at atPosition
          exact List.mem_of_getElem? atPosition.symm
      simp [logged, wrote, nothing, own]
    | some call =>
      cases position with
      | zero =>
        obtain ⟨rfl, rfl⟩ := Prod.mk.inj (Option.some.inj found)
        simp [logged, wrote, tree?]
      | succ position =>
        simp only [logged, wrote, tree?]
        exact later rest position found

theorem silentAlone_tree (forest : Forest Executed) (silentAlone : SilentAlone forest)
    (position : Nat) (executed : Executed) (children : Forest Executed)
    (found : forest.tree? position = some (executed, children)) :
    (executed.call = none → ∀ inside ∈ children.preorder, inside.call = none) ∧
      SilentAlone children := by
  induction forest generalizing position with
  | nil => simp [tree?] at found
  | node first below siblings _ later =>
    cases position with
    | zero =>
      obtain ⟨rfl, rfl⟩ := Prod.mk.inj (Option.some.inj found)
      exact ⟨silentAlone.1, silentAlone.2.1⟩
    | succ position => exact later silentAlone.2.2 position found

/-- A forest is read correctly exactly when it is aligned, if this is so for the
children of each of its roots. -/
theorem own_iff_aligned_of_children (forest : Forest Executed) (silentAlone : SilentAlone forest)
    (distinct : (forest.preorder.filterMap Executed.call).Nodup)
    (below : ∀ position executed children, forest.tree? position = some (executed, children) →
      (OwnBelow (some (logged children)) 0 children ↔ Aligned children)) :
    OwnBelow (some (logged forest)) 0 forest ↔ Aligned forest := by
  have rootsDistinct : (forest.roots.map Executed.call).reduceOption.Nodup := by
    have fewer := (roots_sublist forest).filterMap Executed.call
    have same : (forest.roots.map Executed.call).reduceOption =
        forest.roots.filterMap Executed.call := by
      simp [List.reduceOption, List.filterMap_map]
    exact same ▸ distinct.sublist fewer
  have level : LevelAligned (forest.roots.map Executed.call) ↔
      ∀ position executed children, forest.tree? position = some (executed, children) →
        ∀ tree, (logged forest).tree? (position % 256) = some tree →
          executed.call = some tree.1 := by
    rw [levelAligned_iff _ rootsDistinct, ← roots_logged]
    constructor
    · intro all position executed children found tree looked
      refine all position executed.call ?_ tree.1 ?_
      · rw [List.getElem?_map, ← tree?_fst, found]
        rfl
      · rw [← tree?_fst, looked]
        rfl
    · intro all position own atPosition call looked
      rw [List.getElem?_map, ← tree?_fst] at atPosition
      rw [← tree?_fst] at looked
      obtain ⟨tree, lookedUp, rfl⟩ := Option.map_eq_some_iff.mp looked
      cases found : forest.tree? position with
      | none => simp [found] at atPosition
      | some pair =>
        obtain rfl : pair.1.call = own := by simpa [found] using atPosition
        exact all position pair.1 pair.2 found tree lookedUp
  have descend (aligned : LevelAligned (forest.roots.map Executed.call)) (position : Nat)
      (executed : Executed) (children : Forest Executed)
      (found : forest.tree? position = some (executed, children)) :
      OwnBelow (((logged forest).tree? (position % 256)).map Prod.snd) 0 children ↔
        Aligned children := by
    have silentBelow := (silentAlone_tree forest silentAlone position executed children found).1
    have atPosition : (forest.roots.map Executed.call)[position]? = some executed.call := by
      rw [List.getElem?_map, ← tree?_fst, found]
      rfl
    rcases aligned with silent | ⟨few, trailing⟩
    · have own : executed.call = none := silent _ (List.mem_of_getElem? atPosition)
      have nothing : (logged forest).tree? (position % 256) = none := by
        have looked := tree?_fst (logged forest) (position % 256)
        rw [roots_logged, (reduceOption_eq_nil _).mpr silent] at looked
        simpa using looked
      rw [nothing]
      exact iff_of_true (ownBelow_none _ _) (aligned_of_silent children (silentBelow own))
    · obtain ⟨inside, _⟩ := List.getElem?_eq_some_iff.mp atPosition
      rw [Nat.mod_eq_of_lt (by omega),
        tree?_logged forest trailing position executed children found]
      cases own : executed.call with
      | none =>
        exact iff_of_true (ownBelow_none _ _) (aligned_of_silent children (silentBelow own))
      | some call => exact below position executed children found
  rw [ownBelow_some_iff, Aligned, alignedBelow_iff, level]
  simp only [Nat.zero_add]
  constructor
  · intro all
    have own := fun position executed children found => (all position executed children found).1
    refine ⟨own, ?_⟩
    intro position executed children found
    exact (descend (level.mpr own) position executed children found).mp
      (all position executed children found).2
  · rintro ⟨own, inner⟩ position executed children found
    exact ⟨own position executed children found,
      (descend (level.mpr own) position executed children found).mpr
        (inner position executed children found)⟩

/-- A forest is read correctly exactly when it is aligned. -/
theorem own_iff_aligned (forest : Forest Executed) (silentAlone : SilentAlone forest)
    (distinct : (forest.preorder.filterMap Executed.call).Nodup) :
    OwnBelow (some (logged forest)) 0 forest ↔ Aligned forest := by
  have below (forest : Forest Executed) (silentAlone : SilentAlone forest)
      (distinct : (forest.preorder.filterMap Executed.call).Nodup) (position : Nat)
      (executed : Executed) (children : Forest Executed)
      (found : forest.tree? position = some (executed, children)) :
      OwnBelow (some (logged children)) 0 children ↔ Aligned children := by
    induction forest generalizing position executed children with
    | nil => simp [tree?] at found
    | node first inner siblings innerHypothesis siblingsHypothesis =>
      have fewer (sub : List Executed)
          (within : sub.Sublist (node first inner siblings).preorder) :
          (sub.filterMap Executed.call).Nodup :=
        distinct.sublist (within.filterMap Executed.call)
      cases position with
      | zero =>
        obtain ⟨rfl, rfl⟩ := Prod.mk.inj (Option.some.inj found)
        have innerDistinct := fewer inner.preorder
          ((List.sublist_append_left _ _).trans (List.sublist_cons_self _ _))
        exact own_iff_aligned_of_children inner silentAlone.2.1 innerDistinct
          (innerHypothesis silentAlone.2.1 innerDistinct)
      | succ position =>
        have siblingsDistinct := fewer siblings.preorder
          ((List.sublist_append_right _ _).trans (List.sublist_cons_self _ _))
        exact siblingsHypothesis silentAlone.2.2 siblingsDistinct position executed children found
  exact own_iff_aligned_of_children forest silentAlone distinct (below forest silentAlone distinct)

/-- What was recorded of an execution: its root instructions, the inner instructions
with their heights, and logs that parse to its calls. -/
structure Records (parser : LogParser) (tx : SolanaTx) (height : Nat) (execution : Execution) :
    Prop where
  instructions : tx.instructions = execution.forest.roots.map Executed.ix
  inner : ∀ position executed children,
    execution.forest.tree? position = some (executed, children) →
      (tx.metadata.innerInstructions.get (.ofNat position)).getD [] =
        listing height (children.map Executed.ix)
  parsed : parser.parse tx.metadata.logMessages = .ok (logged execution.forest)
  written : tx.metadata.logMessages = [] → logged execution.forest = .nil

/-- The logs at the path of an instruction are its own, or there are none. -/
def OwnLogs (parser : LogParser) (logs : TxLogs) (ix : StackIx) (executed : Executed) : Prop :=
  (∃ error, logs.programLogs parser ix.path = .error error) ∨
    ∃ call, executed.call = some call ∧ logs.callAt parser ix.path = .ok call ∧
      logs.programLogs parser ix.path = .ok (parser.programLogs call logs.metadata.logMessages)

/-- Only the call found decides whether an instruction reads its own logs. -/
theorem ownLogs_iff (parser : LogParser) (tx : SolanaTx) (height : Nat) (execution : Execution)
    (records : Records parser tx height execution) (ix : StackIx) (executed : Executed) :
    OwnLogs parser ⟨tx.metadata⟩ ix executed ↔
      ∀ call, traceIxCall (logged execution.forest) ix.path = some call →
        executed.call = some call := by
  by_cases empty : tx.metadata.logMessages = []
  · have nothing (path : Path) : traceIxCall .nil path = none := by cases path <;> rfl
    refine iff_of_true (Or.inl ⟨.noLogs, ?_⟩) ?_
    · simp [TxLogs.programLogs, TxLogs.callAt, TxLogs.loadLogs, empty]
      rfl
    · simp [records.written empty, nothing]
  · have loaded : (TxLogs.mk tx.metadata).loadLogs parser = .ok (logged execution.forest) := by
      simp [TxLogs.loadLogs, empty, records.parsed, Except.mapError]
    cases found : traceIxCall (logged execution.forest) ix.path with
    | none =>
      refine iff_of_true (Or.inl ⟨.failedIxTrace ix.path, ?_⟩) (by simp)
      simp only [TxLogs.programLogs, TxLogs.callAt, loaded, bind, Except.bind, found]
    | some call =>
      have called : (TxLogs.mk tx.metadata).callAt parser ix.path = .ok call := by
        simp only [TxLogs.callAt, loaded, bind, Except.bind, found]
      have lines : (TxLogs.mk tx.metadata).programLogs parser ix.path =
          .ok (parser.programLogs call tx.metadata.logMessages) := by
        simp only [TxLogs.programLogs, called, bind, Except.bind, pure, Except.pure]
      constructor
      · rintro (⟨error, failed⟩ | ⟨own, wrote, same, _⟩) found' matched
        · simp [lines] at failed
        · obtain rfl := Option.some.inj matched
          obtain rfl := Except.ok.inj (called.symm.trans same)
          exact wrote
      · intro own
        exact Or.inr ⟨call, own call rfl, called, lines⟩

/-- Two lists are related part by part when their parts are equally long. -/
theorem forall₂_append_iff {α β : Type} (relation : α → β → Prop) (first second : List α)
    (first' second' : List β) (equal : first.length = first'.length) :
    List.Forall₂ relation (first ++ second) (first' ++ second') ↔
      List.Forall₂ relation first first' ∧ List.Forall₂ relation second second' := by
  constructor
  · intro all
    have front := List.forall₂_take_append _ _ _ all
    have back := List.forall₂_drop_append _ _ _ all
    rw [← equal] at front back
    exact ⟨by simpa using front, by simpa using back⟩
  · rintro ⟨front, back⟩
    exact List.rel_append front back

theorem length_flatten_place {α : Type} (ixOf : α → CompiledInstruction) (path : Path)
    (position : Nat) (forest : Forest α) :
    (StackIx.flatten (place ixOf path position forest)).length = forest.preorder.length := by
  have same := congrArg List.length (flatten_ix (place ixOf path position forest))
  simpa using same

/-- Following every path from the root is descending level by level. -/
theorem forall₂_flatten_iff (calls : Forest InstructionCall) (path : Path) (position : Nat)
    (forest : Forest Executed) :
    List.Forall₂ (fun (ix : StackIx) (executed : Executed) =>
        ∀ call, traceIxCall calls ix.path = some call → executed.call = some call)
      (StackIx.flatten (place Executed.ix path position forest)) forest.preorder ↔
      OwnBelow (callsAt calls path) position forest := by
  induction forest generalizing path position with
  | nil => simp [place, StackIx.flatten, preorder, OwnBelow]
  | node executed children siblings inner later =>
    rw [place, StackIx.flatten, preorder, List.forall₂_cons, StackIx.flatInnerInstructions,
      forall₂_append_iff _ _ _ _ _ (length_flatten_place _ _ _ _), inner, later, OwnBelow,
      callsAt_snoc, UInt8.toNat_ofNat']
    refine and_congr ?_ (and_congr ?_ Iff.rfl)
    · rw [traceIxCall_snoc, UInt8.toNat_ofNat']
      cases callsAt calls path with
      | none => simp
      | some site => simp
    · cases callsAt calls path <;> rfl

/-- The call trees of the root instructions are the forest of what was executed. -/
theorem buildStack_records (profile : Profile) (parser : LogParser) (tx : SolanaTx) (height : Nat)
    (execution : Execution) (records : Records parser tx height execution) (trees : List StackIx)
    (built : (tx.buildStack profile : Outcome Empty (List StackIx)) = .ok trees) :
    trees = place Executed.ix [] 0 execution.forest := by
  have collected (forest : Forest Executed) (offset : Nat) (trees : List StackIx)
      (inner : ∀ position executed children, forest.tree? position = some (executed, children) →
        (tx.metadata.innerInstructions.get (.ofNat (offset + position))).getD [] =
          listing height (children.map Executed.ix))
      (built : (Outcome.collect (fun root => tx.rootInstruction profile root.2 root.1)
        ((forest.roots.map Executed.ix).zipIdx offset) : Outcome Empty (List StackIx)) =
          .ok trees) :
      trees = place Executed.ix [] offset forest := by
    induction forest generalizing offset trees with
    | nil =>
      obtain rfl : trees = [] := by simpa [roots, Outcome.collect] using built.symm
      rfl
    | node executed children siblings _ later =>
      simp only [roots, List.map_cons, List.zipIdx_cons, Outcome.collect, Outcome.bind_ok_iff]
        at built
      obtain ⟨tree, root, others, rest, same⟩ := built
      obtain rfl : tree :: others = trees := by simpa using same
      rw [place, later (offset + 1) others ?_ rest]
      · congr 1
        simp only [SolanaTx.rootInstruction] at root
        rw [show offset = offset + 0 from rfl, inner 0 executed children rfl,
          buildIxStack_eq] at root
        split at root
        · simp at root
        · rw [← Outcome.ok.inj root, place_listing, place_map]
          rfl
      · intro position executed' children' found
        rw [Nat.add_right_comm]
        exact inner (position + 1) executed' children' found
  refine collected execution.forest 0 trees ?_ ?_
  · intro position executed children found
    rw [Nat.zero_add]
    exact records.inner position executed children found
  · rw [← records.instructions]
    exact built

/-- Every instruction of a transaction reads its own logs or none exactly when the
execution is aligned. -/
theorem program_logs_own_iff (profile : Profile) (parser : LogParser) (tx : SolanaTx)
    (height : Nat) (execution : Execution) (records : Records parser tx height execution)
    (trees : List StackIx)
    (built : (tx.buildStack profile : Outcome Empty (List StackIx)) = .ok trees) :
    List.Forall₂ (OwnLogs parser ⟨tx.metadata⟩) (StackIx.flatten trees) execution.forest.preorder ↔
      Aligned execution.forest := by
  rw [← own_iff_aligned _ execution.silentAlone execution.distinct,
    buildStack_records profile parser tx height execution records trees built]
  have following := forall₂_flatten_iff (logged execution.forest) [] 0 execution.forest
  rw [callsAt] at following
  rw [← following]
  have own (ix : StackIx) (executed : Executed) :=
    ownLogs_iff parser tx height execution records ix executed
  constructor
  · intro all
    apply all.imp
    intro ix executed
    exact (own ix executed).mp
  · intro all
    apply all.imp
    intro ix executed
    exact (own ix executed).mpr

/-- Two programs that each log one line of their own. -/
def twoCallLogs : List String :=
  ["Program A invoke [1]", "Program log: a", "Program A success",
    "Program B invoke [1]", "Program log: b", "Program B success"]

/-- What a log parser does on these logs. -/
def twoCallParser : LogParser where
  parse _ := .ok (.node ⟨0⟩ .nil (.node ⟨3⟩ .nil .nil))
  programLogs call messages := (messages.drop (call.line + 1)).take 1

/-- The programs run before and after a signature check that logs nothing. -/
def checkedLast : Execution where
  forest := .node ⟨⟨1, [], []⟩, some ⟨0⟩⟩ .nil (.node ⟨⟨2, [], []⟩, some ⟨3⟩⟩ .nil
    (.node ⟨⟨3, [], []⟩, none⟩ .nil .nil))
  silentAlone := by simp [SilentAlone, preorder]
  distinct := by decide

/-- The same with the signature check in front. -/
def checkedFirst : Execution where
  forest := .node ⟨⟨3, [], []⟩, none⟩ .nil (.node ⟨⟨1, [], []⟩, some ⟨0⟩⟩ .nil
    (.node ⟨⟨2, [], []⟩, some ⟨3⟩⟩ .nil .nil))
  silentAlone := by simp [SilentAlone, preorder]
  distinct := by decide

/-- A transaction of root instructions only, with the two logs. -/
def twoCallTx (instructions : List CompiledInstruction) : SolanaTx where
  instructions := instructions
  accountKeys := ⟨[], [], []⟩
  metadata := ⟨[], [], .empty, twoCallLogs, [], []⟩

theorem checkedLast_recorded :
    Records twoCallParser (twoCallTx [⟨1, [], []⟩, ⟨2, [], []⟩, ⟨3, [], []⟩]) 1 checkedLast where
  instructions := rfl
  inner := by
    intro position executed children found
    rcases position with _ | _ | _ | position <;> simp [checkedLast, tree?] at found
    all_goals obtain ⟨rfl, rfl⟩ := found; rfl
  parsed := rfl
  written := by simp [twoCallTx, twoCallLogs]

theorem checkedFirst_recorded :
    Records twoCallParser (twoCallTx [⟨3, [], []⟩, ⟨1, [], []⟩, ⟨2, [], []⟩]) 1 checkedFirst where
  instructions := rfl
  inner := by
    intro position executed children found
    rcases position with _ | _ | _ | position <;> simp [checkedFirst, tree?] at found
    all_goals obtain ⟨rfl, rfl⟩ := found; rfl
  parsed := rfl
  written := by simp [twoCallTx, twoCallLogs]

/-- With the signature check at the end, both programs read their own logs. -/
theorem program_logs_own_of_checkedLast :
    List.Forall₂
      (OwnLogs twoCallParser ⟨(twoCallTx [⟨1, [], []⟩, ⟨2, [], []⟩, ⟨3, [], []⟩]).metadata⟩)
      (StackIx.flatten [⟨⟨1, [], []⟩, [], [0]⟩, ⟨⟨2, [], []⟩, [], [1]⟩, ⟨⟨3, [], []⟩, [], [2]⟩])
      checkedLast.forest.preorder :=
  (program_logs_own_iff ⟨true⟩ twoCallParser _ 1 checkedLast checkedLast_recorded _ rfl).mpr
    ⟨Or.inr ⟨by decide, by decide⟩, ⟨Or.inl (by simp [roots]), trivial⟩, ⟨Or.inl (by simp [roots]),
      trivial⟩, ⟨Or.inl (by simp [roots]), trivial⟩, trivial⟩

/-- With the signature check in front, the first program reads the logs of the second. -/
theorem program_logs_shifted_of_checkedFirst :
    Records twoCallParser (twoCallTx [⟨3, [], []⟩, ⟨1, [], []⟩, ⟨2, [], []⟩]) 1 checkedFirst ∧
    ∃ trees, ((twoCallTx [⟨3, [], []⟩, ⟨1, [], []⟩, ⟨2, [], []⟩]).buildStack ⟨true⟩ :
        Outcome Empty (List StackIx)) = .ok trees ∧
      ¬ List.Forall₂
        (OwnLogs twoCallParser ⟨(twoCallTx [⟨3, [], []⟩, ⟨1, [], []⟩, ⟨2, [], []⟩]).metadata⟩)
        (StackIx.flatten trees) checkedFirst.forest.preorder := by
  refine ⟨checkedFirst_recorded, [⟨⟨3, [], []⟩, [], [0]⟩, ⟨⟨1, [], []⟩, [], [1]⟩,
    ⟨⟨2, [], []⟩, [], [2]⟩], rfl, ?_⟩
  intro all
  obtain ⟨_, rest⟩ := List.forall₂_cons.mp all
  obtain ⟨own, _⟩ := List.forall₂_cons.mp rest
  rcases own with ⟨error, failed⟩ | ⟨call, wrote, found, _⟩
  · cases failed
  · cases wrote
    cases found

end Graced.LogAlignment
