import Graced.CallTree
import Graced.Reports

/-!
# Whose inner instructions are these?

The inner instructions of a transaction are recorded under the positions of their root
instructions, one byte each, and a call tree is looked up and labelled by its position cut
down to one byte. Up to 256 root instructions keep their own lists and paths. The next one
is labelled as the first, and gets the list of the first as well: what was called once is
called by two root instructions, and a swap that was made once is reported twice.
-/

namespace Graced.RootLists

/-- The inner instructions recorded under a position. Past the last byte there are none. -/
def ownList (tx : SolanaTx) (position : Nat) : List IxWithStackHeight :=
  if position < 256 then (tx.metadata.innerInstructions.get (UInt8.ofNat position)).getD []
  else []

/-- The call tree of a root instruction has its position as its path, and below it the
instructions recorded under the position. -/
structure OwnTree (tx : SolanaTx) (root : CompiledInstruction × Nat) (tree : StackIx) :
    Prop where
  ix : tree.ix = root.1
  path : tree.path.map UInt8.toNat = [root.2]
  inner : tree.flatInnerInstructions.map (fun ix => ix.ix) =
    (ownList tx root.2).map (fun entry => entry.ix)

/-- The call tree of a root instruction over the instructions recorded under its position. -/
def ownTree (profile : Profile) (tx : SolanaTx) (root : CompiledInstruction × Nat) :
    Outcome WithTrace StackIx :=
  buildIxStack profile root.1 (ownList tx root.2) (UInt8.ofNat root.2)

/-- The swaps that the dex parsers find for a root instruction over its own list. -/
def ownSwaps (env : Env) (tx : SolanaTx) (root : CompiledInstruction × Nat) : List DexSwap :=
  ((((ownTree env.profile tx root).toOption.filter (fun tree => isParsed tx tree)).map
    tx.view).toList.flatMap (Reports.dexViews env)).filterMap (Reports.found env)

/-- Every recorded list belongs to one root instruction: the call trees have their own lists
and no others, and each swap is reported for the root instruction on whose list it is found. -/
structure ListsOwned (env : Env) (tx : SolanaTx) : Prop where
  trees : ∃ trees, (tx.buildStack env.profile : Outcome WithTrace (List StackIx)) = .ok trees ∧
    List.Forall₂ (OwnTree tx) tx.enumerated trees
  swaps : ∀ result, parseTransaction env tx = .ok result →
    reported result = tx.enumerated.flatMap (ownSwaps env tx)

/-- No more root instructions than a byte can tell, and, where it matters, no list with more
calls than a byte can count. -/
def Addressable (profile : Profile) (tx : SolanaTx) : Prop :=
  tx.instructions.length ≤ 256 ∧ (profile.overflowChecks = true →
    ∀ position < tx.instructions.length, CallTree.CountsFit (ownList tx position))

section Roots

variable {tx : SolanaTx} {root : CompiledInstruction × Nat}

/-- A root instruction is listed with its position. -/
theorem enumerated_position (listed : root ∈ tx.enumerated) :
    root.2 < tx.instructions.length := by
  have bounds := List.mem_zipIdx listed
  omega

theorem enumerated_at (position : Nat) (inside : position < tx.instructions.length) :
    (tx.instructions[position], position) ∈ tx.enumerated := by
  rw [SolanaTx.enumerated, List.mk_mem_zipIdx_iff_getElem?]
  exact List.getElem?_eq_getElem inside

/-- A position that fits in a byte finds its own list. -/
theorem rootInstruction_own (profile : Profile) (fits : root.2 < 256) :
    (tx.rootInstruction profile root.2 root.1 : Outcome WithTrace StackIx) =
      ownTree profile tx root := by
  rw [SolanaTx.rootInstruction, ownTree, ownList, if_pos fits]

/-- Over its own list, a call tree is complete if the calls can be counted. -/
theorem ownTree_spec (profile : Profile) (fits : root.2 < 256) :
    (∃ tree, ownTree profile tx root = .ok tree ∧ OwnTree tx root tree) ↔
      (profile.overflowChecks = true → CallTree.CountsFit (ownList tx root.2)) := by
  rw [ownTree, CallTree.buildIxStack_eq, ← CallTree.countable_iff]
  by_cases crowded : profile.overflowChecks = true ∧
      ¬ CallTree.Countable (Forest.nest CallTree.under (ownList tx root.2))
  · simp [crowded]
  · rw [if_neg crowded]
    refine iff_of_true ⟨_, rfl, rfl, ?_, ?_⟩
      (fun checks => by_contra fun wide => crowded ⟨checks, wide⟩)
    · simp [UInt8.toNat_ofNat', Nat.mod_eq_of_lt fits]
    · rw [CallTree.flatInnerInstructions_ix, CallTree.callsBelow, CallTree.calls_place,
        Forest.preorder_map, Forest.preorder_nest]

/-- Past the last byte, the path of a call tree is that of an earlier position. -/
theorem not_ownTree (profile : Profile) (tree : StackIx) (past : 256 ≤ root.2)
    (built : (tx.rootInstruction profile root.2 root.1 : Outcome WithTrace StackIx) = .ok tree) :
    ¬ OwnTree tx root tree := by
  intro own
  rw [SolanaTx.rootInstruction, CallTree.buildIxStack_eq] at built
  split at built
  · cases built
  · obtain rfl := Outcome.ok.inj built
    have path := List.singleton_injective own.path
    have byte := (UInt8.ofNat root.2).toNat_lt
    omega

end Roots

/-- The collected call trees have their own lists exactly if all positions can be addressed. -/
theorem trees_owned_iff (profile : Profile) (tx : SolanaTx) :
    (∃ trees, (tx.buildStack profile : Outcome WithTrace (List StackIx)) = .ok trees ∧
      List.Forall₂ (OwnTree tx) tx.enumerated trees) ↔ Addressable profile tx := by
  rw [SolanaTx.buildStack, Outcome.collect_related_iff]
  constructor
  · intro each
    have few : tx.instructions.length ≤ 256 := by
      by_contra many
      obtain ⟨tree, built, own⟩ := each _ (enumerated_at 256 (by omega))
      exact not_ownTree profile tree le_rfl built own
    refine ⟨few, fun checks position inside => ?_⟩
    have fits : position < 256 := by omega
    obtain ⟨tree, built, own⟩ := each _ (enumerated_at position inside)
    rw [rootInstruction_own profile fits] at built
    exact (ownTree_spec profile fits).mp ⟨tree, built, own⟩ checks
  · rintro ⟨few, counted⟩ root listed
    have inside := enumerated_position listed
    have fits : root.2 < 256 := by omega
    rw [rootInstruction_own profile fits]
    exact (ownTree_spec profile fits).mpr fun checks => counted checks root.2 inside

/-- Where all positions can be addressed, the swaps are found on the lists of their own root
instructions. -/
theorem swaps_owned (env : Env) (tx : SolanaTx) (result : List Parsed)
    (few : tx.instructions.length ≤ 256) (ok : parseTransaction env tx = .ok result) :
    reported result = tx.enumerated.flatMap (ownSwaps env tx) := by
  rw [(Reports.reported_found env tx result ok).2, Reports.dispatched,
    List.filterMap_eq_flatMap_toList (Reports.rootView env tx), List.flatMap_assoc,
    List.filterMap_flatMap]
  apply List.flatMap_congr
  intro root listed
  have inside := enumerated_position listed
  have fits : root.2 < 256 := by omega
  rw [Reports.rootView, rootInstruction_own env.profile fits, ownSwaps]

/-- Every recorded list belongs to one root instruction if and only if there are at most 256
root instructions and, in a build that checks for overflows, none of their lists has more
calls below one caller than a byte can count. -/
theorem lists_owned_iff (env : Env) (tx : SolanaTx) :
    ListsOwned env tx ↔ Addressable env.profile tx := by
  constructor
  · exact fun owned => (trees_owned_iff env.profile tx).mp owned.trees
  · exact fun addressable => ⟨(trees_owned_iff env.profile tx).mpr addressable,
      fun result ok => swaps_owned env tx result addressable.1 ok⟩

/-- An instruction of the token program. -/
def tokenIx : CompiledInstruction := ⟨1, [], []⟩

/-- A swap of a pool. -/
def poolIx : CompiledInstruction := ⟨2, [2, 0, 3, 2, 4, 2, 5], Dex.swapDisc⟩

/-- A swap of a pool, 255 instructions that are passed over, and the first instruction once
more, for which no calls are recorded. -/
def crowdedTx : SolanaTx where
  instructions := poolIx :: (List.replicate 255 tokenIx ++ [poolIx])
  accountKeys := poolKeys .orca
  metadata := (poolTx .orca [] []).metadata

/-- What the recorded calls show. -/
def poolSwap : DexSwap := ⟨⟨2⟩, ⟨3⟩, .orca, ⟨100, 50, ⟨8⟩, ⟨9⟩⟩⟩

/-- The swap that was made once is reported for the first root instruction, to which the calls
belong, and again for the last, to which none do. -/
theorem swap_reported_twice :
    parseTransaction poolLibraries crowdedTx = .ok [.dex poolSwap, .dex poolSwap] ∧
      ownSwaps poolLibraries crowdedTx (poolIx, 0) = [poolSwap] ∧
      ownSwaps poolLibraries crowdedTx (poolIx, 256) = [] ∧
      ((crowdedTx.rootInstruction ⟨true⟩ 256 poolIx : Outcome WithTrace StackIx).toOption.map
        (fun tree => tree.path)) = some [0] ∧
      ¬ ListsOwned poolLibraries crowdedTx := by
  refine ⟨by decide +kernel, by decide +kernel, by decide +kernel, rfl, fun owned => ?_⟩
  have few := ((trees_owned_iff poolLibraries.profile crowdedTx).mp owned.trees).1
  have many : crowdedTx.instructions.length = 257 := by decide +kernel
  omega

end Graced.RootLists
