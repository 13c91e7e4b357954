import Graced.Dispatch
import Mathlib.Data.List.Infix

/-!
# Root instructions do not disturb each other

A root instruction is parsed from the account keys, the logs and the balances of its
transaction, and from its own recorded calls. What follows it, and what was recorded for what
follows, is not looked at. The first root instructions of a transaction therefore decide by
themselves whether they fail, and what they contribute to the result.
-/

namespace Graced

namespace SolanaTx

/-- The transaction with other root instructions and other records of their calls. -/
def rerecorded (tx : SolanaTx) (instructions : List CompiledInstruction)
    (record : AssocMap UInt8 (List IxWithStackHeight)) : SolanaTx :=
  { tx with
    instructions := instructions
    metadata := { tx.metadata with innerInstructions := record } }

/-- The transaction cut down to its first root instructions. -/
def firstRoots (tx : SolanaTx) (count : Nat) : SolanaTx :=
  { tx with instructions := tx.instructions.take count }

end SolanaTx

namespace Outcome

/-- A traversal goes through the first elements and then through the others. -/
theorem collectSome_append {ε α β : Type} (f : α → Outcome ε (Option β)) (first others : List α) :
    collectSome f (first ++ others) = (do
      let earlier ← collectSome f first
      let later ← collectSome f others
      pure (earlier ++ later)) := by
  induction first with
  | nil =>
    rw [List.nil_append, collectSome, ok_bind]
    cases collectSome f others <;> rfl
  | cons head tail inductionHypothesis =>
    rw [List.cons_append, collectSome, collectSome, inductionHypothesis]
    cases f head with
    | err | panic => rfl
    | ok yielded =>
      cases yielded with
      | none => rfl
      | some value => cases collectSome f tail <;> cases collectSome f others <;> rfl

/-- A traversal looks at what the function does with the elements, and at nothing else. -/
theorem collectSome_congr {ε α β : Type} (f g : α → Outcome ε (Option β)) (elements : List α)
    (same : ∀ element ∈ elements, f element = g element) :
    collectSome f elements = collectSome g elements := by
  induction elements with
  | nil => rfl
  | cons head tail inductionHypothesis =>
    obtain ⟨atHead, inTail⟩ := List.forall_mem_cons.mp same
    rw [collectSome, collectSome, atHead, inductionHypothesis inTail]

end Outcome

namespace RootFrames

variable {env : Env} {tx : SolanaTx}

/-- Once its tree is built, a root instruction is parsed alike in both transactions. -/
theorem parseRoot_rerecorded (instructions : List CompiledInstruction)
    (record : AssocMap UInt8 (List IxWithStackHeight)) (root : CompiledInstruction × Nat)
    (same : record.get (.ofNat root.2) = tx.metadata.innerInstructions.get (.ofNat root.2)) :
    parseRoot env (tx.rerecorded instructions record) root = parseRoot env tx root := by
  have built : ((tx.rerecorded instructions record).rootInstruction env.profile root.2 root.1 :
      Outcome WithTrace StackIx) = tx.rootInstruction env.profile root.2 root.1 := by
    rw [SolanaTx.rootInstruction, SolanaTx.rootInstruction]
    change buildIxStack env.profile root.1 ((record.get (.ofNat root.2)).getD []) _ = _
    rw [same]
  rw [parseRoot, parseRoot, built]
  rfl

/-- The first root instructions come first in both transactions. -/
theorem enumerated_split (instructions : List CompiledInstruction) (count : Nat) :
    instructions.zipIdx = (instructions.take count).zipIdx ++
      (instructions.drop count).zipIdx (instructions.take count).length := by
  conv_lhs => rw [← List.take_append_drop count instructions]
  rw [List.zipIdx_append, Nat.zero_add]

/-- Parsing goes through the first root instructions by themselves, and then through the
others. -/
theorem parseTransaction_first (count : Nat) (instructions : List CompiledInstruction)
    (record : AssocMap UInt8 (List IxWithStackHeight))
    (same : instructions.take count = tx.instructions.take count)
    (records : ∀ position < count,
      record.get (.ofNat position) = tx.metadata.innerInstructions.get (.ofNat position)) :
    ∃ others, parseTransaction env (tx.rerecorded instructions record) = (do
      let earlier ← parseTransaction env (tx.firstRoots count)
      let later ← others
      pure (earlier ++ later)) := by
  refine ⟨Outcome.collectSome (parseRoot env (tx.rerecorded instructions record))
    ((instructions.drop count).zipIdx (instructions.take count).length), ?_⟩
  have alike : Outcome.collectSome (parseRoot env (tx.rerecorded instructions record))
      (instructions.take count).zipIdx = parseTransaction env (tx.firstRoots count) := by
    rw [same]
    refine Outcome.collectSome_congr _ _ _ fun root member => ?_
    have within : root.2 < count := by
      have bound := (List.mem_zipIdx' member).1
      rw [List.length_take] at bound
      omega
    exact parseRoot_rerecorded instructions record root (records root.2 within)
  rw [← alike, ← Outcome.collectSome_append, ← enumerated_split instructions count]
  rfl

/-- What the first root instructions yield is decided by them: a failure or a panic among them
is that of every transaction that starts with them, and otherwise every result starts with
theirs. -/
theorem first_roots_decide (env : Env) (tx : SolanaTx) (count : Nat)
    (instructions : List CompiledInstruction) (record : AssocMap UInt8 (List IxWithStackHeight))
    (same : instructions.take count = tx.instructions.take count)
    (records : ∀ position < count,
      record.get (.ofNat position) = tx.metadata.innerInstructions.get (.ofNat position)) :
    (∀ trace, parseTransaction env (tx.firstRoots count) = .err trace →
      parseTransaction env (tx.rerecorded instructions record) = .err trace) ∧
    (parseTransaction env (tx.firstRoots count) = .panic →
      parseTransaction env (tx.rerecorded instructions record) = .panic) ∧
    ∀ result, parseTransaction env (tx.rerecorded instructions record) = .ok result →
      ∃ earlier, parseTransaction env (tx.firstRoots count) = .ok earlier ∧ earlier <+: result := by
  obtain ⟨others, split⟩ : ∃ others, parseTransaction env (tx.rerecorded instructions record) = _ :=
    parseTransaction_first count instructions record same records
  refine ⟨?_, ?_, ?_⟩
  · intro trace fails
    rw [split, fails]
    rfl
  · intro panics
    rw [split, panics]
    rfl
  · intro result ok
    rw [split] at ok
    obtain ⟨earlier, first, rest⟩ := (Outcome.bind_ok_iff _ _ _).mp ok
    obtain ⟨later, _, joined⟩ := (Outcome.bind_ok_iff _ _ _).mp rest
    exact ⟨earlier, first, later, Outcome.ok.inj joined⟩

/-- A swap of a pool comes first in what is reported when its program is run again, without
data. -/
theorem first_roots_of_pool :
    ∃ earlier, parseTransaction poolLibraries
        ((poolTx .orca [2, 0, 3, 2, 4, 2, 5] Dex.swapDisc).firstRoots 1) = .ok earlier ∧
      earlier <+: [.dex ⟨⟨2⟩, ⟨3⟩, .orca, ⟨100, 50, ⟨8⟩, ⟨9⟩⟩⟩] :=
  (first_roots_decide poolLibraries (poolTx .orca [2, 0, 3, 2, 4, 2, 5] Dex.swapDisc) 1
    [⟨2, [2, 0, 3, 2, 4, 2, 5], Dex.swapDisc⟩, ⟨2, [], []⟩]
    (.ofList [(0, poolTransfers.map (fun ix => ⟨ix, some 2⟩)), (1, [])]) rfl
    (fun position first => by
      obtain rfl : position = 0 := by omega
      rfl)).2.2 _ rfl

end RootFrames

end Graced
