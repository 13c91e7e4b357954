import Graced.MachineInt
import Graced.AssocMap
import Graced.Program

/-!
# Netting a route of swaps

A route is a list of elementary swaps in execution order. Its first swap names
the mint that enters the route and its last swap the mint that leaves it. Walking
over the swaps with one balance per mint gives the net swap: what the entry mint
lacks is capital of the caller, what another mint lacks is either dust or a sign
that a swap is missing.

The walk follows the source line by line. Its two plain additions are those that
a build may check; the capital is added with saturation.
-/

namespace Graced

/-- One elementary swap. -/
structure Swap where
  inputAmount : UInt64
  outputAmount : UInt64
  inputMint : Pubkey
  outputMint : Pubkey
deriving DecidableEq, Repr

/-- Why a route has no net swap. -/
inductive SwapGraphError where
  | emptyRoute
  | imbalancedRoute (mint : Pubkey) (amount : UInt64)
deriving DecidableEq, Repr

/-- `DUST_TOLERANCE_BPS` -/
def dustToleranceBps : UInt64 := 5

/-- Is the amount small enough beside the reference to be rounding noise? -/
def isDust (amount reference : UInt64) : Bool :=
  saturatingMul amount 10000 ≤ saturatingMul reference dustToleranceBps

/-- The swaps of a route, in order. -/
structure SwapGraph where
  swaps : List Swap

namespace SwapGraph

/-- What the loop over the swaps carries along. -/
structure Walk where
  balance : AssocMap Pubkey UInt64
  netInput : UInt64

/-- Before the first swap nothing is held and nothing was put in. -/
def Walk.start : Walk := ⟨.empty, 0⟩

/-- The balance of a mint, zero when it has none. -/
def Walk.available (walk : Walk) (mint : Pubkey) : UInt64 := (walk.balance.get mint).getD 0

/-- Take the input of a swap out of the balances. -/
def draw (entry : Pubkey) (walk : Walk) (s : Swap) : Outcome SwapGraphError Walk :=
  let avail := walk.available s.inputMint
  if avail < s.inputAmount then
    let shortfall := s.inputAmount - avail
    if s.inputMint = entry then
      -- real capital the caller had to put in
      .ok ⟨walk.balance.insert s.inputMint 0, saturatingAdd walk.netInput shortfall⟩
    else if isDust shortfall s.inputAmount then
      .ok ⟨walk.balance.insert s.inputMint 0, walk.netInput⟩
    else .err (.imbalancedRoute s.inputMint shortfall)
  else .ok ⟨walk.balance.insert s.inputMint (avail - s.inputAmount), walk.netInput⟩

/-- One round of the loop: draw the input, then credit the output. -/
def step (profile : Profile) (entry : Pubkey) (walk : Walk) (s : Swap) :
    Outcome SwapGraphError Walk := do
  let drawn ← draw entry walk s
  let credited ← profile.add64 (drawn.available s.outputMint) s.outputAmount
  pure { drawn with balance := drawn.balance.insert s.outputMint credited }

/-- The loop. -/
def walk (profile : Profile) (entry : Pubkey) : Walk → List Swap → Outcome SwapGraphError Walk
  | state, [] => .ok state
  | state, s :: rest => do
    let next ← step profile entry state s
    walk profile entry next rest

/-- Collapse the route into its net swap. -/
def swap (profile : Profile) (graph : SwapGraph) : Outcome SwapGraphError Swap :=
  match graph.swaps with
  | [] => .err .emptyRoute
  | first :: rest => do
    let outputMint := ((first :: rest).getLast (List.cons_ne_nil first rest)).outputMint
    let final ← walk profile first.inputMint Walk.start (first :: rest)
    pure {
      inputMint := first.inputMint
      outputMint := outputMint
      inputAmount := final.netInput
      outputAmount := final.available outputMint }

/-- A recycled amount of the entry mint is netted out of the input. -/
example : swap ⟨true⟩ ⟨[⟨1, 2, ⟨0xA⟩, ⟨0xB⟩⟩, ⟨2, 3, ⟨0xB⟩, ⟨0xC⟩⟩, ⟨3, 11, ⟨0xC⟩, ⟨0xA⟩⟩,
    ⟨11, 5, ⟨0xA⟩, ⟨0xD⟩⟩]⟩ = .ok ⟨1, 5, ⟨0xA⟩, ⟨0xD⟩⟩ := by decide

end SwapGraph

end Graced
