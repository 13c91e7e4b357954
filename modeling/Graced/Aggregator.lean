import Graced.Dex
import Graced.Routes

/-!
# The aggregator parsers

An aggregator instruction is recognised by its data, and its user by a position among
its accounts. Three aggregators log every swap they make by calling themselves; for
the other two the net swap comes out of the routes. A position that does not resolve
is an error here, not a panic.

The routes are the direct calls of other programs than the aggregator itself and the
disallowed ones, each parsed as a dex instruction.
-/

namespace Graced

/-- A swap routed through an aggregator. -/
structure AggregatorSwap where
  program : Program
  user : Pubkey
  swap : Option Swap
  routes : List Route
deriving DecidableEq, Repr

namespace Aggregator

variable {T : Type} [SolanaInstruction T]

/-- `is_aggregator` -/
def isAggregator : Program → Bool
  | .axiomTrade | .dflowAgg | .jupV6 | .okxDexRouter2 | .titanExchangeRouter => true
  | _ => false

/-- Is a direct call one leg of the route? It has to run another program that is not
disallowed. -/
def isHop (view : IxView T) (ix : T) : Bool :=
  match view.keys.get (SolanaInstruction.programId view.ix).toNat,
    view.keys.get (SolanaInstruction.programId ix).toNat with
  | some aggId, some id => id ≠ aggId && !disallowed.contains id
  | _, _ => false

/-- The leg that a direct call is. -/
def routeOf (env : Env) (view : IxView T) (ix : T) : Outcome ParseError (Option Route) := do
  if isHop view ix then
    let hop := view.newCloned ix
    let program ← hop.program
    match ← Dex.parse env hop program with
    | some dex => pure (some (.decoded dex))
    | none =>
      let transfers := (parseMultipleTokenTransfers env view.keys
        (SolanaInstruction.innerInstructions ix)).toOption.getD []
      pure (some (.undecoded program (SolanaInstruction.path ix) transfers))
  else pure none

/-- `aggregator_routes` -/
def aggregatorRoutes (env : Env) (view : IxView T) : Outcome ParseError (List Route) :=
  Outcome.collectSome (routeOf env view) (SolanaInstruction.innerInstructions view.ix)

/-- What an aggregator parser knows before it looks at the routes. -/
structure Header where
  program : Program
  user : Pubkey
  /-- The net swap, given the routes. -/
  netSwap : List Route → Outcome ParseError (Option Swap)

/-- An account at a position, or an error. -/
def peek (accs : InstructionAccounts) (position : Nat) : Outcome ParseError Pubkey :=
  (Outcome.ofExcept (accs.peek position)).mapError .keyTransversal

/-- The net swap of the routes. -/
def netOfRoutes (env : Env) (view : IxView T) (routes : List Route) :
    Outcome ParseError (Option Swap) :=
  (Routes.swap env.profile (env.totalsOrder (SolanaInstruction.path view.ix)) routes).discard

/-- The net swap of logged swaps. -/
def netOfSwaps (env : Env) (swaps : List Swap) : Outcome ParseError (Option Swap) :=
  (SwapGraph.swap env.profile ⟨swaps⟩).discard

/-- The events that the aggregator logged by calling itself. -/
def cpiData (view : IxView T) (program : Program) : List Bytes :=
  filterCpiLogsData view.keys program.pubkey (SolanaInstruction.innerInstructions view.ix)

def axiomTrade (env : Env) (view : IxView T) : Outcome ParseError (Option Header) := do
  let data ← view.data
  if data.head? = some 0 then
    let accs ← view.accounts
    let _ ← peek accs 0
    let user ← peek accs 1
    pure (some ⟨.axiomTrade, user, netOfRoutes env view⟩)
  else pure none

def dflowDiscs : List Bytes :=
  [[248, 198, 158, 145, 225, 117, 135, 200], [65, 75, 63, 76, 235, 91, 91, 136],
    [95, 123, 213, 246, 122, 1, 86, 231], [222, 100, 184, 146, 186, 196, 105, 165],
    [168, 172, 24, 77, 197, 156, 135, 101], [205, 77, 127, 108, 241, 32, 196, 195]]

/-- `SwapEvent`, as two aggregators log it. -/
def swapEvent : Borsh.Reader Swap := do
  Borsh.skip 32
  let inputMint ← Pubkey.read
  let inputAmount ← Borsh.u64
  let outputMint ← Pubkey.read
  let outputAmount ← Borsh.u64
  return ⟨inputAmount, outputAmount, inputMint, outputMint⟩

/-- The swaps that Dflow logged. -/
def dflowSwaps : List Bytes → Except String (List Swap)
  | [] => .ok []
  | data :: rest =>
    if 8 ≤ data.length ∧ data.take 8 = Dex.swapEventDisc then do
      let swap ← Borsh.deserialize swapEvent (data.drop 8)
      let swaps ← dflowSwaps rest
      .ok (swap :: swaps)
    else dflowSwaps rest

def dflow (env : Env) (view : IxView T) : Outcome ParseError (Option Header) := do
  let data ← view.data
  if data.length < 8 ∨ data.take 8 ∉ dflowDiscs then pure none
  else
    let accs ← view.accounts
    let user ← peek accs 3
    let swaps ← (Outcome.ofExcept (dflowSwaps (cpiData view .dflowAgg))).mapError
      ParseError.borshDeserialize
    pure (some ⟨.dflowAgg, user, fun _ => netOfSwaps env swaps⟩)

/-- The position of the user for each kind of Jupiter route. -/
def jupiterUser (disc : Bytes) : Option Nat :=
  if disc = [208, 51, 239, 151, 123, 43, 237, 92] then some 1
  else if disc = [157, 138, 184, 82, 21, 244, 243, 36] then some 0
  else if disc = [229, 23, 203, 151, 122, 227, 173, 42] then some 1
  else if disc = [187, 100, 250, 204, 49, 196, 175, 20] then some 0
  else if disc = [150, 86, 71, 116, 167, 93, 14, 104] then some 1
  else if disc = [176, 209, 105, 168, 154, 125, 69, 62] then some 2
  else if disc = [53, 96, 229, 202, 216, 187, 250, 24] then some 1
  else if disc = [193, 32, 155, 51, 65, 214, 156, 129] then some 2
  else if disc = [209, 152, 83, 147, 124, 254, 216, 233] then some 1
  else if disc = [230, 121, 143, 80, 119, 159, 106, 170] then some 2
  else none

/-- One element of `SwapsEvent`. -/
def swapEventV2 : Borsh.Reader Swap := do
  let inputMint ← Pubkey.read
  let inputAmount ← Borsh.u64
  let outputMint ← Pubkey.read
  let outputAmount ← Borsh.u64
  return ⟨inputAmount, outputAmount, inputMint, outputMint⟩

/-- The swaps that Jupiter logged one by one, or all those of the first event that logs
them together. -/
def jupiterSwaps : List Swap → List Bytes → Except String (List Swap)
  | swaps, [] => .ok swaps
  | swaps, data :: rest =>
    if data.length ≤ 8 then jupiterSwaps swaps rest
    else if data.take 8 = Dex.swapEventDisc then do
      let swap ← Borsh.deserialize swapEvent (data.drop 8)
      jupiterSwaps (swaps ++ [swap]) rest
    else if data.take 8 = [152, 47, 78, 235, 192, 96, 110, 106] then
      Borsh.deserialize (Borsh.vec swapEventV2) (data.drop 8)
    else jupiterSwaps swaps rest

def jupiter (env : Env) (view : IxView T) : Outcome ParseError (Option Header) := do
  let data ← view.data
  if data.length < 8 then pure none
  else
    let accs ← view.accounts
    match jupiterUser (data.take 8) with
    | none => pure none
    | some position =>
      let user ← peek accs position
      let swaps ← (Outcome.ofExcept (jupiterSwaps [] (cpiData view .jupV6))).mapError
        ParseError.borshDeserialize
      if swaps.isEmpty then pure none
      else pure (some ⟨.jupV6, user, fun _ => netOfSwaps env swaps⟩)

def okxDiscs : List Bytes :=
  [[248, 198, 158, 145, 225, 117, 135, 200], [170, 41, 85, 177, 132, 80, 31, 53],
    [190, 156, 169, 176, 149, 154, 161, 108], [72, 1, 215, 242, 8, 75, 54, 216],
    [223, 170, 216, 234, 204, 6, 241, 25], [239, 93, 10, 202, 161, 134, 127, 130],
    [36, 92, 147, 219, 26, 176, 159, 90], [187, 201, 212, 51, 16, 155, 236, 60],
    [127, 214, 107, 189, 23, 90, 47, 104]]

/-- The events of OKX share their head. The second version of each has one more amount,
those with fees have a tail, and the enhanced ones a longer tail. -/
def okxEvent (second fees enhanced : Bool) : Borsh.Reader Swap := do
  Borsh.skip 8
  let sourceMint ← Pubkey.read
  let destinationMint ← Pubkey.read
  Borsh.skip 64
  if second then Borsh.skip 8
  let sourceTokenChange ← Borsh.u64
  let destinationTokenChange ← Borsh.u64
  if fees then
    let _ ← Borsh.bool
    Borsh.skip 127
  if enhanced then Borsh.skip 42
  return ⟨sourceTokenChange, destinationTokenChange, sourceMint, destinationMint⟩

/-- The event that a discriminator announces. -/
def okxEventOf (disc : Bytes) : Option (Borsh.Reader Swap) :=
  if disc = [189, 97, 67, 12, 37, 209, 247, 29] then some (okxEvent false true false)
  else if disc = [12, 134, 38, 93, 167, 151, 42, 69] then some (okxEvent true true false)
  else if disc = [37, 72, 219, 67, 50, 244, 1, 213] then some (okxEvent false true true)
  else if disc = [84, 79, 219, 247, 218, 156, 219, 177] then some (okxEvent true true true)
  else if disc = [85, 81, 149, 239, 163, 74, 158, 111] then some (okxEvent false false false)
  else if disc = [21, 94, 224, 53, 220, 232, 193, 94] then some (okxEvent true false false)
  else none

/-- The first event that OKX logged. -/
def okxSwap : List Bytes → Except String (Option Swap)
  | [] => .ok none
  | data :: rest =>
    if data.length ≤ 8 then okxSwap rest
    else
      match okxEventOf (data.take 8) with
      | none => okxSwap rest
      | some event => do
        let swap ← Borsh.deserialize event (data.drop 8)
        .ok (some swap)

def okxRouter (view : IxView T) : Outcome ParseError (Option Header) := do
  let data ← view.data
  if data.length < 8 then pure none
  else
    let accs ← view.accounts
    if data.take 8 ∉ okxDiscs then pure none
    else
      let user ← peek accs 0
      let swap ← (Outcome.ofExcept (okxSwap (cpiData view .okxDexRouter2))).mapError
        ParseError.borshDeserialize
      pure (some ⟨.okxDexRouter2, user, fun _ => .ok swap⟩)

def titanRouter (env : Env) (view : IxView T) : Outcome ParseError (Option Header) := do
  let data ← view.data
  let accs ← view.accounts
  if 8 < data.length ∧ data.take 8 = [249, 91, 84, 33, 69, 22, 0, 135] then
    let user ← peek accs 0
    pure (some ⟨.titanExchangeRouter, user, netOfRoutes env view⟩)
  else if data.head? = some 42 then
    let user ← peek accs 1
    pure (some ⟨.titanExchangeRouter, user, netOfRoutes env view⟩)
  else pure none

/-- What the parser of an aggregator does before it looks at the routes. -/
def header (env : Env) (view : IxView T) : Program → Outcome ParseError (Option Header)
  | .axiomTrade => axiomTrade env view
  | .dflowAgg => dflow env view
  | .jupV6 => jupiter env view
  | .okxDexRouter2 => okxRouter view
  | .titanExchangeRouter => titanRouter env view
  | _ => .ok none

/-- The parser of an aggregator: the header, the routes, and the net swap. -/
def parse (env : Env) (view : IxView T) (program : Program) :
    Outcome ParseError (Option AggregatorSwap) := do
  match ← header env view program with
  | none => pure none
  | some header =>
    let routes ← aggregatorRoutes env view
    let swap ← header.netSwap routes
    pure (some ⟨header.program, header.user, swap, routes⟩)

end Aggregator

end Graced
