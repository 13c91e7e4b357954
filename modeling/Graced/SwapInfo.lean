import Graced.Balances
import Graced.SwapGraph
import Graced.Transfers

/-!
# Finding the two sides of a swap

Two ways lead from the two token accounts of a pool, or of a user, to the sides of a
swap. The first reads the signs of the net changes of both accounts over the whole
transaction. The second reads the transfers that an instruction caused: the user's side
is the largest transfer that touches one of the two accounts in the user's role, and it
must be signed by the user; the other side is the largest transfer that touches the
other account in the opposite role.

An amount passes through a signed integer and back, which keeps it as it is below the
sign bit.
-/

namespace Graced

/-- The two sides of a swap. -/
structure SwapInfo where
  inputMint : Pubkey
  outputMint : Pubkey
  inputAmount : UInt64
  outputAmount : UInt64
  inputTokenProgram : Pubkey
  outputTokenProgram : Pubkey
  aToB : Bool
deriving DecidableEq, Repr

/-- The swap without the details. -/
def SwapInfo.toSwap (info : SwapInfo) : Swap where
  inputAmount := info.inputAmount
  outputAmount := info.outputAmount
  inputMint := info.inputMint
  outputMint := info.outputMint

/-- Why the sides were not found. -/
inductive SwapInfoError where
  | failedHeuristic (aIsInput bIsInput : Bool)
  | missingMint (account : Pubkey)
  | missingTokenProgram (account : Pubkey)
  | parse (error : TokenParseError)
  | other (error : BalanceError)
deriving DecidableEq, Repr

/-- One side: what moved, and by how much. -/
structure TokenLeg where
  mint : Pubkey
  tokenProgram : Pubkey
  delta : Int

/-- `TokenLeg::from_balance`: the recorded mint and program of an account, and the change
of its balance. -/
def TokenLeg.fromBalance (env : Env) (balance : TokenBalance) (account : Pubkey) :
    Outcome SwapInfoError TokenLeg := do
  let mint ← Outcome.okOr (.missingMint account) (balance.mint env)
  let tokenProgram ← Outcome.okOr (.missingTokenProgram account) (balance.tokenProgram env)
  let delta ← (balance.difference env.profile).mapError .other
  pure ⟨mint, tokenProgram, delta⟩

/-- Is this the side that goes in? What goes into a pool raises an account of the pool, or
lowers one of the user. -/
def TokenLeg.isInput (leg : TokenLeg) (isPoolAccount : Bool) : Bool :=
  if isPoolAccount then 0 < leg.delta else leg.delta < 0

/-- `get_swap_info_from_balance_diff` -/
def getSwapInfoFromBalanceDiff (env : Env) (balance : TxBalance)
    (tokenAccountA tokenAccountB : Pubkey) (isPoolAccount : Bool) :
    Outcome SwapInfoError SwapInfo := do
  let legA ← TokenLeg.fromBalance env (balance.findTokenAccountBalance tokenAccountA) tokenAccountA
  let legB ← TokenLeg.fromBalance env (balance.findTokenAccountBalance tokenAccountB) tokenAccountB
  let aIsInput := legA.isInput isPoolAccount
  let bIsInput := legB.isInput isPoolAccount
  if aIsInput = bIsInput then .err (.failedHeuristic aIsInput bIsInput)
  else
    let (input, output) := if aIsInput then (legA, legB) else (legB, legA)
    pure {
      aToB := input.mint = legA.mint
      inputMint := input.mint
      outputMint := output.mint
      inputAmount := unsignedAbs input.delta
      outputAmount := unsignedAbs output.delta
      inputTokenProgram := input.tokenProgram
      outputTokenProgram := output.tokenProgram }

/-- The role in which an account takes part in a transfer. -/
inductive Side where
  | source
  | destination
deriving DecidableEq, Repr

namespace Side

def accountOf (transfer : TokenTransfer) : Side → Pubkey
  | source => transfer.sourceAccount
  | destination => transfer.destinationAccount

def opposite : Side → Side
  | source => destination
  | destination => source

/-- The user pays into accounts of a pool, and out of accounts of their own. -/
def forUserLeg (isPoolAccount : Bool) : Side := if isPoolAccount then destination else source

end Side

/-- `max_by_key` on the amount: of several largest, the last. -/
def largest : List TokenTransfer → Option TokenTransfer
  | [] => none
  | transfer :: rest =>
    match largest rest with
    | none => some transfer
    | some best => if best.amount < transfer.amount then some transfer else some best

/-- `find_leg` -/
def findLeg (transfers : List TokenTransfer) (side : Side) (accepts : Pubkey → Bool) :
    Option TokenTransfer :=
  largest (transfers.filter (fun transfer => accepts (side.accountOf transfer)))

/-- Resolve one side. A mint named by the transfer itself comes first. -/
def resolveLeg (env : Env) (balance : TxBalance) (transferMint : Option Pubkey)
    (account : Pubkey) (amount : UInt64) : Except SwapInfoError TokenLeg := do
  let recorded := balance.findTokenAccountBalance account
  match transferMint.or (recorded.mint env) with
  | none => .error (.missingMint account)
  | some mint =>
    match recorded.tokenProgram env with
    | none => .error (.missingTokenProgram account)
    | some tokenProgram => .ok ⟨mint, tokenProgram, asI64 amount⟩

/-- `get_swap_info_from_token_transfers` -/
def getSwapInfoFromTokenTransfers (env : Env) (balance : TxBalance)
    (transfers : List TokenTransfer) (tokenAccountA tokenAccountB user : Pubkey)
    (isPoolAccount : Bool) : Except SwapInfoError (Option SwapInfo) := do
  if transfers.length < 2 then .ok none
  else
    let userSide := Side.forUserLeg isPoolAccount
    let poolSide := userSide.opposite
    match findLeg transfers userSide
        (fun account => [tokenAccountA, tokenAccountB].contains account) with
    | none => .ok none
    | some userTransfer =>
      if userTransfer.signer ≠ user then .ok none
      else
        let userAccount := userSide.accountOf userTransfer
        let aToB : Bool := userAccount = tokenAccountA
        let counterpartAccount := if aToB then tokenAccountB else tokenAccountA
        match findLeg transfers poolSide (fun account => account = counterpartAccount) with
        | none => .ok none
        | some poolTransfer =>
          let poolAccount := poolSide.accountOf poolTransfer
          let input ← resolveLeg env balance userTransfer.mint userAccount userTransfer.amount
          let output ← resolveLeg env balance poolTransfer.mint poolAccount poolTransfer.amount
          .ok (some {
            aToB := aToB
            inputMint := input.mint
            outputMint := output.mint
            inputAmount := unsignedAbs input.delta
            outputAmount := unsignedAbs output.delta
            inputTokenProgram := input.tokenProgram
            outputTokenProgram := output.tokenProgram })

/-- `get_swap_info`: the transfers are among the direct calls of the instruction. -/
def getSwapInfo {T : Type} [SolanaInstruction T] (env : Env) (balance : TxBalance)
    (accountKeys : AccountKeys) (ix : T) (tokenAccountA tokenAccountB user : Pubkey)
    (isPoolAccount : Bool) : Except SwapInfoError (Option SwapInfo) := do
  let transfers ← (parseMultipleTokenTransfers env accountKeys
    (SolanaInstruction.innerInstructions ix)).mapError .parse
  getSwapInfoFromTokenTransfers env balance transfers tokenAccountA tokenAccountB user
    isPoolAccount

end Graced
