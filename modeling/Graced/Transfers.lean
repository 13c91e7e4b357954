import Graced.Accounts
import Graced.Environment

/-!
# Token transfers among the calls of an instruction

A call of one of the two token programs is a transfer when its first data byte says
so and the token library unpacks it as one. Its accounts come at fixed positions; the
checked kind has the mint in second place. Anything else is passed over, but data
that announces a transfer and does not unpack is an error, and so is a missing
account.
-/

namespace Graced

/-- A transfer. The mint is known for the checked kind only. -/
structure TokenTransfer where
  sourceAccount : Pubkey
  mint : Option Pubkey
  destinationAccount : Pubkey
  signer : Pubkey
  amount : UInt64
  token22 : Bool
deriving DecidableEq, Repr

/-- Why a call could not be read as a transfer. -/
inductive TokenParseError where
  | missingProgramId (index : UInt8)
  | keyTransversal (error : KeyError)
  | instructionUnpack (error : String)
  | instructionData (error : String)
deriving DecidableEq, Repr

/-- `parse_token_transfer` -/
def parseTokenTransfer (env : Env) (accountKeys : AccountKeys) (accounts : List UInt8)
    (data : Bytes) (programIdIndex : UInt8) : Except TokenParseError (Option TokenTransfer) := do
  match accountKeys.get programIdIndex.toNat with
  | none => .error (.missingProgramId programIdIndex)
  | some id =>
    if id ≠ Ids.splToken ∧ id ≠ Ids.splToken2022 then .ok none
    else if data.head? ≠ some 3 ∧ data.head? ≠ some 12 then .ok none
    else
      let decoded ← (env.unpack data).mapError .instructionUnpack
      match decoded with
      | .other => .ok none
      | .transfer amount =>
        let keys ← (InstructionAccounts.new accountKeys accounts programIdIndex).mapError
          .keyTransversal
        let sourceAccount ← (keys.peek 0).mapError .keyTransversal
        let destinationAccount ← (keys.peek 1).mapError .keyTransversal
        let signer ← (keys.peek 2).mapError .keyTransversal
        .ok (some ⟨sourceAccount, none, destinationAccount, signer, amount,
          id = Ids.splToken2022⟩)
      | .transferChecked amount _ =>
        let keys ← (InstructionAccounts.new accountKeys accounts programIdIndex).mapError
          .keyTransversal
        let sourceAccount ← (keys.peek 0).mapError .keyTransversal
        let mint ← (keys.peek 1).mapError .keyTransversal
        let destinationAccount ← (keys.peek 2).mapError .keyTransversal
        let signer ← (keys.peek 3).mapError .keyTransversal
        .ok (some ⟨sourceAccount, some mint, destinationAccount, signer, amount,
          id = Ids.splToken2022⟩)

/-- The transfers among some calls, in order; the first unreadable one is an error. -/
def parseMultipleTokenTransfers {T : Type} [SolanaInstruction T] (env : Env)
    (accountKeys : AccountKeys) : List T → Except TokenParseError (List TokenTransfer)
  | [] => .ok []
  | ix :: rest => do
    let data ← (SolanaInstruction.data ix).mapError .instructionData
    let parsed ← parseTokenTransfer env accountKeys (SolanaInstruction.accounts ix) data
      (SolanaInstruction.programId ix)
    let transfers ← parseMultipleTokenTransfers env accountKeys rest
    match parsed with
    | some transfer => .ok (transfer :: transfers)
    | none => .ok transfers

end Graced
