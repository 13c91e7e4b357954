import Graced.SwapInfo

/-!
# An instruction with its context

A parser sees one instruction together with what its transaction shares: the account
table, the logs and the balances. It returns a swap, nothing, or an error.
-/

namespace Graced

/-- Why an instruction was not parsed. -/
inductive ParseError where
  | generic (error : String)
  | keyTransversal (error : KeyError)
  | borshDeserialize (error : String)
  | txLogs (error : TxLogsError)
  | noProgramId
  | balance (error : BalanceError)
  | getSwapInfo (error : SwapInfoError)
  | noDetailsFound
  | tokenParse (error : TokenParseError)
deriving DecidableEq, Repr

/-- A swap executed by one dex. -/
structure DexSwap where
  user : Pubkey
  market : Pubkey
  program : Program
  swap : Swap
deriving DecidableEq, Repr

/-- An instruction and what its transaction shares. -/
structure IxView (T : Type) where
  ix : T
  keys : AccountKeys
  logs : TxLogs
  balance : TxBalance

namespace IxView

variable {T : Type} [SolanaInstruction T]

/-- The same context around another instruction. -/
def newCloned (ix : T) (source : IxView T) : IxView T := { source with ix := ix }

/-- The id of the program that the instruction runs. -/
def programId (view : IxView T) : Outcome ParseError Pubkey :=
  match view.keys.get (SolanaInstruction.programId view.ix).toNat with
  | some id => .ok id
  | none => .err .noProgramId

/-- The program that the instruction runs. -/
def program (view : IxView T) : Outcome ParseError Program := do
  let id ← view.programId
  pure (Program.ofPubkey id)

/-- The data of the instruction. -/
def data (view : IxView T) : Outcome ParseError Bytes :=
  (Outcome.ofExcept (SolanaInstruction.data view.ix)).mapError .generic

/-- The accounts of the instruction. -/
def accounts (view : IxView T) : Outcome ParseError InstructionAccounts :=
  (Outcome.ofExcept (InstructionAccounts.new view.keys (SolanaInstruction.accounts view.ix)
    (SolanaInstruction.programId view.ix))).mapError .keyTransversal

/-- The swap that the instruction's transfers tell of, between two accounts of a pool. -/
def swapInfo (env : Env) (view : IxView T) (tokenAccountA tokenAccountB user : Pubkey) :
    Outcome ParseError (Option SwapInfo) :=
  (Outcome.ofExcept (getSwapInfo env view.balance view.keys view.ix tokenAccountA tokenAccountB
    user true)).mapError .getSwapInfo

/-- The lines that the program of the instruction logged. -/
def programLogs (env : Env) (view : IxView T) : Except TxLogsError (List String) :=
  view.logs.programLogs env.logParser (SolanaInstruction.path view.ix)

@[simp] theorem programId_ne_panic (view : IxView T) : view.programId ≠ .panic := by
  unfold programId
  split <;> simp

@[simp] theorem data_ne_panic (view : IxView T) : view.data ≠ .panic := by
  simp [data, Outcome.mapError_eq_panic]

@[simp] theorem accounts_ne_panic (view : IxView T) : view.accounts ≠ .panic := by
  simp [accounts, Outcome.mapError_eq_panic]

@[simp] theorem swapInfo_ne_panic (env : Env) (view : IxView T)
    (tokenAccountA tokenAccountB user : Pubkey) :
    view.swapInfo env tokenAccountA tokenAccountB user ≠ .panic := by
  simp [swapInfo, Outcome.mapError_eq_panic]

end IxView

end Graced
