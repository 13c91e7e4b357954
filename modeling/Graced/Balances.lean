import Graced.Environment

/-!
# Balances before and after a transaction

Token balances are recorded per token account, with the amount as the floating-point
number shown to users. The raw amount is recomputed from it: the number is multiplied
by a power of ten, which is computed with a plain `pow` on 64 bits, and truncated.
Lamport balances are recorded for every account.

Differences are taken in 64-bit signed integers; every conversion and subtraction is
checked.
-/

namespace Graced

universe u
variable {ε : Type u}

/-- Why a difference of balances could not be taken. -/
inductive BalanceError where
  | noBalance
  | overflow
  | i64Convert
deriving DecidableEq, Repr

/-- `derive_amount` -/
def deriveAmount (profile : Profile) (balance : TransactionTokenBalance) : Outcome ε UInt64 := do
  let power ← profile.pow64 10 balance.uiTokenAmount.decimals.toNat
  let multiplier := Float64.ofNat power.toNat
  pure (((balance.uiTokenAmount.uiAmount.getD (Float64.ofNat 0)).mul multiplier).truncToU64)

/-- A token account before and after the transaction, where it was recorded. -/
structure TokenBalance where
  before : Option TransactionTokenBalance
  after : Option TransactionTokenBalance

namespace TokenBalance

/-- The amount on one side, zero if it was not recorded. -/
def amountOr (profile : Profile) : Option TransactionTokenBalance → Outcome ε UInt64
  | none => .ok 0
  | some balance => deriveAmount profile balance

/-- `i64::try_from` with its error. -/
def toI64 (amount : UInt64) : Outcome BalanceError Int :=
  Outcome.okOr .i64Convert (tryI64 amount)

/-- The change of the amount. The earlier side is converted before the later one is
computed. -/
def difference (profile : Profile) (balance : TokenBalance) : Outcome BalanceError Int := do
  if balance.before.isNone ∧ balance.after.isNone then .err .noBalance
  else
    let before ← toI64 (← amountOr profile balance.before)
    let after ← toI64 (← amountOr profile balance.after)
    Outcome.okOr .overflow (checkedSubI64 after before)

/-- A difference that is found is no further from zero than a signed number can tell. -/
theorem difference_range (profile : Profile) (balance : TokenBalance) (difference : Int)
    (found : balance.difference profile = .ok difference) : difference.natAbs < 2 ^ 63 := by
  rw [TokenBalance.difference] at found
  split at found
  · simp at found
  · simp only [Outcome.bind_ok_iff, toI64, Outcome.okOr_eq_ok] at found
    obtain ⟨_, _, before, beforeFits, _, _, after, afterFits, subtracted⟩ := found
    exact checkedSubI64_range after before difference (tryI64_range _ after afterFits)
      (tryI64_range _ before beforeFits) subtracted

/-- The mint of whichever side was recorded, the earlier first. -/
def mint (env : Env) (balance : TokenBalance) : Option Pubkey := do
  let text ← (balance.before.map (fun b => b.mint)).or (balance.after.map (fun b => b.mint))
  env.pubkeyFromStr text

/-- The token program of the first side on which it can be read. -/
def tokenProgram (env : Env) (balance : TokenBalance) : Option Pubkey :=
  (balance.before.bind (fun b => env.pubkeyFromStr b.programId)).or
    (balance.after.bind (fun b => env.pubkeyFromStr b.programId))

/-- The size of a difference, if there is one and it is positive. -/
def positivePart {δ : Type} (found : Outcome BalanceError Int) : Outcome δ (Option UInt64) := do
  let diff ← found.discard
  pure (diff.bind (fun diff => if 0 < diff then some (unsignedAbs diff) else none))

/-- The size of a difference, if there is one and it is negative. -/
def negativePart {δ : Type} (found : Outcome BalanceError Int) : Outcome δ (Option UInt64) := do
  let diff ← found.discard
  pure (diff.bind (fun diff => if diff < 0 then some (unsignedAbs diff) else none))

/-- `positive_balance` of a token account -/
def positiveBalance {δ : Type} (profile : Profile) (balance : TokenBalance) :
    Outcome δ (Option UInt64) :=
  positivePart (balance.difference profile)

/-- `negative_balance` of a token account -/
def negativeBalance {δ : Type} (profile : Profile) (balance : TokenBalance) :
    Outcome δ (Option UInt64) :=
  negativePart (balance.difference profile)

end TokenBalance

/-- An account's lamports before and after the transaction. -/
structure NativeBalance where
  before : UInt64
  after : UInt64

/-- The change of the lamports. -/
def NativeBalance.difference (balance : NativeBalance) : Outcome BalanceError Int := do
  let before ← TokenBalance.toI64 balance.before
  let after ← TokenBalance.toI64 balance.after
  Outcome.okOr .overflow (checkedSubI64 after before)

/-- `positive_balance` of an account's lamports -/
def NativeBalance.positiveBalance {δ : Type} (balance : NativeBalance) :
    Outcome δ (Option UInt64) :=
  TokenBalance.positivePart balance.difference

/-- `negative_balance` of an account's lamports -/
def NativeBalance.negativeBalance {δ : Type} (balance : NativeBalance) :
    Outcome δ (Option UInt64) :=
  TokenBalance.negativePart balance.difference

/-- The balances of a transaction, with the table that numbers its accounts. -/
structure TxBalance where
  keys : AccountKeys
  metadata : TxMetadata

/-- `Addr` -/
inductive Addr where
  | index (idx : Nat)
  | key (key : Pubkey)
deriving DecidableEq, Repr

namespace TxBalance

/-- The first index of a key. -/
def findIndexForWallet (balance : TxBalance) (key : Pubkey) : Option Nat :=
  balance.keys.iter.findIdx? (fun k => k = key)

/-- The recorded balance of an account, by its index. -/
def findBalance (balances : List TransactionTokenBalance) (index : Nat) :
    Option TransactionTokenBalance :=
  balances.find? (fun b => b.accountIndex.toNat = index)

/-- `find_token_account_balance`; a key that is not in the table has no balance. -/
def findTokenAccountBalance (balance : TxBalance) (key : Pubkey) : TokenBalance :=
  match balance.findIndexForWallet key with
  | none => ⟨none, none⟩
  | some index => ⟨findBalance balance.metadata.preTokenBalances index,
      findBalance balance.metadata.postTokenBalances index⟩

/-- `find_native_balance`; an account without a recorded balance has none. -/
def findNativeBalance (balance : TxBalance) (key : Pubkey) : NativeBalance :=
  match balance.findIndexForWallet key with
  | none => ⟨0, 0⟩
  | some index => ⟨(balance.metadata.preBalances[index]?).getD 0,
      (balance.metadata.postBalances[index]?).getD 0⟩

/-- `find_token_account_balance_by_idx` -/
def findTokenAccountBalanceByIdx (balance : TxBalance) (idx : Nat) : TokenBalance :=
  ⟨findBalance balance.metadata.preTokenBalances idx,
    findBalance balance.metadata.postTokenBalances idx⟩

/-- `find_native_balance_by_idx` -/
def findNativeBalanceByIdx (balance : TxBalance) (idx : Nat) : NativeBalance :=
  ⟨(balance.metadata.preBalances[idx]?).getD 0, (balance.metadata.postBalances[idx]?).getD 0⟩

/-- `find_token_account_balance` for an account that is named either way. -/
def findTokenAccountBalanceAt (balance : TxBalance) : Addr → TokenBalance
  | .index idx => balance.findTokenAccountBalanceByIdx idx
  | .key key => balance.findTokenAccountBalance key

/-- `find_native_balance` for an account that is named either way. -/
def findNativeBalanceAt (balance : TxBalance) : Addr → NativeBalance
  | .index idx => balance.findNativeBalanceByIdx idx
  | .key key => balance.findNativeBalance key

/-- `token_balances`: those of a wallet in a mint. One whose owner or mint cannot be read is
nobody's. -/
def tokenBalances (env : Env) (balances : List TransactionTokenBalance) (owner mint : Pubkey) :
    List TransactionTokenBalance :=
  balances.filter (fun b =>
    env.pubkeyFromStr b.owner = some owner ∧ env.pubkeyFromStr b.mint = some mint)

/-- `pre_token_balances` -/
def preTokenBalances (env : Env) (balance : TxBalance) (owner mint : Pubkey) :
    List TransactionTokenBalance :=
  tokenBalances env balance.metadata.preTokenBalances owner mint

/-- `post_token_balances` -/
def postTokenBalances (env : Env) (balance : TxBalance) (owner mint : Pubkey) :
    List TransactionTokenBalance :=
  tokenBalances env balance.metadata.postTokenBalances owner mint

/-- One step of `decimals_map`: an entry whose account index was met before is skipped. -/
def recordDecimals (seen : AssocMap String UInt8 × List UInt8)
    (b : TransactionTokenBalance) : AssocMap String UInt8 × List UInt8 :=
  if b.accountIndex ∈ seen.2 then seen
  else (seen.1.insert b.mint b.uiTokenAmount.decimals, b.accountIndex :: seen.2)

/-- `decimals_map` -/
def decimalsMap (balance : TxBalance) : AssocMap String UInt8 :=
  (balance.metadata.postTokenBalances.foldl recordDecimals
    (balance.metadata.preTokenBalances.foldl recordDecimals (.empty, []))).1

/-- The decimals of an entry, if it is of the mint. -/
def decimalsOf (env : Env) (mint : Pubkey) (b : TransactionTokenBalance) : Option UInt8 :=
  match env.pubkeyFromStr b.mint with
  | none => none
  | some recorded => if recorded = mint then some b.uiTokenAmount.decimals else none

/-- `find_decimals_for_mint` -/
def findDecimalsForMint (env : Env) (balance : TxBalance) (mint : Pubkey) : Option UInt8 :=
  if mint = Ids.nativeMint then some 9
  else (balance.metadata.preTokenBalances.findSome? (decimalsOf env mint)).or
    (balance.metadata.postTokenBalances.findSome? (decimalsOf env mint))

end TxBalance

end Graced
