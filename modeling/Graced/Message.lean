import Graced.Outcome
import Graced.Transaction

/-!
# A whole transaction

Both transports deliver a transaction as its message, with the signatures, and what was
recorded about it. From these the unified transaction is put together: what the parsers
read, and beside it the parts that no parser looks at, such as the error with which the
transaction ended.
-/

namespace Graced

/-- `Hash` -/
structure Hash where
  bytes : Bytes
deriving DecidableEq, Repr

/-- `Signature` -/
structure Signature where
  bytes : Bytes
deriving DecidableEq, Repr

/-- `MessageHeader` -/
structure MessageHeader where
  numRequiredSignatures : UInt8
  numReadonlySignedAccounts : UInt8
  numReadonlyUnsignedAccounts : UInt8
deriving DecidableEq, Repr

/-- `MessageAddressTableLookup` -/
structure MessageAddressTableLookup where
  accountKey : Pubkey
  writableIndexes : List UInt8
  readonlyIndexes : List UInt8
deriving DecidableEq, Repr

/-- What a legacy message consists of, and a versioned one up to its lookups. -/
structure MessageBody where
  header : MessageHeader
  accountKeys : List Pubkey
  recentBlockhash : Hash
  instructions : List CompiledInstruction
deriving DecidableEq, Repr

/-- `VersionedMessage` -/
inductive VersionedMessage where
  | legacy (body : MessageBody)
  | v0 (body : MessageBody) (addressTableLookups : List MessageAddressTableLookup)
deriving DecidableEq, Repr

namespace VersionedMessage

/-- The part that both kinds of message have. -/
def body : VersionedMessage → MessageBody
  | legacy body => body
  | v0 body _ => body

/-- `instructions` -/
def instructions (message : VersionedMessage) : List CompiledInstruction :=
  message.body.instructions

/-- `static_account_keys` -/
def staticAccountKeys (message : VersionedMessage) : List Pubkey := message.body.accountKeys

/-- `header` -/
def header (message : VersionedMessage) : MessageHeader := message.body.header

end VersionedMessage

/-- `VersionedTransaction` -/
structure VersionedTransaction where
  signatures : List Signature
  message : VersionedMessage
deriving DecidableEq, Repr

/-- The first signature. There has to be one. -/
def VersionedTransaction.firstSignature {ε : Type} (transaction : VersionedTransaction) :
    Outcome ε Signature :=
  match transaction.signatures with
  | [] => .panic
  | signature :: _ => .ok signature

/-- `TransactionVersion` -/
inductive TransactionVersion where
  | legacy
  | number (version : UInt8)
deriving DecidableEq, Repr

/-- `TransactionError`. Its kinds are only passed on. -/
structure TransactionError where
  kind : String
deriving DecidableEq, Repr

/-- `LoadedAddresses` -/
structure LoadedAddresses where
  writable : List Pubkey
  readonly : List Pubkey
deriving DecidableEq, Repr

/-- `TransactionReturnData` -/
structure TransactionReturnData where
  programId : Pubkey
  data : Bytes
deriving DecidableEq, Repr

/-- `RewardType` -/
inductive RewardType where
  | fee
  | rent
  | staking
  | voting
deriving DecidableEq, Repr

/-- `Reward`; the lamports are signed. -/
structure Reward where
  pubkey : String
  lamports : Int
  postBalance : UInt64
  rewardType : Option RewardType
  commission : Option UInt8
deriving DecidableEq, Repr

/-- The recorded metadata that no parser reads. -/
structure TxStatus where
  err : Option TransactionError
  fee : UInt64
  rewards : List Reward
  loadedAddresses : Option LoadedAddresses
  returnData : Option TransactionReturnData
  computeUnitsConsumed : Option UInt64
  costUnits : Option UInt64
deriving DecidableEq, Repr

/-- A unified transaction: what the parsers read, and the rest. -/
structure UnifiedTx extends SolanaTx where
  slot : UInt64
  blockTime : Option Int
  signature : Signature
  isVote : Bool
  version : Option TransactionVersion
  message : VersionedMessage
  status : TxStatus

/-- `signers`: the leading static keys, sliced without looking at how many there are. -/
def UnifiedTx.signers {ε : Type} (tx : UnifiedTx) : Outcome ε (List Pubkey) :=
  let signatures := tx.message.header.numRequiredSignatures.toNat
  if signatures ≤ tx.message.staticAccountKeys.length then
    .ok (tx.message.staticAccountKeys.take signatures)
  else .panic

/-- `AccountKeys::new` -/
def AccountKeys.new (staticKeys : List Pubkey) : Option LoadedAddresses → AccountKeys
  | some dynamic => ⟨staticKeys, dynamic.writable, dynamic.readonly⟩
  | none => ⟨staticKeys, [], []⟩

/-- The record of one root instruction's inner instructions, under its index. -/
abbrev InnerRecord := UInt8 × List IxWithStackHeight

end Graced
