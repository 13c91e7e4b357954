import Graced.Message
import Graced.Numerals

/-!
# Transactions from Geyser

The gRPC stream renders the same transaction for programs: keys, data and hashes as raw
bytes, small integers in 32 bits, and every optional part as a list that may be empty. The
conversion checks lengths and ranges; each check has its own message.
-/

namespace Graced

namespace Proto

/-- `proto::MessageHeader` -/
structure MessageHeader where
  numRequiredSignatures : UInt32
  numReadonlySignedAccounts : UInt32
  numReadonlyUnsignedAccounts : UInt32
deriving DecidableEq, Repr

/-- `proto::CompiledInstruction` -/
structure CompiledInstruction where
  programIdIndex : UInt32
  accounts : Bytes
  data : Bytes
deriving DecidableEq, Repr

/-- `proto::MessageAddressTableLookup` -/
structure MessageAddressTableLookup where
  accountKey : Bytes
  writableIndexes : Bytes
  readonlyIndexes : Bytes
deriving DecidableEq, Repr

/-- `proto::Message` -/
structure Message where
  header : Option MessageHeader
  accountKeys : List Bytes
  recentBlockhash : Bytes
  instructions : List CompiledInstruction
  versioned : Bool
  addressTableLookups : List MessageAddressTableLookup
deriving DecidableEq, Repr

/-- `proto::Transaction` -/
structure Transaction where
  signatures : List Bytes
  message : Option Message
deriving DecidableEq, Repr

/-- `proto::InnerInstruction` -/
structure InnerInstruction where
  programIdIndex : UInt32
  accounts : Bytes
  data : Bytes
  stackHeight : Option Nat
deriving DecidableEq, Repr

/-- `proto::InnerInstructions` -/
structure InnerInstructions where
  index : UInt32
  instructions : List InnerInstruction
deriving DecidableEq, Repr

/-- `proto::UiTokenAmount`. The number shown to users is always there. -/
structure UiTokenAmount where
  uiAmount : Float64
  decimals : UInt32
  amount : String
  uiAmountString : String
deriving DecidableEq, Repr

/-- `proto::TokenBalance` -/
structure TokenBalance where
  accountIndex : UInt32
  mint : String
  uiTokenAmount : Option UiTokenAmount
  owner : String
  programId : String
deriving DecidableEq, Repr

/-- `proto::Reward`; the type is a number and the commission a numeral. -/
structure Reward where
  pubkey : String
  lamports : Int
  postBalance : UInt64
  rewardType : Int
  commission : String
deriving DecidableEq, Repr

/-- `proto::RewardType` -/
inductive RewardType where
  | unspecified
  | fee
  | rent
  | staking
  | voting
  | deactivatedStake
deriving DecidableEq, Repr

/-- `proto::ReturnData` -/
structure ReturnData where
  programId : Bytes
  data : Bytes
deriving DecidableEq, Repr

/-- `proto::TransactionStatusMeta`. An error is serialized. -/
structure TransactionStatusMeta where
  err : Option Bytes
  fee : UInt64
  preBalances : List UInt64
  postBalances : List UInt64
  innerInstructions : List InnerInstructions
  logMessages : List String
  preTokenBalances : List TokenBalance
  postTokenBalances : List TokenBalance
  rewards : List Reward
  loadedWritableAddresses : List Bytes
  loadedReadonlyAddresses : List Bytes
  returnDataNone : Bool
  returnData : Option ReturnData
  computeUnitsConsumed : Option UInt64
  costUnits : Option UInt64
deriving DecidableEq, Repr

/-- `SubscribeUpdateTransactionInfo` -/
structure SubscribeUpdateTransactionInfo where
  isVote : Bool
  transaction : Option Transaction
  metadata : Option TransactionStatusMeta
deriving DecidableEq, Repr

/-- `SubscribeUpdateTransaction` -/
structure SubscribeUpdateTransaction where
  slot : UInt64
  transaction : Option SubscribeUpdateTransactionInfo
deriving DecidableEq, Repr

end Proto

/-- `TransactionStatusMeta`, as far as this conversion fills it in. -/
structure TransactionStatusMeta where
  err : Option TransactionError
  fee : UInt64
  preBalances : List UInt64
  postBalances : List UInt64
  innerInstructions : List InnerRecord
  logMessages : List String
  preTokenBalances : List TransactionTokenBalance
  postTokenBalances : List TransactionTokenBalance
  rewards : List Reward
  loadedAddresses : LoadedAddresses
  returnData : Option TransactionReturnData
  computeUnitsConsumed : Option UInt64
  costUnits : Option UInt64

/-- The libraries that decode what is serialized within a message. -/
structure GrpcCodecs where
  /-- `bincode::deserialize::<TransactionError>` -/
  decodeTxError : Bytes → Option TransactionError
  /-- `proto::RewardType::try_from` -/
  rewardType : Int → Option Proto.RewardType

/-- Why a gRPC update was not converted. -/
inductive GrpcConvertError where
  | missingTxUpdate
  | missingTxStatusMeta
  | other (error : String)
deriving DecidableEq, Repr

namespace Geyser

/-- `ok_or` -/
def required {α : Type} (error : String) : Option α → Except String α
  | some value => .ok value
  | none => .error error

/-- `try_into` from `u32` to `u8`. -/
def tryU8 (error : String) (value : UInt32) : Except String UInt8 :=
  if value.toNat < 256 then .ok (UInt8.ofNat value.toNat) else .error error

/-- `Pubkey::try_from` on a slice. -/
def tryPubkey (error : String) (bytes : Bytes) : Except String Pubkey :=
  if bytes.length = 32 then .ok (.ofBytes bytes) else .error error

/-- `create_pubkey` -/
def createPubkey (bytes : Bytes) : Except String Pubkey := tryPubkey "failed to parse Pubkey" bytes

/-- `create_pubkey_vec` -/
def createPubkeyVec (pubkeys : List Bytes) : Except String (List Pubkey) :=
  pubkeys.mapM createPubkey

/-- `Signature::try_from` on a slice. -/
def trySignature (bytes : Bytes) : Except String Signature :=
  if bytes.length = 64 then .ok ⟨bytes⟩ else .error "failed to parse Signature"

/-- The index of a program. -/
def programIdIndex (index : UInt32) : Except String UInt8 :=
  tryU8 "failed to decode CompiledInstruction.program_id_index)" index

/-- `create_message_instruction` -/
def createMessageInstruction (ix : Proto.CompiledInstruction) :
    Except String CompiledInstruction := do
  let index ← programIdIndex ix.programIdIndex
  .ok ⟨index, ix.accounts, ix.data⟩

/-- `create_message_instructions` -/
def createMessageInstructions (ixs : List Proto.CompiledInstruction) :
    Except String (List CompiledInstruction) :=
  ixs.mapM createMessageInstruction

/-- The header of a message, field by field. -/
def createHeader (header : Proto.MessageHeader) : Except String MessageHeader := do
  let numRequiredSignatures ←
    tryU8 "failed to parse num_required_signatures" header.numRequiredSignatures
  let numReadonlySignedAccounts ←
    tryU8 "failed to parse num_readonly_signed_accounts" header.numReadonlySignedAccounts
  let numReadonlyUnsignedAccounts ←
    tryU8 "failed to parse num_readonly_unsigned_accounts" header.numReadonlyUnsignedAccounts
  .ok ⟨numRequiredSignatures, numReadonlySignedAccounts, numReadonlyUnsignedAccounts⟩

/-- A lookup of a versioned message. -/
def createLookup (table : Proto.MessageAddressTableLookup) :
    Except String MessageAddressTableLookup := do
  let accountKey ← createPubkey table.accountKey
  .ok ⟨accountKey, table.writableIndexes, table.readonlyIndexes⟩

/-- The part that both kinds of message have, after the header and the hash were checked. -/
def createBody (header : MessageHeader) (message : Proto.Message) : Except String MessageBody := do
  let accountKeys ← createPubkeyVec message.accountKeys
  let instructions ← createMessageInstructions message.instructions
  .ok ⟨header, accountKeys, ⟨message.recentBlockhash⟩, instructions⟩

/-- `create_message`. The lookups of a versioned message are read before its keys. -/
def createMessage (message : Proto.Message) : Except String VersionedMessage := do
  let given ← required "failed to get MessageHeader" message.header
  let header ← createHeader given
  if message.recentBlockhash.length ≠ 32 then .error "failed to parse hash"
  else if message.versioned then
    let lookups ← message.addressTableLookups.mapM createLookup
    let body ← createBody header message
    .ok (.v0 body lookups)
  else
    let body ← createBody header message
    .ok (.legacy body)

/-- `create_tx_versioned` -/
def createTxVersioned (transaction : Proto.Transaction) : Except String VersionedTransaction := do
  let signatures ← transaction.signatures.mapM trySignature
  let given ← required "failed to get message" transaction.message
  let message ← createMessage given
  .ok ⟨signatures, message⟩

/-- One inner instruction, with its height. -/
def createInnerInstruction (ix : Proto.InnerInstruction) : Except String IxWithStackHeight := do
  let index ← programIdIndex ix.programIdIndex
  .ok ⟨⟨index, ix.accounts, ix.data⟩, ix.stackHeight⟩

/-- `create_meta_inner_instruction`. The instructions are read before the index. -/
def createMetaInnerInstruction (inner : Proto.InnerInstructions) : Except String InnerRecord := do
  let ixs ← inner.instructions.mapM createInnerInstruction
  let index ← tryU8 "failed to decode InnerInstructions.index" inner.index
  .ok (index, ixs)

/-- The type of a reward. -/
def createRewardType : Proto.RewardType → Option RewardType
  | .deactivatedStake => none
  | .unspecified => none
  | .fee => some .fee
  | .rent => some .rent
  | .staking => some .staking
  | .voting => some .voting

/-- The commission of a reward; an empty one is missing. -/
def createCommission (commission : String) : Except String (Option UInt8) :=
  if commission = "" then .ok none
  else (required "failed to parse reward commission" (Numerals.parseU8 commission)).map some

/-- `create_reward` -/
def createReward (codecs : GrpcCodecs) (reward : Proto.Reward) : Except String Reward := do
  let kind ← required "failed to parse reward_type" (codecs.rewardType reward.rewardType)
  let commission ← createCommission reward.commission
  .ok ⟨reward.pubkey, reward.lamports, reward.postBalance, createRewardType kind, commission⟩

/-- `create_token_balances` for one balance -/
def createTokenBalance (balance : Proto.TokenBalance) : Except String TransactionTokenBalance := do
  let shown ← required "failed to get ui_token_amount" balance.uiTokenAmount
  let accountIndex ← tryU8 "failed to parse account_index" balance.accountIndex
  let decimals ← tryU8 "failed to parse decimals" shown.decimals
  .ok {
    accountIndex := accountIndex
    mint := balance.mint
    uiTokenAmount := ⟨some shown.uiAmount, decimals, shown.amount, shown.uiAmountString⟩
    owner := balance.owner
    programId := balance.programId }

/-- `create_token_balances` -/
def createTokenBalances (balances : List Proto.TokenBalance) :
    Except String (List TransactionTokenBalance) :=
  balances.mapM createTokenBalance

/-- `create_loaded_addresses` -/
def createLoadedAddresses (writable readonly : List Bytes) : Except String LoadedAddresses := do
  let writable ← createPubkeyVec writable
  let readonly ← createPubkeyVec readonly
  .ok ⟨writable, readonly⟩

/-- `create_tx_error` -/
def createTxError (codecs : GrpcCodecs) : Option Bytes → Except String (Option TransactionError)
  | none => .ok none
  | some bytes =>
    (required "failed to decode TransactionError" (codecs.decodeTxError bytes)).map some

/-- The return data, unless they are marked as missing. -/
def createReturnData (rendered : Proto.TransactionStatusMeta) :
    Except String (Option TransactionReturnData) :=
  if rendered.returnDataNone then .ok none
  else do
    let given ← required "failed to get return_data" rendered.returnData
    let programId ← tryPubkey "failed to parse program_id" given.programId
    .ok (some ⟨programId, given.data⟩)

/-- `create_tx_meta` -/
def createTxMeta (codecs : GrpcCodecs) (rendered : Proto.TransactionStatusMeta) :
    Except String TransactionStatusMeta := do
  let err ← createTxError codecs rendered.err
  let rewards ← rendered.rewards.mapM (createReward codecs)
  let innerInstructions ← rendered.innerInstructions.mapM createMetaInnerInstruction
  let preTokenBalances ← createTokenBalances rendered.preTokenBalances
  let postTokenBalances ← createTokenBalances rendered.postTokenBalances
  let loadedAddresses ←
    createLoadedAddresses rendered.loadedWritableAddresses rendered.loadedReadonlyAddresses
  let returnData ← createReturnData rendered
  .ok {
    err := err
    fee := rendered.fee
    preBalances := rendered.preBalances
    postBalances := rendered.postBalances
    innerInstructions := innerInstructions
    logMessages := rendered.logMessages
    preTokenBalances := preTokenBalances
    postTokenBalances := postTokenBalances
    rewards := rewards
    loadedAddresses := loadedAddresses
    returnData := returnData
    computeUnitsConsumed := rendered.computeUnitsConsumed
    costUnits := rendered.costUnits }

end Geyser

namespace TransactionStatusMeta

/-- `TxMetadata::from`: what the parsers read of the metadata. -/
def recorded (given : TransactionStatusMeta) : TxMetadata where
  preBalances := given.preBalances
  postBalances := given.postBalances
  innerInstructions := .ofList given.innerInstructions
  logMessages := given.logMessages
  preTokenBalances := given.preTokenBalances
  postTokenBalances := given.postTokenBalances

/-- `TxMetadata::from`: the rest. -/
def status (given : TransactionStatusMeta) : TxStatus where
  err := given.err
  fee := given.fee
  rewards := given.rewards
  loadedAddresses := some given.loadedAddresses
  returnData := given.returnData
  computeUnitsConsumed := given.computeUnitsConsumed
  costUnits := given.costUnits

end TransactionStatusMeta

namespace Grpc

/-- `unified_tx_from_grpc`. The version is always the same number. -/
def unifiedTx (codecs : GrpcCodecs) (update : Proto.SubscribeUpdateTransaction) :
    Outcome GrpcConvertError UnifiedTx := do
  let info ← Outcome.okOr .missingTxUpdate update.transaction
  let given ← Outcome.okOr .missingTxUpdate info.transaction
  let rendered ← Outcome.okOr .missingTxStatusMeta info.metadata
  let transaction ← (Outcome.ofExcept (Geyser.createTxVersioned given)).mapError .other
  let signature ← transaction.firstSignature
  let metadata ← (Outcome.ofExcept (Geyser.createTxMeta codecs rendered)).mapError .other
  pure {
    instructions := transaction.message.instructions
    accountKeys := .new transaction.message.staticAccountKeys metadata.status.loadedAddresses
    metadata := metadata.recorded
    slot := update.slot
    blockTime := none
    signature := signature
    isVote := info.isVote
    version := some (.number 0)
    message := transaction.message
    status := metadata.status }

end Grpc

end Graced
