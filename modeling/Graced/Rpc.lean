import Graced.Message

/-!
# Transactions from RPC

An RPC node renders the metadata for people: keys and instruction data as base-58 text,
optional parts as values that may be missing or left out. The conversion decodes the text
and puts defaults in place of what is missing.
-/

namespace Graced

/-- A value that may be missing, or left out of the rendering altogether. -/
inductive OptionSerializer (α : Type) where
  | some (value : α)
  | none
  | skip
deriving DecidableEq, Repr

namespace OptionSerializer

variable {α : Type}

/-- `serializer_to_option` -/
def toOption : OptionSerializer α → Option α
  | some value => Option.some value
  | none => Option.none
  | skip => Option.none

/-- `serializer_to_default` -/
def toDefault (fallback : α) (serialized : OptionSerializer α) : α :=
  serialized.toOption.getD fallback

end OptionSerializer

/-- `UiTransactionTokenBalance` -/
structure UiTransactionTokenBalance where
  accountIndex : UInt8
  mint : String
  uiTokenAmount : UiTokenAmount
  owner : OptionSerializer String
  programId : OptionSerializer String
deriving DecidableEq, Repr

/-- `UiCompiledInstruction` -/
structure UiCompiledInstruction where
  programIdIndex : UInt8
  accounts : List UInt8
  data : String
  stackHeight : Option Nat
deriving DecidableEq, Repr

/-- `UiInstruction`: compiled, or parsed into something that is of no use here. -/
inductive UiInstruction where
  | compiled (ix : UiCompiledInstruction)
  | parsed
deriving DecidableEq, Repr

/-- `UiInnerInstructions` -/
structure UiInnerInstructions where
  index : UInt8
  instructions : List UiInstruction
deriving DecidableEq, Repr

/-- `UiLoadedAddresses` -/
structure UiLoadedAddresses where
  writable : List String
  readonly : List String
deriving DecidableEq, Repr

/-- `UiTransactionReturnData`; base64 is the only encoding. -/
structure UiTransactionReturnData where
  programId : String
  data : String
deriving DecidableEq, Repr

/-- `UiTransactionStatusMeta`. The error is rendered twice, as itself and as a status. -/
structure UiTransactionStatusMeta where
  err : Option TransactionError
  status : Except TransactionError Unit
  fee : UInt64
  preBalances : List UInt64
  postBalances : List UInt64
  innerInstructions : OptionSerializer (List UiInnerInstructions)
  logMessages : OptionSerializer (List String)
  preTokenBalances : OptionSerializer (List UiTransactionTokenBalance)
  postTokenBalances : OptionSerializer (List UiTransactionTokenBalance)
  rewards : OptionSerializer (List Reward)
  loadedAddresses : OptionSerializer UiLoadedAddresses
  returnData : OptionSerializer UiTransactionReturnData
  computeUnitsConsumed : OptionSerializer UInt64
  costUnits : OptionSerializer UInt64

/-- `EncodedTransaction`: binary in one of two encodings, or rendered in a way from which it
cannot be read back. -/
inductive EncodedTransaction where
  | legacyBinary (blob : String)
  | base58 (blob : String)
  | base64 (blob : String)
  | json
  | accounts
deriving DecidableEq, Repr

/-- `EncodedTransactionWithStatusMeta` -/
structure EncodedTransactionWithStatusMeta where
  transaction : EncodedTransaction
  metadata : Option UiTransactionStatusMeta
  version : Option TransactionVersion

/-- `EncodedConfirmedTransactionWithStatusMeta` -/
structure EncodedConfirmedTransactionWithStatusMeta where
  slot : UInt64
  transaction : EncodedTransactionWithStatusMeta
  blockTime : Option Int

/-- The libraries that decode what an RPC node renders. -/
structure RpcCodecs where
  /-- `Pubkey::from_str` -/
  pubkeyFromStr : String → Option Pubkey
  /-- `bs58::decode` -/
  decodeBase58 : String → Except String Bytes
  /-- Decoding of standard base64. -/
  decodeBase64 : String → Except String Bytes
  /-- `EncodedTransaction::decode` -/
  decodeTransaction : EncodedTransaction → Option VersionedTransaction
  /-- Does the data deserialize as a vote instruction of the simple kind? -/
  isSimpleVote : Bytes → Bool

/-- Why RPC metadata were not converted. -/
inductive MetaConvertError where
  | invalidPubkey
  | missingCompiledInstruction
  | base64 (error : String)
  | base58 (error : String)
deriving DecidableEq, Repr

/-- Why an RPC transaction was not converted. -/
inductive RpcConvertError where
  | failedDecode
  | missingTxStatusMeta
  | metaConvert (error : MetaConvertError)
deriving DecidableEq, Repr

namespace Rpc

variable (codecs : RpcCodecs)

/-- `Pubkey::from_str` with its error. -/
def pubkey (text : String) : Except MetaConvertError Pubkey :=
  match codecs.pubkeyFromStr text with
  | some key => .ok key
  | none => .error .invalidPubkey

/-- `ui_instruction_to_compiled`, where an instruction that is not compiled is an error. -/
def compiled : UiInstruction → Except MetaConvertError IxWithStackHeight
  | .compiled ix => do
    let data ← (codecs.decodeBase58 ix.data).mapError .base58
    .ok ⟨⟨ix.programIdIndex, ix.accounts, data⟩, ix.stackHeight⟩
  | .parsed => .error .missingCompiledInstruction

/-- The inner instructions of one root instruction. -/
def innerRecord (inner : UiInnerInstructions) : Except MetaConvertError InnerRecord := do
  let ixs ← inner.instructions.mapM (compiled codecs)
  .ok (inner.index, ixs)

/-- `convert_ui_balances` for one balance -/
def convertBalance (balance : UiTransactionTokenBalance) : TransactionTokenBalance where
  accountIndex := balance.accountIndex
  mint := balance.mint
  uiTokenAmount := balance.uiTokenAmount
  owner := balance.owner.toDefault ""
  programId := balance.programId.toDefault ""

/-- `convert_ui_balances` -/
def convertUiBalances (balances : OptionSerializer (List UiTransactionTokenBalance)) :
    List TransactionTokenBalance :=
  (balances.toDefault []).map convertBalance

/-- The loaded addresses of a rendering that has them. -/
def loadedAddresses (addresses : UiLoadedAddresses) :
    Except MetaConvertError LoadedAddresses := do
  let writable ← addresses.writable.mapM (pubkey codecs)
  let readonly ← addresses.readonly.mapM (pubkey codecs)
  .ok ⟨writable, readonly⟩

/-- `convert_ui_loaded_addresses` -/
def convertUiLoadedAddresses (addresses : OptionSerializer UiLoadedAddresses) :
    Except MetaConvertError (Option LoadedAddresses) :=
  match addresses.toOption with
  | some rendered => (loadedAddresses codecs rendered).map some
  | none => .ok none

/-- The return data of a rendering that has them. -/
def returnData (rendered : UiTransactionReturnData) :
    Except MetaConvertError TransactionReturnData := do
  let programId ← pubkey codecs rendered.programId
  let data ← (codecs.decodeBase64 rendered.data).mapError .base64
  .ok ⟨programId, data⟩

/-- The return data, if there are any. -/
def convertReturnData (rendered : OptionSerializer UiTransactionReturnData) :
    Except MetaConvertError (Option TransactionReturnData) :=
  match rendered.toOption with
  | some data => (returnData codecs data).map some
  | none => .ok none

/-- The error of a status. -/
def statusError : Except TransactionError Unit → Option TransactionError
  | .ok _ => none
  | .error error => some error

/-- `TxMetadata::try_from`: the metadata that the parsers read, and the rest. -/
def metadata (rendered : UiTransactionStatusMeta) :
    Except MetaConvertError (TxMetadata × TxStatus) := do
  let inner ← (rendered.innerInstructions.toDefault []).mapM (innerRecord codecs)
  let loaded ← convertUiLoadedAddresses codecs rendered.loadedAddresses
  let returned ← convertReturnData codecs rendered.returnData
  .ok ({
    preBalances := rendered.preBalances
    postBalances := rendered.postBalances
    innerInstructions := .ofList inner
    logMessages := rendered.logMessages.toDefault []
    preTokenBalances := convertUiBalances rendered.preTokenBalances
    postTokenBalances := convertUiBalances rendered.postTokenBalances }, {
    err := statusError rendered.status
    fee := rendered.fee
    rewards := rendered.rewards.toDefault []
    loadedAddresses := loaded
    returnData := returned
    computeUnitsConsumed := rendered.computeUnitsConsumed.toOption
    costUnits := rendered.costUnits.toOption })

/-- `Vote111111111111111111111111111111111111111` -/
def voteProgram : Pubkey :=
  ⟨0x761481d357474bb7c4d7624ebd3bdb3d8355e73d11043fc0da3538000000000⟩

/-- `is_vote_tx_present`. The program of each instruction is read by index, up to the first
simple vote. -/
def isVoteTxPresent (staticKeys : List Pubkey) :
    List CompiledInstruction → Outcome RpcConvertError Bool
  | [] => .ok false
  | ix :: rest =>
    match staticKeys[ix.programIdIndex.toNat]? with
    | none => .panic
    | some program =>
      if program = voteProgram ∧ codecs.isSimpleVote ix.data then .ok true
      else isVoteTxPresent staticKeys rest

/-- `unified_tx_from_rpc` -/
def unifiedTx (rpcTx : EncodedTransactionWithStatusMeta) (slot : UInt64)
    (blockTime : Option Int) : Outcome RpcConvertError UnifiedTx := do
  let rendered ← Outcome.okOr .missingTxStatusMeta rpcTx.metadata
  let read ← (Outcome.ofExcept (metadata codecs rendered)).mapError .metaConvert
  let transaction ← Outcome.okOr .failedDecode (codecs.decodeTransaction rpcTx.transaction)
  let isVote ← isVoteTxPresent codecs transaction.message.staticAccountKeys
    transaction.message.instructions
  let signature ← transaction.firstSignature
  pure {
    instructions := transaction.message.instructions
    accountKeys := .new transaction.message.staticAccountKeys read.2.loadedAddresses
    metadata := read.1
    slot := slot
    blockTime := blockTime
    signature := signature
    isVote := isVote
    version := rpcTx.version
    message := transaction.message
    status := read.2 }

/-- `SolanaTx::try_from` on a confirmed transaction. -/
def tryFrom (value : EncodedConfirmedTransactionWithStatusMeta) :
    Outcome RpcConvertError UnifiedTx :=
  unifiedTx codecs value.transaction value.slot value.blockTime

end Rpc

end Graced
