import Graced.Grpc
import Graced.Parse
import Graced.Rpc

/-!
# Two renderings of one transaction

What a transaction consists of is stated once, without any rendering. A node renders it over
RPC as text and over gRPC as bytes, each with its own idea of what may be missing. Both
conversions read it back, so that the parsers see the same transaction whichever way it came.
-/

namespace Graced.Transports

/-- A token account before or after the transaction. -/
structure TokenRecord where
  accountIndex : UInt8
  mint : String
  uiAmount : Float64
  decimals : UInt8
  amount : String
  uiAmountString : String
  owner : String
  programId : String

/-- What both transports render: the message, and what the parsers read of the metadata. -/
structure Content where
  message : VersionedMessage
  innerInstructions : List InnerRecord
  logMessages : List String
  preBalances : List UInt64
  postBalances : List UInt64
  preTokenBalances : List TokenRecord
  postTokenBalances : List TokenRecord
  loadedAddresses : LoadedAddresses

/-- The record as the parsers read it. -/
def TokenRecord.balance (record : TokenRecord) : TransactionTokenBalance where
  accountIndex := record.accountIndex
  mint := record.mint
  uiTokenAmount := ⟨some record.uiAmount, record.decimals, record.amount, record.uiAmountString⟩
  owner := record.owner
  programId := record.programId

/-- The transaction as the parsers read it. -/
def Content.tx (content : Content) : SolanaTx where
  instructions := content.message.instructions
  accountKeys := .new content.message.staticAccountKeys (some content.loadedAddresses)
  metadata := {
    preBalances := content.preBalances
    postBalances := content.postBalances
    innerInstructions := .ofList content.innerInstructions
    logMessages := content.logMessages
    preTokenBalances := content.preTokenBalances.map TokenRecord.balance
    postTokenBalances := content.postTokenBalances.map TokenRecord.balance }

/-! ## The renderings -/

/-- A part that is rendered, or missing where it has its default value. -/
inductive RendersOptional {α β : Type} (renders : α → β → Prop) (fallback : β) :
    OptionSerializer α → β → Prop where
  | some (rendered : α) (value : β) :
      renders rendered value → RendersOptional renders fallback (.some rendered) value
  | none : RendersOptional renders fallback .none fallback
  | skip : RendersOptional renders fallback .skip fallback

namespace OfRpc

variable (codecs : RpcCodecs)

/-- The text of a key. -/
def Key (text : String) (key : Pubkey) : Prop := codecs.pubkeyFromStr text = some key

/-- A compiled instruction with its data in base58. -/
def Inner (rendered : UiInstruction) (ix : IxWithStackHeight) : Prop :=
  ∃ text, rendered = .compiled ⟨ix.ix.programIdIndex, ix.ix.accounts, text, ix.height⟩ ∧
    codecs.decodeBase58 text = .ok ix.ix.data

/-- The inner instructions of one root instruction. -/
structure InnerGroup (rendered : UiInnerInstructions) (record : InnerRecord) : Prop where
  index : rendered.index = record.1
  instructions : List.Forall₂ (Inner codecs) rendered.instructions record.2

/-- A token balance. -/
structure Balance (rendered : UiTransactionTokenBalance) (record : TokenRecord) : Prop where
  accountIndex : rendered.accountIndex = record.accountIndex
  mint : rendered.mint = record.mint
  uiTokenAmount : rendered.uiTokenAmount =
    ⟨some record.uiAmount, record.decimals, record.amount, record.uiAmountString⟩
  owner : RendersOptional (· = ·) "" rendered.owner record.owner
  programId : RendersOptional (· = ·) "" rendered.programId record.programId

/-- The keys that were loaded. -/
structure Loaded (rendered : UiLoadedAddresses) (loaded : LoadedAddresses) : Prop where
  writable : List.Forall₂ (Key codecs) rendered.writable loaded.writable
  readonly : List.Forall₂ (Key codecs) rendered.readonly loaded.readonly

/-- The metadata. -/
structure Metadata (rendered : UiTransactionStatusMeta) (content : Content) : Prop where
  preBalances : rendered.preBalances = content.preBalances
  postBalances : rendered.postBalances = content.postBalances
  innerInstructions : RendersOptional (List.Forall₂ (InnerGroup codecs)) []
    rendered.innerInstructions content.innerInstructions
  logMessages : RendersOptional (· = ·) [] rendered.logMessages content.logMessages
  preTokenBalances : RendersOptional (List.Forall₂ Balance) [] rendered.preTokenBalances
    content.preTokenBalances
  postTokenBalances : RendersOptional (List.Forall₂ Balance) [] rendered.postTokenBalances
    content.postTokenBalances
  loadedAddresses : RendersOptional (Loaded codecs) ⟨[], []⟩ rendered.loadedAddresses
    content.loadedAddresses

/-- The rendering over RPC. -/
structure Renders (rendered : EncodedTransactionWithStatusMeta) (content : Content) : Prop where
  transaction : ∃ transaction, codecs.decodeTransaction rendered.transaction = some transaction ∧
    transaction.message = content.message
  metadata : ∃ given, rendered.metadata = some given ∧ Metadata codecs given content

end OfRpc

namespace OfGrpc

/-- A small integer in 32 bits. -/
def Byte (rendered : UInt32) (value : UInt8) : Prop := rendered.toNat = value.toNat

/-- The bytes of a key. -/
def Key (bytes : Bytes) (key : Pubkey) : Prop := bytes.length = 32 ∧ Pubkey.ofBytes bytes = key

/-- The header of a message. -/
structure Header (rendered : Proto.MessageHeader) (header : MessageHeader) : Prop where
  numRequiredSignatures : Byte rendered.numRequiredSignatures header.numRequiredSignatures
  numReadonlySignedAccounts :
    Byte rendered.numReadonlySignedAccounts header.numReadonlySignedAccounts
  numReadonlyUnsignedAccounts :
    Byte rendered.numReadonlyUnsignedAccounts header.numReadonlyUnsignedAccounts

/-- An instruction of the message. -/
structure Ix (rendered : Proto.CompiledInstruction) (ix : CompiledInstruction) : Prop where
  programIdIndex : Byte rendered.programIdIndex ix.programIdIndex
  accounts : rendered.accounts = ix.accounts
  data : rendered.data = ix.data

/-- A lookup of a versioned message. -/
structure Lookup (rendered : Proto.MessageAddressTableLookup)
    (lookup : MessageAddressTableLookup) : Prop where
  accountKey : Key rendered.accountKey lookup.accountKey
  writableIndexes : rendered.writableIndexes = lookup.writableIndexes
  readonlyIndexes : rendered.readonlyIndexes = lookup.readonlyIndexes

/-- The part that both kinds of message have. -/
structure Body (rendered : Proto.Message) (body : MessageBody) : Prop where
  header : ∃ given, rendered.header = some given ∧ Header given body.header
  accountKeys : List.Forall₂ Key rendered.accountKeys body.accountKeys
  recentBlockhash : rendered.recentBlockhash.length = 32 ∧
    body.recentBlockhash = ⟨rendered.recentBlockhash⟩
  instructions : List.Forall₂ Ix rendered.instructions body.instructions

/-- A message of one of the two kinds. -/
inductive Message (rendered : Proto.Message) : VersionedMessage → Prop where
  | legacy (body : MessageBody) :
      rendered.versioned = false → Body rendered body → Message rendered (.legacy body)
  | v0 (body : MessageBody) (lookups : List MessageAddressTableLookup) :
      rendered.versioned = true → Body rendered body →
      List.Forall₂ Lookup rendered.addressTableLookups lookups →
      Message rendered (.v0 body lookups)

/-- An inner instruction with its height. -/
structure Inner (rendered : Proto.InnerInstruction) (ix : IxWithStackHeight) : Prop where
  programIdIndex : Byte rendered.programIdIndex ix.ix.programIdIndex
  accounts : rendered.accounts = ix.ix.accounts
  data : rendered.data = ix.ix.data
  stackHeight : rendered.stackHeight = ix.height

/-- The inner instructions of one root instruction. -/
structure InnerGroup (rendered : Proto.InnerInstructions) (record : InnerRecord) : Prop where
  index : Byte rendered.index record.1
  instructions : List.Forall₂ Inner rendered.instructions record.2

/-- A token balance. -/
structure Balance (rendered : Proto.TokenBalance) (record : TokenRecord) : Prop where
  accountIndex : Byte rendered.accountIndex record.accountIndex
  mint : rendered.mint = record.mint
  shown : ∃ given, rendered.uiTokenAmount = some given ∧ given.uiAmount = record.uiAmount ∧
    Byte given.decimals record.decimals ∧ given.amount = record.amount ∧
    given.uiAmountString = record.uiAmountString
  owner : rendered.owner = record.owner
  programId : rendered.programId = record.programId

/-- The metadata. -/
structure Metadata (rendered : Proto.TransactionStatusMeta) (content : Content) : Prop where
  preBalances : rendered.preBalances = content.preBalances
  postBalances : rendered.postBalances = content.postBalances
  innerInstructions :
    List.Forall₂ InnerGroup rendered.innerInstructions content.innerInstructions
  logMessages : rendered.logMessages = content.logMessages
  preTokenBalances : List.Forall₂ Balance rendered.preTokenBalances content.preTokenBalances
  postTokenBalances : List.Forall₂ Balance rendered.postTokenBalances content.postTokenBalances
  writable : List.Forall₂ Key rendered.loadedWritableAddresses content.loadedAddresses.writable
  readonly : List.Forall₂ Key rendered.loadedReadonlyAddresses content.loadedAddresses.readonly

/-- The rendering over gRPC. -/
structure Renders (rendered : Proto.SubscribeUpdateTransaction) (content : Content) : Prop where
  transaction : ∃ info given message, rendered.transaction = some info ∧
    info.transaction = some given ∧ given.message = some message ∧
    Message message content.message
  metadata : ∃ info given, rendered.transaction = some info ∧ info.metadata = some given ∧
    Metadata given content

end OfGrpc

/-! ## Reading a list -/

/-- A list is read element by element where every element is read. -/
theorem mapM_forall₂ {α β ε : Type} (read : α → Except ε β) (rendered : List α)
    (values : List β) (each : List.Forall₂ (fun a b => read a = .ok b) rendered values) :
    rendered.mapM read = .ok values := by
  induction each with
  | nil => rfl
  | cons atHead _ inductionHypothesis =>
    simp [List.mapM_cons, atHead, inductionHypothesis, bind, Except.bind, pure, Except.pure]

/-- A part that may be missing is read as what it renders. -/
theorem toDefault_renders {α β : Type} (renders : α → β → Prop) (fallback : α) (missing : β)
    (serialized : OptionSerializer α) (value : β) (ofMissing : renders fallback missing)
    (rendered : RendersOptional renders missing serialized value) :
    renders (serialized.toDefault fallback) value := by
  cases rendered with
  | some rendered _ renders => exact renders
  | none => exact ofMissing
  | skip => exact ofMissing

/-! ## Over RPC -/

namespace OfRpc

variable (codecs : RpcCodecs)

/-- The keys of a rendering are read back. -/
theorem pubkeys_read (rendered : List String) (keys : List Pubkey)
    (renders : List.Forall₂ (Key codecs) rendered keys) :
    rendered.mapM (Rpc.pubkey codecs) = .ok keys := by
  apply mapM_forall₂
  refine renders.imp ?_
  intro text key known
  simp only [Key] at known
  simp [Rpc.pubkey, known]

/-- The inner instructions are read back. -/
theorem innerRecord_read (rendered : UiInnerInstructions) (record : InnerRecord)
    (renders : InnerGroup codecs rendered record) :
    Rpc.innerRecord codecs rendered = .ok record := by
  have ixs : rendered.instructions.mapM (Rpc.compiled codecs) = .ok record.2 := by
    apply mapM_forall₂
    refine renders.instructions.imp ?_
    rintro _ ix ⟨text, rfl, decoded⟩
    simp [Rpc.compiled, decoded, Except.mapError, bind, Except.bind]
  simp [Rpc.innerRecord, ixs, renders.index, bind, Except.bind]

/-- A text that may be missing is read as an empty one. -/
theorem text_read (serialized : OptionSerializer String) (text : String)
    (renders : RendersOptional (· = ·) "" serialized text) : serialized.toDefault "" = text :=
  toDefault_renders _ _ _ _ _ rfl renders

/-- A token balance is read back. -/
theorem balance_read (rendered : UiTransactionTokenBalance) (record : TokenRecord)
    (renders : Balance rendered record) : Rpc.convertBalance rendered = record.balance := by
  simp [Rpc.convertBalance, TokenRecord.balance, renders.accountIndex, renders.mint,
    renders.uiTokenAmount, text_read _ _ renders.owner,
    text_read _ _ renders.programId]

/-- The token balances are read back. -/
theorem balances_read (serialized : OptionSerializer (List UiTransactionTokenBalance))
    (records : List TokenRecord)
    (renders : RendersOptional (List.Forall₂ Balance) [] serialized records) :
    Rpc.convertUiBalances serialized = records.map TokenRecord.balance := by
  have each := toDefault_renders _ [] _ _ _ .nil renders
  rw [Rpc.convertUiBalances, ← List.forall₂_eq_eq_eq, List.forall₂_map_left_iff,
    List.forall₂_map_right_iff]
  exact each.imp balance_read

/-- The inner instructions of all root instructions are read back. -/
theorem innerRecords_read (serialized : OptionSerializer (List UiInnerInstructions))
    (records : List InnerRecord)
    (renders : RendersOptional (List.Forall₂ (InnerGroup codecs)) [] serialized records) :
    (serialized.toDefault []).mapM (Rpc.innerRecord codecs) = .ok records := by
  apply mapM_forall₂
  exact (toDefault_renders _ [] _ _ _ .nil renders).imp (innerRecord_read codecs)

/-- The loaded addresses are read back; where they are missing there are none. -/
theorem loaded_read (serialized : OptionSerializer UiLoadedAddresses) (loaded : LoadedAddresses)
    (renders : RendersOptional (Loaded codecs) ⟨[], []⟩ serialized loaded)
    (staticKeys : List Pubkey) :
    ∃ converted, Rpc.convertUiLoadedAddresses codecs serialized = .ok converted ∧
      AccountKeys.new staticKeys converted = AccountKeys.new staticKeys (some loaded) := by
  cases renders with
  | some rendered _ keys =>
    refine ⟨some loaded, ?_, rfl⟩
    simp [Rpc.convertUiLoadedAddresses, OptionSerializer.toOption, Rpc.loadedAddresses,
      pubkeys_read codecs _ _ keys.writable, pubkeys_read codecs _ _ keys.readonly, bind,
      Except.bind, Except.map]
  | none => exact ⟨none, rfl, rfl⟩
  | skip => exact ⟨none, rfl, rfl⟩

/-- What the parsers read of the metadata is read back. -/
theorem metadata_read (rendered : UiTransactionStatusMeta) (content : Content)
    (read : TxMetadata × TxStatus) (renders : Metadata codecs rendered content)
    (converted : Rpc.metadata codecs rendered = .ok read) :
    read.1 = content.tx.metadata ∧
      AccountKeys.new content.message.staticAccountKeys read.2.loadedAddresses =
        content.tx.accountKeys := by
  obtain ⟨loaded, convertedLoaded, sameKeys⟩ := loaded_read codecs _ _ renders.loadedAddresses
    content.message.staticAccountKeys
  have logs : rendered.logMessages.toDefault [] = content.logMessages :=
    toDefault_renders _ _ _ _ _ rfl renders.logMessages
  simp only [Rpc.metadata, Outcome.exceptBind_ok_iff] at converted
  obtain ⟨inner, readInner, addresses, readLoaded, returned, _, same⟩ := converted
  rw [innerRecords_read codecs _ _ renders.innerInstructions] at readInner
  obtain rfl := Except.ok.inj readInner
  obtain rfl := Except.ok.inj (convertedLoaded.symm.trans readLoaded)
  obtain rfl := Except.ok.inj same
  refine ⟨?_, sameKeys⟩
  simp [Content.tx, renders.preBalances, renders.postBalances, logs,
    balances_read _ _ renders.preTokenBalances, balances_read _ _ renders.postTokenBalances]

/-- A converted transaction is, for the parsers, the one that was rendered. -/
theorem unifiedTx_read (rendered : EncodedTransactionWithStatusMeta) (slot : UInt64)
    (blockTime : Option Int) (content : Content) (unified : UnifiedTx)
    (renders : Renders codecs rendered content)
    (converted : Rpc.unifiedTx codecs rendered slot blockTime = .ok unified) :
    unified.toSolanaTx = content.tx ∧ unified.message = content.message := by
  obtain ⟨⟨transaction, decoded, message⟩, given, hasMetadata, metadata⟩ := renders
  rw [Rpc.unifiedTx, hasMetadata, Outcome.okOr_some, Outcome.ok_bind] at converted
  obtain ⟨read, readMetadata, converted⟩ := (Outcome.bind_ok_iff _ _ _).mp converted
  rw [Outcome.mapError_eq_ok, Outcome.ofExcept_eq_ok] at readMetadata
  obtain ⟨sameMetadata, sameKeys⟩ := metadata_read codecs given content read metadata readMetadata
  rw [decoded, Outcome.okOr_some, Outcome.ok_bind] at converted
  obtain ⟨isVote, _, converted⟩ := (Outcome.bind_ok_iff _ _ _).mp converted
  obtain ⟨signature, _, same⟩ := (Outcome.bind_ok_iff _ _ _).mp converted
  obtain rfl := Outcome.ok.inj same
  simp only [message]
  exact ⟨by rw [Content.tx, sameMetadata, sameKeys]; rfl, trivial⟩

end OfRpc

/-! ## Over gRPC -/

namespace OfGrpc

/-- A small integer is read back, whatever the message for a large one. -/
theorem byte_read (error : String) (rendered : UInt32) (value : UInt8)
    (renders : Byte rendered value) : Geyser.tryU8 error rendered = .ok value := by
  have small : rendered.toNat < 256 := by
    rw [renders]
    exact value.toNat_lt
  rw [Geyser.tryU8, if_pos small, renders, UInt8.ofNat_toNat]

/-- The keys of a rendering are read back. -/
theorem pubkeys_read (rendered : List Bytes) (keys : List Pubkey)
    (renders : List.Forall₂ Key rendered keys) : Geyser.createPubkeyVec rendered = .ok keys := by
  apply mapM_forall₂
  refine renders.imp ?_
  rintro bytes _ ⟨length, rfl⟩
  simp [Geyser.createPubkey, Geyser.tryPubkey, length]

/-- The instructions of the message are read back. -/
theorem instructions_read (rendered : List Proto.CompiledInstruction)
    (ixs : List CompiledInstruction) (renders : List.Forall₂ Ix rendered ixs) :
    Geyser.createMessageInstructions rendered = .ok ixs := by
  apply mapM_forall₂
  refine renders.imp ?_
  intro given ix same
  simp [Geyser.createMessageInstruction, Geyser.programIdIndex,
    byte_read _ _ _ same.programIdIndex, same.accounts, same.data, bind, Except.bind]

/-- The lookups of a versioned message are read back. -/
theorem lookups_read (rendered : List Proto.MessageAddressTableLookup)
    (lookups : List MessageAddressTableLookup)
    (renders : List.Forall₂ Lookup rendered lookups) :
    rendered.mapM Geyser.createLookup = .ok lookups := by
  apply mapM_forall₂
  refine renders.imp ?_
  intro given lookup same
  obtain ⟨length, key⟩ := same.accountKey
  simp [Geyser.createLookup, Geyser.createPubkey, Geyser.tryPubkey, length, key,
    same.writableIndexes, same.readonlyIndexes, bind, Except.bind]

/-- The part that both kinds of message have is read back. -/
theorem body_read (rendered : Proto.Message) (body : MessageBody) (renders : Body rendered body) :
    Geyser.createBody body.header rendered = .ok body := by
  simp [Geyser.createBody, pubkeys_read _ _ renders.accountKeys,
    instructions_read _ _ renders.instructions, ← renders.recentBlockhash.2, bind, Except.bind]

/-- The message is read back, with the kind it has. -/
theorem message_read (rendered : Proto.Message) (message : VersionedMessage)
    (renders : Message rendered message) : Geyser.createMessage rendered = .ok message := by
  have headerRead (body : MessageBody) (given : Proto.MessageHeader)
      (header : Header given body.header) : Geyser.createHeader given = .ok body.header := by
    simp [Geyser.createHeader, byte_read _ _ _ header.numRequiredSignatures,
      byte_read _ _ _ header.numReadonlySignedAccounts,
      byte_read _ _ _ header.numReadonlyUnsignedAccounts, bind, Except.bind]
  cases renders with
  | legacy body versioned bodyRenders =>
    obtain ⟨given, hasHeader, header⟩ := bodyRenders.header
    simp [Geyser.createMessage, hasHeader, Geyser.required, headerRead body given header,
      bodyRenders.recentBlockhash.1, versioned, body_read _ _ bodyRenders, bind, Except.bind]
  | v0 body lookups versioned bodyRenders lookupsRender =>
    obtain ⟨given, hasHeader, header⟩ := bodyRenders.header
    simp [Geyser.createMessage, hasHeader, Geyser.required, headerRead body given header,
      bodyRenders.recentBlockhash.1, versioned, body_read _ _ bodyRenders,
      lookups_read _ _ lookupsRender, bind, Except.bind]

/-- The inner instructions are read back. -/
theorem innerRecords_read (rendered : List Proto.InnerInstructions) (records : List InnerRecord)
    (renders : List.Forall₂ InnerGroup rendered records) :
    rendered.mapM Geyser.createMetaInnerInstruction = .ok records := by
  apply mapM_forall₂
  refine renders.imp ?_
  intro group record same
  have ixs : group.instructions.mapM Geyser.createInnerInstruction = .ok record.2 := by
    apply mapM_forall₂
    refine same.instructions.imp ?_
    intro given ix inner
    simp [Geyser.createInnerInstruction, Geyser.programIdIndex,
      byte_read _ _ _ inner.programIdIndex, inner.accounts, inner.data, inner.stackHeight, bind,
      Except.bind]
  simp [Geyser.createMetaInnerInstruction, ixs, byte_read _ _ _ same.index, bind, Except.bind]

/-- The token balances are read back. -/
theorem balances_read (rendered : List Proto.TokenBalance) (records : List TokenRecord)
    (renders : List.Forall₂ Balance rendered records) :
    Geyser.createTokenBalances rendered = .ok (records.map TokenRecord.balance) := by
  apply mapM_forall₂
  rw [List.forall₂_map_right_iff]
  refine renders.imp ?_
  intro given record same
  obtain ⟨shown, hasShown, uiAmount, decimals, amount, text⟩ := same.shown
  simp [Geyser.createTokenBalance, hasShown, Geyser.required, byte_read _ _ _ same.accountIndex,
    byte_read _ _ _ decimals, same.mint, uiAmount, amount, text, same.owner, same.programId,
    TokenRecord.balance, bind, Except.bind]

/-- What the parsers read of the metadata is read back. -/
theorem metadata_read (codecs : GrpcCodecs) (rendered : Proto.TransactionStatusMeta)
    (content : Content) (read : TransactionStatusMeta) (renders : Metadata rendered content)
    (converted : Geyser.createTxMeta codecs rendered = .ok read) :
    read.recorded = content.tx.metadata ∧ read.loadedAddresses = content.loadedAddresses := by
  have loaded : Geyser.createLoadedAddresses rendered.loadedWritableAddresses
      rendered.loadedReadonlyAddresses = .ok content.loadedAddresses := by
    simp [Geyser.createLoadedAddresses, pubkeys_read _ _ renders.writable,
      pubkeys_read _ _ renders.readonly, bind, Except.bind]
  simp only [Geyser.createTxMeta, Outcome.exceptBind_ok_iff] at converted
  obtain ⟨err, _, rewards, _, inner, readInner, pre, readPre, post, readPost, addresses,
    readLoaded, returned, _, same⟩ := converted
  rw [innerRecords_read _ _ renders.innerInstructions] at readInner
  rw [balances_read _ _ renders.preTokenBalances] at readPre
  rw [balances_read _ _ renders.postTokenBalances] at readPost
  obtain rfl := Except.ok.inj readInner
  obtain rfl := Except.ok.inj readPre
  obtain rfl := Except.ok.inj readPost
  obtain rfl := Except.ok.inj (loaded.symm.trans readLoaded)
  obtain rfl := Except.ok.inj same
  refine ⟨?_, rfl⟩
  simp [TransactionStatusMeta.recorded, Content.tx, renders.preBalances, renders.postBalances,
    renders.logMessages]

/-- A converted transaction is, for the parsers, the one that was rendered. -/
theorem unifiedTx_read (codecs : GrpcCodecs) (rendered : Proto.SubscribeUpdateTransaction)
    (content : Content) (unified : UnifiedTx) (renders : Renders rendered content)
    (converted : Grpc.unifiedTx codecs rendered = .ok unified) :
    unified.toSolanaTx = content.tx ∧ unified.message = content.message := by
  obtain ⟨⟨info, given, message, hasInfo, hasTransaction, hasMessage, messageRenders⟩,
    sameInfo, metadata, alsoInfo, hasMetadata, metadataRenders⟩ := renders
  obtain rfl := Option.some.inj (hasInfo.symm.trans alsoInfo)
  simp only [Grpc.unifiedTx, hasInfo, hasTransaction, hasMetadata, Outcome.okOr_some,
    Outcome.ok_bind] at converted
  obtain ⟨transaction, readTransaction, converted⟩ := (Outcome.bind_ok_iff _ _ _).mp converted
  obtain ⟨signature, _, converted⟩ := (Outcome.bind_ok_iff _ _ _).mp converted
  obtain ⟨read, readMetadata, same⟩ := (Outcome.bind_ok_iff _ _ _).mp converted
  rw [Outcome.mapError_eq_ok, Outcome.ofExcept_eq_ok] at readTransaction readMetadata
  obtain ⟨sameMetadata, sameLoaded⟩ := metadata_read codecs metadata content read metadataRenders
    readMetadata
  have sameMessage : transaction.message = content.message := by
    simp only [Geyser.createTxVersioned, Outcome.exceptBind_ok_iff, hasMessage, Geyser.required]
      at readTransaction
    obtain ⟨signatures, _, given', isGiven, message', readMessage, same⟩ := readTransaction
    obtain rfl := Except.ok.inj isGiven
    rw [message_read _ _ messageRenders] at readMessage
    obtain rfl := Except.ok.inj readMessage
    rw [← Except.ok.inj same]
  obtain rfl := Outcome.ok.inj same
  simp only [sameMessage]
  exact ⟨by rw [Content.tx, sameMetadata, ← sameLoaded]; rfl, trivial⟩

end OfGrpc

/-! ## Both -/

/-- A transaction that was rendered over RPC and over gRPC is, once both conversions succeed,
the same to all parsers: they see the same instructions, keys, call trees, logs and balances,
and find the same swaps or fail in the same place. -/
theorem transports_agree (rpcCodecs : RpcCodecs) (grpcCodecs : GrpcCodecs) (content : Content)
    (rpcTx : EncodedTransactionWithStatusMeta) (slot : UInt64) (blockTime : Option Int)
    (update : Proto.SubscribeUpdateTransaction) (ofRpc ofGrpc : UnifiedTx)
    (rpcRenders : OfRpc.Renders rpcCodecs rpcTx content)
    (grpcRenders : OfGrpc.Renders update content)
    (rpcConverted : Rpc.unifiedTx rpcCodecs rpcTx slot blockTime = .ok ofRpc)
    (grpcConverted : Grpc.unifiedTx grpcCodecs update = .ok ofGrpc) :
    ofRpc.message = ofGrpc.message ∧
    ofRpc.instructions = ofGrpc.instructions ∧
    (∀ index, ofRpc.accountKeys.get index = ofGrpc.accountKeys.get index) ∧
    (∀ profile, (ofRpc.toSolanaTx.buildStack profile : Outcome WithTrace (List StackIx)) =
      ofGrpc.toSolanaTx.buildStack profile) ∧
    ofRpc.metadata.logMessages = ofGrpc.metadata.logMessages ∧
    (ofRpc.metadata.preBalances = ofGrpc.metadata.preBalances ∧
      ofRpc.metadata.postBalances = ofGrpc.metadata.postBalances) ∧
    (ofRpc.metadata.preTokenBalances = ofGrpc.metadata.preTokenBalances ∧
      ofRpc.metadata.postTokenBalances = ofGrpc.metadata.postTokenBalances) ∧
    (∀ env, parseTransaction env ofRpc.toSolanaTx = parseTransaction env ofGrpc.toSolanaTx) := by
  obtain ⟨rpcTx, rpcMessage⟩ :=
    OfRpc.unifiedTx_read rpcCodecs rpcTx slot blockTime content ofRpc rpcRenders rpcConverted
  obtain ⟨grpcTx, grpcMessage⟩ :=
    OfGrpc.unifiedTx_read grpcCodecs update content ofGrpc grpcRenders grpcConverted
  have same : ofRpc.toSolanaTx = ofGrpc.toSolanaTx := rpcTx.trans grpcTx.symm
  rw [same]
  exact ⟨rpcMessage.trans grpcMessage.symm, rfl, fun _ => rfl, fun _ => rfl, rfl, ⟨rfl, rfl⟩,
    ⟨rfl, rfl⟩, fun _ => rfl⟩

/-! ## One transaction, twice -/

/-- A versioned message with one instruction and one lookup. -/
def lookupMessage : VersionedMessage :=
  .v0 ⟨⟨1, 0, 1⟩, [⟨4⟩, ⟨5⟩], ⟨List.replicate 32 1⟩, [⟨1, [0, 2], [9]⟩]⟩ [⟨⟨6⟩, [3], []⟩]

/-- The transaction with this message in base64. -/
def lookupText : String :=
    "AQcHBwcHBwcHBwcHBwcHBwcHBwcHBwcHBwcHBwcHBwcHBwcHBwcHBwcHBwcHBwcHBwcHBwcHBwcH" ++
    "BwcHBwcHBweAAQABAgAAAAAAAAAAAAAAAAAAAAAAAAAAAAAAAAAAAAAAAAAEAAAAAAAAAAAAAAAA" ++
    "AAAAAAAAAAAAAAAAAAAAAAAAAAUBAQEBAQEBAQEBAQEBAQEBAQEBAQEBAQEBAQEBAQEBAQEBAgAC" ++
    "AQkBAAAAAAAAAAAAAAAAAAAAAAAAAAAAAAAAAAAAAAAAAAYBAwA="

/-- The bytes of a small key. -/
def keyBytes (last : UInt8) : Bytes := List.replicate 31 0 ++ [last]

/-- Its content: one inner instruction, no logs, and a token account whose owner was not
recorded. -/
def lookupContent : Content where
  message := lookupMessage
  innerInstructions := [(0, [⟨⟨1, [0], [9]⟩, some 2⟩])]
  logMessages := []
  preBalances := [7, 1, 0]
  postBalances := [2, 1, 0]
  preTokenBalances := []
  postTokenBalances :=
    [⟨2, "So11111111111111111111111111111111111111112", Float64.ofNat 3, 9, "3000000000", "3", "",
      ""⟩]
  loadedAddresses := ⟨[⟨0⟩], []⟩

/-- Decoders for what the RPC rendering of it contains. -/
def lookupRpcCodecs : RpcCodecs where
  pubkeyFromStr text := if text = "11111111111111111111111111111111" then some ⟨0⟩ else none
  decodeBase58 text := if text = "A" then .ok [9] else .error "InvalidCharacter"
  decodeBase64 _ := .error "InvalidByte"
  decodeTransaction encoded :=
    if encoded = .base64 lookupText then some ⟨[⟨List.replicate 64 7⟩], lookupMessage⟩ else none
  isSimpleVote _ := false

/-- Nothing in the gRPC rendering is serialized once more. -/
def lookupGrpcCodecs : GrpcCodecs where
  decodeTxError _ := none
  rewardType _ := none

/-- The RPC rendering. -/
def lookupRpcTx : EncodedTransactionWithStatusMeta where
  transaction := .base64 lookupText
  version := some (.number 0)
  metadata := some {
    err := none
    status := .ok ()
    fee := 5
    preBalances := [7, 1, 0]
    postBalances := [2, 1, 0]
    innerInstructions := .some [⟨0, [.compiled ⟨1, [0], "A", some 2⟩]⟩]
    logMessages := .none
    preTokenBalances := .skip
    postTokenBalances := .some
      [⟨2, "So11111111111111111111111111111111111111112",
        ⟨some (Float64.ofNat 3), 9, "3000000000", "3"⟩, .none, .skip⟩]
    rewards := .skip
    loadedAddresses := .some ⟨["11111111111111111111111111111111"], []⟩
    returnData := .skip
    computeUnitsConsumed := .some 150
    costUnits := .skip }

/-- The gRPC rendering. -/
def lookupUpdate : Proto.SubscribeUpdateTransaction where
  slot := 9
  transaction := some {
    isVote := false
    transaction := some ⟨[List.replicate 64 7], some {
      header := some ⟨1, 0, 1⟩
      accountKeys := [keyBytes 4, keyBytes 5]
      recentBlockhash := List.replicate 32 1
      instructions := [⟨1, [0, 2], [9]⟩]
      versioned := true
      addressTableLookups := [⟨keyBytes 6, [3], []⟩] }⟩
    metadata := some {
      err := none
      fee := 5
      preBalances := [7, 1, 0]
      postBalances := [2, 1, 0]
      innerInstructions := [⟨0, [⟨1, [0], [9], some 2⟩]⟩]
      logMessages := []
      preTokenBalances := []
      postTokenBalances := [⟨2, "So11111111111111111111111111111111111111112",
        some ⟨Float64.ofNat 3, 9, "3000000000", "3"⟩, "", ""⟩]
      rewards := []
      loadedWritableAddresses := [keyBytes 0]
      loadedReadonlyAddresses := []
      returnDataNone := true
      returnData := none
      computeUnitsConsumed := some 150
      costUnits := none } }

/-- The text of the RPC rendering is decoded. -/
theorem lookup_decoded : lookupRpcCodecs.decodeTransaction lookupRpcTx.transaction =
    some ⟨[⟨List.replicate 64 7⟩], lookupMessage⟩ := by
  simp [lookupRpcCodecs, lookupRpcTx]

/-- The RPC rendering is converted. -/
theorem rpc_converts_lookup :
    ∃ unified, Rpc.unifiedTx lookupRpcCodecs lookupRpcTx 9 none = .ok unified := by
  rw [Rpc.unifiedTx, lookup_decoded]
  exact ⟨_, rfl⟩

/-- The RPC rendering is one of the content. -/
theorem rpc_renders_lookup : OfRpc.Renders lookupRpcCodecs lookupRpcTx lookupContent := by
  refine ⟨⟨_, lookup_decoded, rfl⟩, _, rfl, ⟨rfl, rfl, ?_, .none, .skip, ?_, ?_⟩⟩
  · exact .some _ _ (.cons ⟨rfl, .cons ⟨"A", rfl, rfl⟩ .nil⟩ .nil)
  · exact .some _ _ (.cons ⟨rfl, rfl, rfl, .none, .skip⟩ .nil)
  · exact .some _ _ ⟨.cons rfl .nil, .nil⟩

/-- So is the gRPC rendering. -/
theorem grpc_renders_lookup : OfGrpc.Renders lookupUpdate lookupContent := by
  refine ⟨⟨_, _, _, rfl, rfl, rfl, .v0 _ _ rfl ⟨⟨_, rfl, ⟨rfl, rfl, rfl⟩⟩, ?_, ⟨rfl, rfl⟩, ?_⟩ ?_⟩,
    _, _, rfl, rfl, ⟨rfl, rfl, ?_, rfl, .nil, ?_, ?_, .nil⟩⟩
  · exact .cons ⟨rfl, rfl⟩ (.cons ⟨rfl, rfl⟩ .nil)
  · exact .cons ⟨rfl, rfl, rfl⟩ .nil
  · exact .cons ⟨⟨rfl, rfl⟩, rfl, rfl⟩ .nil
  · exact .cons ⟨rfl, .cons ⟨rfl, rfl, rfl, rfl⟩ .nil⟩ .nil
  · exact .cons ⟨rfl, rfl, ⟨_, rfl, rfl, rfl, rfl, rfl⟩, rfl, rfl⟩ .nil
  · exact .cons ⟨rfl, rfl⟩ .nil

/-- Both conversions succeed, and the parsers see no difference. -/
theorem transports_agree_on_lookup :
    ∃ ofRpc ofGrpc, Rpc.unifiedTx lookupRpcCodecs lookupRpcTx 9 none = .ok ofRpc ∧
      Grpc.unifiedTx lookupGrpcCodecs lookupUpdate = .ok ofGrpc ∧
      ∀ env, parseTransaction env ofRpc.toSolanaTx = parseTransaction env ofGrpc.toSolanaTx := by
  obtain ⟨ofRpc, rpcConverted⟩ := rpc_converts_lookup
  refine ⟨ofRpc, _, rpcConverted, rfl, ?_⟩
  exact (transports_agree lookupRpcCodecs lookupGrpcCodecs lookupContent lookupRpcTx 9 none
    lookupUpdate ofRpc _ rpc_renders_lookup grpc_renders_lookup rpcConverted rfl).2.2.2.2.2.2.2

end Graced.Transports
