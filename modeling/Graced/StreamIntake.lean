import Graced.Transports

/-!
# What the stream lets in

A gRPC update comes without the sanitising that a decoded transaction has gone through: every
part may be missing, every list may have any length and every number takes 32 bits. The
conversion narrows numbers and parses keys with checks of its own. What it does not check is
that there is a signature, and that there are as many keys as signatures are asked for.
-/

namespace Graced

namespace Proto

/-- A number that one byte holds. -/
def OneByte (number : UInt32) : Prop := number.toNat < 256

/-- As many bytes as a key has. -/
def KeySized (bytes : Bytes) : Prop := bytes.length = 32

/-- Every number of a header fits in one byte. -/
structure MessageHeader.Narrow (header : MessageHeader) : Prop where
  numRequiredSignatures : OneByte header.numRequiredSignatures
  numReadonlySignedAccounts : OneByte header.numReadonlySignedAccounts
  numReadonlyUnsignedAccounts : OneByte header.numReadonlyUnsignedAccounts

/-- A message with all its parts, of the sizes they have. The lookups of a legacy message do
not matter. -/
structure Message.WellFormed (message : Message) : Prop where
  header : ∃ header, message.header = some header ∧ header.Narrow
  accountKeys : ∀ key ∈ message.accountKeys, KeySized key
  recentBlockhash : message.recentBlockhash.length = 32
  instructions : ∀ ix ∈ message.instructions, OneByte ix.programIdIndex
  addressTableLookups : message.versioned = true →
    ∀ table ∈ message.addressTableLookups, KeySized table.accountKey

/-- A transaction whose signatures and message have the sizes they have. There may be no
signature at all. -/
structure Transaction.WellFormed (transaction : Transaction) : Prop where
  signatures : ∀ signature ∈ transaction.signatures, signature.length = 64
  message : ∃ message, transaction.message = some message ∧ message.WellFormed

/-- Inner instructions whose indices fit in one byte. -/
structure InnerInstructions.Narrow (inner : InnerInstructions) : Prop where
  index : OneByte inner.index
  instructions : ∀ ix ∈ inner.instructions, OneByte ix.programIdIndex

/-- A token balance with an amount, whose numbers fit in one byte. -/
structure TokenBalance.WellFormed (balance : TokenBalance) : Prop where
  accountIndex : OneByte balance.accountIndex
  uiTokenAmount : ∃ shown, balance.uiTokenAmount = some shown ∧ OneByte shown.decimals

/-- A reward of a known type whose commission is empty or a numeral. -/
structure Reward.WellFormed (codecs : GrpcCodecs) (reward : Reward) : Prop where
  rewardType : ∃ kind, codecs.rewardType reward.rewardType = some kind
  commission : reward.commission = "" ∨
    ∃ commission, Numerals.parseU8 reward.commission = some commission

/-- Metadata whose parts can all be read. -/
structure TransactionStatusMeta.WellFormed (codecs : GrpcCodecs)
    (recorded : TransactionStatusMeta) : Prop where
  err : ∀ bytes, recorded.err = some bytes → ∃ error, codecs.decodeTxError bytes = some error
  rewards : ∀ reward ∈ recorded.rewards, reward.WellFormed codecs
  innerInstructions : ∀ inner ∈ recorded.innerInstructions, inner.Narrow
  preTokenBalances : ∀ balance ∈ recorded.preTokenBalances, balance.WellFormed
  postTokenBalances : ∀ balance ∈ recorded.postTokenBalances, balance.WellFormed
  loadedWritableAddresses : ∀ key ∈ recorded.loadedWritableAddresses, KeySized key
  loadedReadonlyAddresses : ∀ key ∈ recorded.loadedReadonlyAddresses, KeySized key
  returnData : recorded.returnDataNone = false →
    ∃ data, recorded.returnData = some data ∧ KeySized data.programId

end Proto

namespace StreamIntake

open Transports.OfGrpc (Byte)
open Outcome (exceptBind_ok_iff exceptBind_succeeds_iff exists_ok)

/-- The numbers of a token balance are those of the update. -/
def BalanceNumbers (given : Proto.TokenBalance) (balance : TransactionTokenBalance) : Prop :=
  Byte given.accountIndex balance.accountIndex ∧
    ∃ shown, given.uiTokenAmount = some shown ∧ Byte shown.decimals balance.uiTokenAmount.decimals ∧
      balance.uiTokenAmount.uiAmount = some shown.uiAmount ∧
      balance.uiTokenAmount.amount = shown.amount

/-- The parts of an update that have to be there. -/
structure Parts (update : Proto.SubscribeUpdateTransaction) where
  info : Proto.SubscribeUpdateTransactionInfo
  transaction : Proto.Transaction
  message : Proto.Message
  header : Proto.MessageHeader
  recorded : Proto.TransactionStatusMeta
  hasInfo : update.transaction = some info
  hasTransaction : info.transaction = some transaction
  hasMessage : transaction.message = some message
  hasHeader : message.header = some header
  hasRecorded : info.metadata = some recorded

/-- The numbers of a converted transaction are those of the update. The inner instructions are
kept under their index. -/
structure SameNumbers {update : Proto.SubscribeUpdateTransaction} (parts : Parts update)
    (tx : UnifiedTx) : Prop where
  header : Transports.OfGrpc.Header parts.header tx.message.header
  messageInstructions : List.Forall₂ (fun given ix => Byte given.programIdIndex ix.programIdIndex)
    parts.message.instructions tx.message.instructions
  instructions : List.Forall₂ (fun given ix => Byte given.programIdIndex ix.programIdIndex)
    parts.message.instructions tx.instructions
  innerInstructions : ∃ records, tx.metadata.innerInstructions = .ofList records ∧
    List.Forall₂ Transports.OfGrpc.InnerGroup parts.recorded.innerInstructions records
  preTokenBalances :
    List.Forall₂ BalanceNumbers parts.recorded.preTokenBalances tx.metadata.preTokenBalances
  postTokenBalances :
    List.Forall₂ BalanceNumbers parts.recorded.postTokenBalances tx.metadata.postTokenBalances

/-- The conversion does not crash, and what it returns has the numbers of the update and has
its signers. -/
structure Sound (codecs : GrpcCodecs) (update : Proto.SubscribeUpdateTransaction) : Prop where
  completes : Grpc.unifiedTx codecs update ≠ .panic
  numbers : ∀ tx, Grpc.unifiedTx codecs update = .ok tx →
    ∃ parts : Parts update, SameNumbers parts tx
  signers : ∀ tx, Grpc.unifiedTx codecs update = .ok tx →
    (tx.signers : Outcome GrpcConvertError (List Pubkey)) ≠ .panic

/-- A well-formed transaction that comes with metadata is signed; and where the metadata are
well formed too, there is a key for each signature that is asked for. -/
def Signed (codecs : GrpcCodecs) (update : Proto.SubscribeUpdateTransaction) : Prop :=
  ∀ parts : Parts update, parts.transaction.WellFormed →
    parts.transaction.signatures ≠ [] ∧
      (parts.recorded.WellFormed codecs →
        parts.header.numRequiredSignatures.toNat ≤ parts.message.accountKeys.length)

/-! ## Reading a list -/

/-- A list is read exactly when each of its elements is. -/
theorem mapM_ok_iff {α β ε : Type} (read : α → Except ε β) (rendered : List α)
    (values : List β) :
    rendered.mapM read = .ok values ↔
      List.Forall₂ (fun element value => read element = .ok value) rendered values := by
  refine ⟨?_, Transports.mapM_forall₂ read rendered values⟩
  induction rendered generalizing values with
  | nil =>
    intro completed
    obtain rfl := Except.ok.inj completed
    exact .nil
  | cons head tail inductionHypothesis =>
    intro completed
    simp only [List.mapM_cons, exceptBind_ok_iff] at completed
    obtain ⟨value, atHead, others, inTail, same⟩ := completed
    obtain rfl := Except.ok.inj same
    exact .cons atHead (inductionHypothesis others inTail)

/-- A list can be read exactly when each of its elements can. -/
theorem mapM_succeeds_iff {α β ε : Type} (read : α → Except ε β) (rendered : List α) :
    (∃ values, rendered.mapM read = .ok values) ↔
      ∀ element ∈ rendered, ∃ value, read element = .ok value := by
  simp only [mapM_ok_iff]
  induction rendered with
  | nil => exact ⟨fun _ => by simp, fun _ => ⟨[], .nil⟩⟩
  | cons head tail inductionHypothesis =>
    rw [List.forall_mem_cons, ← inductionHypothesis]
    constructor
    · rintro ⟨_, pairs⟩
      cases pairs with
      | cons atHead inTail => exact ⟨⟨_, atHead⟩, _, inTail⟩
    · rintro ⟨⟨value, atHead⟩, others, inTail⟩
      exact ⟨value :: others, .cons atHead inTail⟩

/-! ## Numbers and keys -/

/-- A narrowed number is the number, not its low byte. -/
theorem tryU8_ok_iff (error : String) (given : UInt32) (value : UInt8) :
    Geyser.tryU8 error given = .ok value ↔ Byte given value := by
  refine ⟨?_, Transports.OfGrpc.byte_read error given value⟩
  intro narrowed
  by_cases small : given.toNat < 256
  · rw [Geyser.tryU8, if_pos small] at narrowed
    obtain rfl := Except.ok.inj narrowed
    rw [Byte, UInt8.toNat_ofNat', Nat.mod_eq_of_lt small]
  · simp [Geyser.tryU8, small] at narrowed

/-- A number is narrowed exactly when one byte holds it. -/
theorem tryU8_succeeds_iff (error : String) (given : UInt32) :
    (∃ value, Geyser.tryU8 error given = .ok value) ↔ Proto.OneByte given := by
  by_cases small : given.toNat < 256 <;> simp [Geyser.tryU8, Proto.OneByte, small]

/-- Bytes are a key exactly when there are as many as a key has. -/
theorem tryPubkey_succeeds_iff (error : String) (bytes : Bytes) :
    (∃ key, Geyser.tryPubkey error bytes = .ok key) ↔ Proto.KeySized bytes := by
  by_cases sized : bytes.length = 32 <;> simp [Geyser.tryPubkey, Proto.KeySized, sized]

/-- Keys are read exactly when each has its size. -/
theorem createPubkeyVec_succeeds_iff (pubkeys : List Bytes) :
    (∃ keys, Geyser.createPubkeyVec pubkeys = .ok keys) ↔
      ∀ key ∈ pubkeys, Proto.KeySized key := by
  simp only [Geyser.createPubkeyVec, mapM_succeeds_iff, Geyser.createPubkey,
    tryPubkey_succeeds_iff]

/-- As many keys are read as there are. -/
theorem createPubkeyVec_length (pubkeys : List Bytes) (keys : List Pubkey)
    (read : Geyser.createPubkeyVec pubkeys = .ok keys) : keys.length = pubkeys.length :=
  ((mapM_ok_iff _ _ _).mp read).length_eq.symm

/-- A part that has to be there is read exactly when it is. -/
theorem required_ok_iff {α : Type} (error : String) (found : Option α) (value : α) :
    Geyser.required error found = .ok value ↔ found = some value := by
  cases found <;> simp [Geyser.required]

/-! ## The message -/

/-- A header is read with the numbers it has. -/
theorem createHeader_numbers (given : Proto.MessageHeader) (header : MessageHeader)
    (read : Geyser.createHeader given = .ok header) : Transports.OfGrpc.Header given header := by
  simp only [Geyser.createHeader, exceptBind_ok_iff, tryU8_ok_iff] at read
  obtain ⟨_, signatures, _, signed, _, unsigned, same⟩ := read
  obtain rfl := Except.ok.inj same
  exact ⟨signatures, signed, unsigned⟩

/-- A header is read exactly when its numbers are small. -/
theorem createHeader_succeeds_iff (given : Proto.MessageHeader) :
    (∃ header, Geyser.createHeader given = .ok header) ↔ given.Narrow := by
  simp only [Geyser.createHeader, exceptBind_succeeds_iff, tryU8_succeeds_iff, exists_and_right,
    exists_ok, and_true]
  constructor
  · rintro ⟨signatures, signed, unsigned⟩
    exact ⟨signatures, signed, unsigned⟩
  · rintro ⟨signatures, signed, unsigned⟩
    exact ⟨signatures, signed, unsigned⟩

/-- The instructions are read exactly when the indices of their programs are small. -/
theorem createMessageInstructions_succeeds_iff (ixs : List Proto.CompiledInstruction) :
    (∃ converted, Geyser.createMessageInstructions ixs = .ok converted) ↔
      ∀ ix ∈ ixs, Proto.OneByte ix.programIdIndex := by
  simp only [Geyser.createMessageInstructions, mapM_succeeds_iff, Geyser.createMessageInstruction,
    exceptBind_succeeds_iff, Geyser.programIdIndex, tryU8_succeeds_iff, exists_ok, and_true]

/-- The instructions are read with the indices they have. -/
theorem createMessageInstructions_numbers (ixs : List Proto.CompiledInstruction)
    (converted : List CompiledInstruction)
    (read : Geyser.createMessageInstructions ixs = .ok converted) :
    List.Forall₂ (fun given ix => Byte given.programIdIndex ix.programIdIndex) ixs converted := by
  refine ((mapM_ok_iff _ _ _).mp read).imp ?_
  intro given ix atIx
  simp only [Geyser.createMessageInstruction, exceptBind_ok_iff, Geyser.programIdIndex,
    tryU8_ok_iff] at atIx
  obtain ⟨index, narrowed, same⟩ := atIx
  obtain rfl := Except.ok.inj same
  exact narrowed

/-- A lookup is read exactly when its key has the size of one. -/
theorem createLookup_succeeds_iff (table : Proto.MessageAddressTableLookup) :
    (∃ lookup, Geyser.createLookup table = .ok lookup) ↔ Proto.KeySized table.accountKey := by
  simp only [Geyser.createLookup, exceptBind_succeeds_iff, Geyser.createPubkey,
    tryPubkey_succeeds_iff, exists_ok, and_true]

/-- The part that both kinds of message have is read exactly when its keys and its instructions
are. -/
theorem createBody_succeeds_iff (header : MessageHeader) (message : Proto.Message) :
    (∃ body, Geyser.createBody header message = .ok body) ↔
      (∀ key ∈ message.accountKeys, Proto.KeySized key) ∧
        ∀ ix ∈ message.instructions, Proto.OneByte ix.programIdIndex := by
  simp only [Geyser.createBody, exceptBind_succeeds_iff, createPubkeyVec_succeeds_iff,
    createMessageInstructions_succeeds_iff, exists_and_right, exists_ok, and_true]

/-- A message is read exactly when it is well formed. -/
theorem createMessage_succeeds_iff (message : Proto.Message) :
    (∃ converted, Geyser.createMessage message = .ok converted) ↔ message.WellFormed := by
  by_cases hash : message.recentBlockhash.length = 32
  · cases versioned : message.versioned with
    | false =>
      simp only [Geyser.createMessage, exceptBind_succeeds_iff, required_ok_iff, hash, versioned,
        ne_eq, not_true_eq_false, Bool.false_eq_true, if_false, createBody_succeeds_iff,
        exists_and_right, exists_ok, and_true, createHeader_succeeds_iff]
      constructor
      · rintro ⟨header, present, narrow, keys, ixs⟩
        exact ⟨⟨header, present, narrow⟩, keys, hash, ixs, by simp [versioned]⟩
      · rintro ⟨⟨header, present, narrow⟩, keys, _, ixs, _⟩
        exact ⟨header, present, narrow, keys, ixs⟩
    | true =>
      simp only [Geyser.createMessage, exceptBind_succeeds_iff, required_ok_iff, hash, versioned,
        ne_eq, not_true_eq_false, if_false, if_true, mapM_succeeds_iff, createLookup_succeeds_iff,
        createBody_succeeds_iff, exists_and_right, exists_ok, and_true,
        createHeader_succeeds_iff]
      constructor
      · rintro ⟨header, present, narrow, lookups, keys, ixs⟩
        exact ⟨⟨header, present, narrow⟩, keys, hash, ixs, fun _ => lookups⟩
      · rintro ⟨⟨header, present, narrow⟩, keys, _, ixs, lookups⟩
        exact ⟨header, present, narrow, lookups versioned, keys, ixs⟩
  · constructor
    · simp [Geyser.createMessage, exceptBind_succeeds_iff, hash]
    · intro wellFormed
      exact absurd wellFormed.recentBlockhash hash

/-- A converted message has the header, the keys and the instructions of the one it is
converted from. -/
theorem createMessage_numbers (message : Proto.Message) (converted : VersionedMessage)
    (read : Geyser.createMessage message = .ok converted) :
    (∃ given, message.header = some given ∧
      Transports.OfGrpc.Header given converted.header) ∧
    converted.staticAccountKeys.length = message.accountKeys.length ∧
    List.Forall₂ (fun given ix => Byte given.programIdIndex ix.programIdIndex)
      message.instructions converted.instructions := by
  simp only [Geyser.createMessage, exceptBind_ok_iff, required_ok_iff] at read
  obtain ⟨given, present, header, readHeader, read⟩ := read
  have ofBody (body : MessageBody) (readBody : Geyser.createBody header message = .ok body) :
      body.header = header ∧ body.accountKeys.length = message.accountKeys.length ∧
        List.Forall₂ (fun given ix => Byte given.programIdIndex ix.programIdIndex)
          message.instructions body.instructions := by
    simp only [Geyser.createBody, exceptBind_ok_iff] at readBody
    obtain ⟨keys, readKeys, ixs, readIxs, same⟩ := readBody
    obtain rfl := Except.ok.inj same
    exact ⟨rfl, createPubkeyVec_length _ _ readKeys, createMessageInstructions_numbers _ _ readIxs⟩
  have numbers := createHeader_numbers given header readHeader
  split at read
  · simp at read
  · split at read
    · simp only [exceptBind_ok_iff] at read
      obtain ⟨lookups, _, body, readBody, same⟩ := read
      obtain rfl := Except.ok.inj same
      obtain ⟨rfl, keys, ixs⟩ := ofBody body readBody
      exact ⟨⟨given, present, numbers⟩, keys, ixs⟩
    · simp only [exceptBind_ok_iff] at read
      obtain ⟨body, readBody, same⟩ := read
      obtain rfl := Except.ok.inj same
      obtain ⟨rfl, keys, ixs⟩ := ofBody body readBody
      exact ⟨⟨given, present, numbers⟩, keys, ixs⟩

/-- A signature is read exactly when it has its size. -/
theorem trySignature_succeeds_iff (bytes : Bytes) :
    (∃ signature, Geyser.trySignature bytes = .ok signature) ↔ bytes.length = 64 := by
  by_cases sized : bytes.length = 64 <;> simp [Geyser.trySignature, sized]

/-- A transaction is read exactly when it is well formed. -/
theorem createTxVersioned_succeeds_iff (given : Proto.Transaction) :
    (∃ transaction, Geyser.createTxVersioned given = .ok transaction) ↔ given.WellFormed := by
  simp only [Geyser.createTxVersioned, exceptBind_succeeds_iff, mapM_succeeds_iff,
    trySignature_succeeds_iff, required_ok_iff, createMessage_succeeds_iff, exists_and_right,
    exists_ok, and_true]
  constructor
  · rintro ⟨signatures, message⟩
    exact ⟨signatures, message⟩
  · rintro ⟨signatures, message⟩
    exact ⟨signatures, message⟩

/-- A transaction is read with all its signatures and with its message. -/
theorem createTxVersioned_parts (given : Proto.Transaction) (transaction : VersionedTransaction)
    (read : Geyser.createTxVersioned given = .ok transaction) :
    transaction.signatures.length = given.signatures.length ∧
      ∃ message, given.message = some message ∧
        Geyser.createMessage message = .ok transaction.message := by
  simp only [Geyser.createTxVersioned, exceptBind_ok_iff, required_ok_iff, mapM_ok_iff]
    at read
  obtain ⟨signatures, readSignatures, message, present, converted, readMessage, same⟩ := read
  obtain rfl := Except.ok.inj same
  exact ⟨readSignatures.length_eq.symm, message, present, readMessage⟩

/-- A transaction has signatures after it is read if it had them before. -/
theorem createTxVersioned_unsigned_iff (given : Proto.Transaction)
    (transaction : VersionedTransaction)
    (read : Geyser.createTxVersioned given = .ok transaction) :
    transaction.signatures = [] ↔ given.signatures = [] := by
  rw [← List.length_eq_zero_iff, (createTxVersioned_parts given transaction read).1,
    List.length_eq_zero_iff]

/-! ## The metadata -/

/-- The inner instructions of a root instruction are read exactly when their indices are
small. -/
theorem createMetaInnerInstruction_succeeds_iff (inner : Proto.InnerInstructions) :
    (∃ record, Geyser.createMetaInnerInstruction inner = .ok record) ↔ inner.Narrow := by
  simp only [Geyser.createMetaInnerInstruction, exceptBind_succeeds_iff, mapM_succeeds_iff,
    Geyser.createInnerInstruction, Geyser.programIdIndex, tryU8_succeeds_iff, exists_and_right,
    exists_ok, and_true]
  constructor
  · rintro ⟨ixs, index⟩
    exact ⟨index, ixs⟩
  · rintro ⟨index, ixs⟩
    exact ⟨ixs, index⟩

/-- They are read as they are, under the index they have. -/
theorem createMetaInnerInstruction_numbers (inner : Proto.InnerInstructions)
    (record : InnerRecord) (read : Geyser.createMetaInnerInstruction inner = .ok record) :
    Transports.OfGrpc.InnerGroup inner record := by
  simp only [Geyser.createMetaInnerInstruction, exceptBind_ok_iff, tryU8_ok_iff,
    mapM_ok_iff] at read
  obtain ⟨ixs, readIxs, index, narrowed, same⟩ := read
  obtain rfl := Except.ok.inj same
  refine ⟨narrowed, readIxs.imp ?_⟩
  intro given ix atIx
  simp only [Geyser.createInnerInstruction, exceptBind_ok_iff, Geyser.programIdIndex,
    tryU8_ok_iff] at atIx
  obtain ⟨programIdIndex, narrowedIndex, sameIx⟩ := atIx
  obtain rfl := Except.ok.inj sameIx
  exact ⟨narrowedIndex, rfl, rfl, rfl⟩

/-- A token balance is read exactly when it is well formed. -/
theorem createTokenBalance_succeeds_iff (given : Proto.TokenBalance) :
    (∃ balance, Geyser.createTokenBalance given = .ok balance) ↔ given.WellFormed := by
  simp only [Geyser.createTokenBalance, exceptBind_succeeds_iff, required_ok_iff,
    tryU8_succeeds_iff, exists_and_right, exists_ok, and_true]
  constructor
  · rintro ⟨shown, present, accountIndex, decimals⟩
    exact ⟨accountIndex, shown, present, decimals⟩
  · rintro ⟨accountIndex, shown, present, decimals⟩
    exact ⟨shown, present, accountIndex, decimals⟩

/-- The token balances are read with the numbers they have. -/
theorem createTokenBalances_numbers (given : List Proto.TokenBalance)
    (balances : List TransactionTokenBalance)
    (read : Geyser.createTokenBalances given = .ok balances) :
    List.Forall₂ BalanceNumbers given balances := by
  refine ((mapM_ok_iff _ _ _).mp read).imp ?_
  intro balance converted atBalance
  simp only [Geyser.createTokenBalance, exceptBind_ok_iff, required_ok_iff, tryU8_ok_iff]
    at atBalance
  obtain ⟨shown, present, accountIndex, narrowIndex, decimals, narrowDecimals, same⟩ := atBalance
  obtain rfl := Except.ok.inj same
  exact ⟨narrowIndex, shown, present, narrowDecimals, rfl, rfl⟩

/-- A reward is read exactly when it is well formed. -/
theorem createReward_succeeds_iff (codecs : GrpcCodecs) (given : Proto.Reward) :
    (∃ reward, Geyser.createReward codecs given = .ok reward) ↔ given.WellFormed codecs := by
  have commission : (∃ read, Geyser.createCommission given.commission = .ok read) ↔
      given.commission = "" ∨
        ∃ commission, Numerals.parseU8 given.commission = some commission := by
    by_cases empty : given.commission = ""
    · simp [Geyser.createCommission, empty]
    · cases parsed : Numerals.parseU8 given.commission <;>
        simp [Geyser.createCommission, empty, parsed, Geyser.required, Except.map]
  simp only [Geyser.createReward, exceptBind_succeeds_iff, required_ok_iff, commission,
    exists_and_right, exists_ok, and_true]
  constructor
  · rintro ⟨kind, commission⟩
    exact ⟨kind, commission⟩
  · rintro ⟨kind, commission⟩
    exact ⟨kind, commission⟩

/-- The error with which the transaction ended is read exactly when it can be decoded. -/
theorem createTxError_succeeds_iff (codecs : GrpcCodecs) (err : Option Bytes) :
    (∃ read, Geyser.createTxError codecs err = .ok read) ↔
      ∀ bytes, err = some bytes → ∃ error, codecs.decodeTxError bytes = some error := by
  cases err with
  | none => simp [Geyser.createTxError]
  | some bytes =>
    cases decoded : codecs.decodeTxError bytes <;>
      simp [Geyser.createTxError, decoded, Geyser.required, Except.map]

/-- The return data are read exactly when they are missing as announced or have a program. -/
theorem createReturnData_succeeds_iff (recorded : Proto.TransactionStatusMeta) :
    (∃ read, Geyser.createReturnData recorded = .ok read) ↔
      (recorded.returnDataNone = false →
        ∃ data, recorded.returnData = some data ∧ Proto.KeySized data.programId) := by
  cases announced : recorded.returnDataNone with
  | true => simp [Geyser.createReturnData, announced]
  | false =>
    simp only [Geyser.createReturnData, announced, Bool.false_eq_true, if_false,
      exceptBind_succeeds_iff, required_ok_iff, tryPubkey_succeeds_iff, exists_ok, and_true,
      forall_const]

/-- The metadata are read exactly when they are well formed. -/
theorem createTxMeta_succeeds_iff (codecs : GrpcCodecs) (recorded : Proto.TransactionStatusMeta) :
    (∃ converted, Geyser.createTxMeta codecs recorded = .ok converted) ↔
      recorded.WellFormed codecs := by
  simp only [Geyser.createTxMeta, Geyser.createTokenBalances, Geyser.createLoadedAddresses,
    exceptBind_succeeds_iff, mapM_succeeds_iff, createTxError_succeeds_iff,
    createReward_succeeds_iff, createMetaInnerInstruction_succeeds_iff,
    createTokenBalance_succeeds_iff, createPubkeyVec_succeeds_iff, createReturnData_succeeds_iff,
    exists_and_right, exists_ok, and_true]
  constructor
  · rintro ⟨err, rewards, inner, pre, post, ⟨writable, readonly⟩, returnData⟩
    exact ⟨err, rewards, inner, pre, post, writable, readonly, returnData⟩
  · rintro ⟨err, rewards, inner, pre, post, writable, readonly, returnData⟩
    exact ⟨err, rewards, inner, pre, post, ⟨writable, readonly⟩, returnData⟩

/-- The metadata are read with the numbers they have. -/
theorem createTxMeta_numbers (codecs : GrpcCodecs) (recorded : Proto.TransactionStatusMeta)
    (converted : TransactionStatusMeta)
    (read : Geyser.createTxMeta codecs recorded = .ok converted) :
    List.Forall₂ Transports.OfGrpc.InnerGroup recorded.innerInstructions
        converted.innerInstructions ∧
      List.Forall₂ BalanceNumbers recorded.preTokenBalances converted.preTokenBalances ∧
      List.Forall₂ BalanceNumbers recorded.postTokenBalances converted.postTokenBalances := by
  simp only [Geyser.createTxMeta, exceptBind_ok_iff] at read
  obtain ⟨_, _, _, _, inner, readInner, pre, readPre, post, readPost, _, _, _, _, same⟩ := read
  obtain rfl := Except.ok.inj same
  refine ⟨((mapM_ok_iff _ _ _).mp readInner).imp ?_, createTokenBalances_numbers _ _ readPre,
    createTokenBalances_numbers _ _ readPost⟩
  exact createMetaInnerInstruction_numbers

/-! ## The update -/

/-- The signers can be had exactly when there are as many keys. -/
theorem signers_ne_panic_iff {ε : Type} (tx : UnifiedTx) :
    (tx.signers : Outcome ε (List Pubkey)) ≠ .panic ↔
      tx.message.header.numRequiredSignatures.toNat ≤ tx.message.staticAccountKeys.length := by
  by_cases enough :
      tx.message.header.numRequiredSignatures.toNat ≤ tx.message.staticAccountKeys.length <;>
    simp [UnifiedTx.signers, enough]

/-- There is no first signature exactly when there are no signatures. -/
theorem firstSignature_panic_iff {ε : Type} (transaction : VersionedTransaction) :
    (transaction.firstSignature : Outcome ε Signature) = .panic ↔ transaction.signatures = [] := by
  cases signatures : transaction.signatures <;>
    simp [VersionedTransaction.firstSignature, signatures]

/-- A well-formed transaction has a message with a header. -/
theorem parts_of_wellFormed (update : Proto.SubscribeUpdateTransaction)
    (info : Proto.SubscribeUpdateTransactionInfo) (given : Proto.Transaction)
    (recorded : Proto.TransactionStatusMeta) (hasInfo : update.transaction = some info)
    (hasGiven : info.transaction = some given) (hasRecorded : info.metadata = some recorded)
    (wellFormed : given.WellFormed) :
    ∃ parts : Parts update, parts.transaction = given ∧ parts.recorded = recorded := by
  obtain ⟨message, hasMessage, messageWellFormed⟩ := wellFormed.message
  obtain ⟨header, hasHeader, _⟩ := messageWellFormed.header
  exact ⟨⟨info, given, message, header, recorded, hasInfo, hasGiven, hasMessage, hasHeader,
    hasRecorded⟩, rfl, rfl⟩

/-- The conversion crashes exactly on a well-formed transaction without signatures that comes
with metadata, well formed or not. -/
theorem unifiedTx_panic_iff (codecs : GrpcCodecs) (update : Proto.SubscribeUpdateTransaction) :
    Grpc.unifiedTx codecs update = .panic ↔
      ∃ parts : Parts update,
        parts.transaction.WellFormed ∧ parts.transaction.signatures = [] := by
  simp only [Grpc.unifiedTx, Outcome.bind_panic_iff, Outcome.okOr_ne_panic, Outcome.okOr_eq_ok,
    Outcome.mapError_eq_panic, Outcome.ofExcept_ne_panic, Outcome.mapError_eq_ok,
    Outcome.ofExcept_eq_ok, false_or, Outcome.pure_eq, reduceCtorEq, and_false, exists_false,
    or_false, firstSignature_panic_iff]
  constructor
  · rintro ⟨info, hasInfo, given, hasGiven, recorded, hasRecorded, transaction, read, unsigned⟩
    have wellFormed := (createTxVersioned_succeeds_iff given).mp ⟨transaction, read⟩
    obtain ⟨parts, rfl, _⟩ :=
      parts_of_wellFormed update info given recorded hasInfo hasGiven hasRecorded wellFormed
    exact ⟨parts, wellFormed, (createTxVersioned_unsigned_iff _ transaction read).mp unsigned⟩
  · rintro ⟨parts, wellFormed, unsigned⟩
    obtain ⟨transaction, read⟩ := (createTxVersioned_succeeds_iff _).mpr wellFormed
    exact ⟨parts.info, parts.hasInfo, _, parts.hasTransaction, _, parts.hasRecorded,
      transaction, read, (createTxVersioned_unsigned_iff _ transaction read).mpr unsigned⟩

/-- A converted update is well formed; the transaction has its keys and its numbers. -/
theorem unifiedTx_converted (codecs : GrpcCodecs) (update : Proto.SubscribeUpdateTransaction)
    (tx : UnifiedTx) (returned : Grpc.unifiedTx codecs update = .ok tx) :
    ∃ parts : Parts update, parts.transaction.WellFormed ∧ parts.recorded.WellFormed codecs ∧
      tx.message.staticAccountKeys.length = parts.message.accountKeys.length ∧
      SameNumbers parts tx := by
  simp only [Grpc.unifiedTx, Outcome.bind_ok_iff, Outcome.okOr_eq_ok, Outcome.mapError_eq_ok,
    Outcome.ofExcept_eq_ok] at returned
  obtain ⟨info, hasInfo, given, hasGiven, recorded, hasRecorded, transaction, read, signature,
    _, converted, readMetadata, same⟩ := returned
  obtain rfl := Outcome.ok.inj same
  obtain ⟨_, message, hasMessage, readMessage⟩ := createTxVersioned_parts given transaction read
  obtain ⟨⟨header, hasHeader, numbers⟩, keys, ixs⟩ := createMessage_numbers message _ readMessage
  obtain ⟨inner, pre, post⟩ := createTxMeta_numbers codecs recorded converted readMetadata
  exact ⟨⟨info, given, message, header, recorded, hasInfo, hasGiven, hasMessage, hasHeader,
      hasRecorded⟩, (createTxVersioned_succeeds_iff given).mp ⟨_, read⟩,
    (createTxMeta_succeeds_iff codecs recorded).mp ⟨_, readMetadata⟩, keys,
    numbers, ixs, ixs, ⟨_, rfl, inner⟩, pre, post⟩

/-- A well-formed update with a signature is converted. -/
theorem unifiedTx_of_wellFormed (codecs : GrpcCodecs) (update : Proto.SubscribeUpdateTransaction)
    (parts : Parts update) (wellFormed : parts.transaction.WellFormed)
    (signed : parts.transaction.signatures ≠ [])
    (recordedWellFormed : parts.recorded.WellFormed codecs) :
    ∃ tx, Grpc.unifiedTx codecs update = .ok tx := by
  obtain ⟨transaction, read⟩ := (createTxVersioned_succeeds_iff _).mpr wellFormed
  obtain ⟨converted, readMetadata⟩ := (createTxMeta_succeeds_iff codecs _).mpr recordedWellFormed
  cases signatures : transaction.signatures with
  | nil =>
    exact absurd ((createTxVersioned_unsigned_iff _ transaction read).mp signatures) signed
  | cons signature others =>
    simp [Grpc.unifiedTx, parts.hasInfo, parts.hasTransaction, parts.hasRecorded, read,
      readMetadata, VersionedTransaction.firstSignature, signatures]

/-- An update has its parts only once. -/
theorem Parts.unique {update : Proto.SubscribeUpdateTransaction} (first second : Parts update) :
    first = second := by
  obtain ⟨_, _, _, _, _, hasInfo, hasTransaction, hasMessage, hasHeader, hasRecorded⟩ := first
  obtain ⟨_, _, _, _, _, sameInfo, sameTransaction, sameMessage, sameHeader, sameRecorded⟩ :=
    second
  obtain rfl := Option.some.inj (hasInfo.symm.trans sameInfo)
  obtain rfl := Option.some.inj (hasTransaction.symm.trans sameTransaction)
  obtain rfl := Option.some.inj (hasMessage.symm.trans sameMessage)
  obtain rfl := Option.some.inj (hasHeader.symm.trans sameHeader)
  obtain rfl := Option.some.inj (hasRecorded.symm.trans sameRecorded)
  rfl

/-- A converted update has signers exactly when it has a key for each signature that is asked
for. -/
theorem converted_signers_iff (codecs : GrpcCodecs) (update : Proto.SubscribeUpdateTransaction)
    (tx : UnifiedTx) (parts : Parts update) (returned : Grpc.unifiedTx codecs update = .ok tx) :
    (tx.signers : Outcome GrpcConvertError (List Pubkey)) ≠ .panic ↔
      parts.header.numRequiredSignatures.toNat ≤ parts.message.accountKeys.length := by
  obtain ⟨same, _, _, keys, numbers⟩ := unifiedTx_converted codecs update tx returned
  obtain rfl := Parts.unique same parts
  rw [signers_ne_panic_iff, keys, ← numbers.header.numRequiredSignatures]

/-- The conversion never crashes, keeps every number and returns a transaction with its signers
exactly when the signatures that it and its result count on are there. -/
theorem conversion_sound_iff (codecs : GrpcCodecs) (update : Proto.SubscribeUpdateTransaction) :
    Sound codecs update ↔ Signed codecs update := by
  constructor
  · intro sound parts wellFormed
    have signed : parts.transaction.signatures ≠ [] := fun unsigned => sound.completes
      ((unifiedTx_panic_iff codecs update).mpr ⟨parts, wellFormed, unsigned⟩)
    refine ⟨signed, fun recordedWellFormed => ?_⟩
    obtain ⟨tx, returned⟩ :=
      unifiedTx_of_wellFormed codecs update parts wellFormed signed recordedWellFormed
    exact (converted_signers_iff codecs update tx parts returned).mp (sound.signers tx returned)
  · intro signed
    refine ⟨?_, ?_, ?_⟩
    · intro crashes
      obtain ⟨parts, wellFormed, unsigned⟩ := (unifiedTx_panic_iff codecs update).mp crashes
      exact (signed parts wellFormed).1 unsigned
    · intro tx returned
      obtain ⟨parts, _, _, _, numbers⟩ := unifiedTx_converted codecs update tx returned
      exact ⟨parts, numbers⟩
    · intro tx returned
      obtain ⟨parts, wellFormed, recorded, _, _⟩ := unifiedTx_converted codecs update tx returned
      exact (converted_signers_iff codecs update tx parts returned).mpr
        ((signed parts wellFormed).2 recorded)

/-! ## Two updates -/

/-- An update with these signatures that asks for some number of them, without any key or
instruction. -/
def bareUpdate (signatures : List Bytes) (required : UInt32) :
    Proto.SubscribeUpdateTransaction where
  slot := 9
  transaction := some {
    isVote := false
    transaction := some ⟨signatures, some {
      header := some ⟨required, 0, 0⟩
      accountKeys := []
      recentBlockhash := List.replicate 32 1
      instructions := []
      versioned := false
      addressTableLookups := [] }⟩
    metadata := some {
      err := none
      fee := 5
      preBalances := []
      postBalances := []
      innerInstructions := []
      logMessages := []
      preTokenBalances := []
      postTokenBalances := []
      rewards := []
      loadedWritableAddresses := []
      loadedReadonlyAddresses := []
      returnDataNone := true
      returnData := none
      computeUnitsConsumed := none
      costUnits := none } }

/-- Without a signature the conversion crashes; with one, it succeeds though five signers are
asked for, and asking for them crashes. -/
theorem unsigned_updates_crash :
    Grpc.unifiedTx Transports.lookupGrpcCodecs (bareUpdate [] 0) = .panic ∧
    (∃ tx, Grpc.unifiedTx Transports.lookupGrpcCodecs
        (bareUpdate [List.replicate 64 7] 5) = .ok tx ∧
      (tx.signers : Outcome GrpcConvertError (List Pubkey)) = .panic) ∧
    ¬ Sound Transports.lookupGrpcCodecs (bareUpdate [] 0) ∧
    ¬ Sound Transports.lookupGrpcCodecs (bareUpdate [List.replicate 64 7] 5) := by
  have crashes : Grpc.unifiedTx Transports.lookupGrpcCodecs (bareUpdate [] 0) = .panic := rfl
  obtain ⟨tx, returned, signers⟩ : ∃ tx, Grpc.unifiedTx Transports.lookupGrpcCodecs
      (bareUpdate [List.replicate 64 7] 5) = .ok tx ∧
      (tx.signers : Outcome GrpcConvertError (List Pubkey)) = .panic := ⟨_, rfl, rfl⟩
  exact ⟨crashes, ⟨tx, returned, signers⟩, fun sound => sound.completes crashes,
    fun sound => sound.signers tx returned signers⟩

end StreamIntake

end Graced
