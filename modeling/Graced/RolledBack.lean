import Graced.BalanceDiff
import Graced.Grpc
import Graced.RouteRecords

/-!
# Transactions that were rolled back

Both conversions keep the error with which a transaction ended, and the detector that works
on balances refuses such a transaction. The parsers do not look at the error: a transaction
that was rolled back is parsed like any other, and a swap that its instructions describe is
reported.
-/

namespace Graced.RolledBack

/-- Why a transaction was not converted, over either transport. -/
inductive TransportError where
  | rpc (error : RpcConvertError)
  | grpc (error : GrpcConvertError)
deriving DecidableEq, Repr

/-- `ParseTxError` -/
inductive ParseTxError where
  | convert (error : TransportError)
  | ix (error : WithTrace)
deriving DecidableEq, Repr

/-- `parse_transaction` on what a conversion returned. -/
def parseConverted (env : Env) (converted : Outcome TransportError UnifiedTx) :
    Outcome ParseTxError (List Parsed) := do
  let tx ← converted.mapError .convert
  (parseTransaction env tx.toSolanaTx).mapError .ix

/-- What the conversion of a transaction that was recorded with an error returns. -/
inductive Failed (rpcCodecs : RpcCodecs) (grpcCodecs : GrpcCodecs) :
    Outcome TransportError UnifiedTx → Prop where
  | rpc (value : EncodedConfirmedTransactionWithStatusMeta) (rendered : UiTransactionStatusMeta)
      (error : TransactionError) (recorded : value.transaction.metadata = some rendered)
      (err : rendered.err = some error) (status : rendered.status = .error error) :
      Failed rpcCodecs grpcCodecs ((Rpc.tryFrom rpcCodecs value).mapError .rpc)
  | grpc (update : Proto.SubscribeUpdateTransaction) (info : Proto.SubscribeUpdateTransactionInfo)
      (rendered : Proto.TransactionStatusMeta) (error : Bytes)
      (delivered : update.transaction = some info) (recorded : info.metadata = some rendered)
      (err : rendered.err = some error) :
      Failed rpcCodecs grpcCodecs ((Grpc.unifiedTx grpcCodecs update).mapError .grpc)

/-- There is a result and it names a swap, or else there is no result. -/
def NoSwap {ε : Type} (outcome : Outcome ε (List Parsed)) : Prop :=
  ∀ swaps, outcome = .ok swaps → swaps = []

/-- Some root instruction cannot be read, or none records a swap. -/
def Swapless (env : Env) (tx : SolanaTx) : Prop :=
  (∃ root ∈ tx.enumerated, ¬ RootHoldsSwap env tx root ∧ ¬ RootPasses env tx root) ∨
    ∀ root ∈ tx.enumerated, ¬ RootHoldsSwap env tx root

/-! ## The error is kept -/

/-- The RPC conversion keeps the error of the status. -/
theorem rpc_status (codecs : RpcCodecs) (value : EncodedConfirmedTransactionWithStatusMeta)
    (rendered : UiTransactionStatusMeta) (error : TransactionError) (unified : UnifiedTx)
    (recorded : value.transaction.metadata = some rendered)
    (status : rendered.status = .error error)
    (converted : Rpc.tryFrom codecs value = .ok unified) :
    unified.status.err = some error := by
  simp only [Rpc.tryFrom, Rpc.unifiedTx, recorded, Outcome.okOr_some, Outcome.ok_bind,
    Outcome.bind_ok_iff] at converted
  obtain ⟨read, metadata, transaction, _, isVote, _, signature, _, same⟩ := converted
  obtain rfl := Outcome.ok.inj same
  rw [Outcome.mapError_eq_ok, Outcome.ofExcept_eq_ok] at metadata
  simp only [Rpc.metadata, Outcome.exceptBind_ok_iff] at metadata
  obtain ⟨inner, _, loaded, _, returned, _, same⟩ := metadata
  obtain rfl := Except.ok.inj same
  simp [status, Rpc.statusError]

/-- The gRPC conversion keeps the error that it decodes. -/
theorem grpc_status (codecs : GrpcCodecs) (update : Proto.SubscribeUpdateTransaction)
    (info : Proto.SubscribeUpdateTransactionInfo) (rendered : Proto.TransactionStatusMeta)
    (error : Bytes) (unified : UnifiedTx) (delivered : update.transaction = some info)
    (recorded : info.metadata = some rendered) (err : rendered.err = some error)
    (converted : Grpc.unifiedTx codecs update = .ok unified) :
    unified.status.err = codecs.decodeTxError error ∧ unified.status.err.isSome := by
  simp only [Grpc.unifiedTx, delivered, recorded, Outcome.okOr_some, Outcome.ok_bind,
    Outcome.bind_ok_iff] at converted
  obtain ⟨given, _, transaction, _, signature, _, metadata, read, same⟩ := converted
  obtain rfl := Outcome.ok.inj same
  rw [Outcome.mapError_eq_ok, Outcome.ofExcept_eq_ok] at read
  simp only [Geyser.createTxMeta, Outcome.exceptBind_ok_iff] at read
  obtain ⟨kept, decoded, rewards, _, inner, _, pre, _, post, _, loaded, _, returned, _, same⟩ :=
    read
  obtain rfl := Except.ok.inj same
  rw [err, Geyser.createTxError] at decoded
  cases kind : codecs.decodeTxError error with
  | none => simp [kind, Geyser.required, Except.map] at decoded
  | some kind' =>
    simp only [kind, Geyser.required, Except.map] at decoded
    obtain rfl := Except.ok.inj decoded
    exact ⟨rfl, rfl⟩

/-- The detector that works on balances refuses a transaction with an error. -/
theorem detectSwaps_refuses (codecs : RpcCodecs) (profile : Profile) (orders : DiffOrders)
    (isOnCurve : Pubkey → Bool) (tx : EncodedConfirmedTransactionWithStatusMeta)
    (rendered : UiTransactionStatusMeta) (feePayer : Pubkey) (feeLamports : UInt64)
    (events : List SwapEvent) (recorded : tx.transaction.metadata = some rendered)
    (failed : rendered.err.isSome) :
    BalanceDiff.detectSwaps codecs profile orders isOnCurve tx feePayer feeLamports ≠
      .ok events := by
  intro detected
  obtain ⟨deltas, computed, _⟩ := (Outcome.bind_ok_iff _ _ _).mp detected
  simp only [BalanceDiff.computeRawDeltas, recorded, Outcome.okOr_some, Outcome.ok_bind,
    Outcome.bind_ok_iff, if_pos failed] at computed
  obtain ⟨_, _, refused⟩ := computed
  simp at refused

/-! ## The error is not looked at -/

/-- No swap is reported exactly for the transactions that are swapless. -/
theorem noSwap_iff (env : Env) (tx : SolanaTx) :
    NoSwap (parseTransaction env tx) ↔ Swapless env tx := by
  have told (root : CompiledInstruction × Nat) := told_root env tx root
  constructor
  · intro noSwap
    by_cases unread : ∃ root ∈ tx.enumerated, ¬ RootHoldsSwap env tx root ∧ ¬ RootPasses env tx root
    · exact .inl unread
    · have each (root : CompiledInstruction × Nat) (member : root ∈ tx.enumerated) :
          ∃ yielded, parseRoot env tx root = .ok yielded := by
        by_cases holds : RootHoldsSwap env tx root
        · obtain ⟨parsed, ran⟩ := (told root).shows_iff.mpr holds
          exact ⟨_, ran⟩
        · have passes : RootPasses env tx root := by_contra fun fails =>
            unread ⟨root, member, holds, fails⟩
          exact ⟨_, (told root).passes_iff.mpr passes⟩
      obtain ⟨swaps, parsed⟩ := (Outcome.collectSome_succeeds_iff _ _).mpr each
      refine .inr fun root member holds => ?_
      obtain ⟨found, ran⟩ := (told root).shows_iff.mpr holds
      have kept : found ∈ swaps := by
        rw [(Outcome.collectSome_eq_filterMap _ _ _ parsed).2]
        exact List.mem_filterMap.mpr ⟨root, member, by rw [ran]; rfl⟩
      rw [noSwap swaps parsed] at kept
      exact absurd kept List.not_mem_nil
  · rintro swapless swaps parsed
    obtain ⟨evaluated, _⟩ := Outcome.collectSome_eq_filterMap _ _ _ parsed
    rcases swapless with ⟨root, member, holdsNone, fails⟩ | without
    · obtain ⟨yielded, ran⟩ := evaluated root member
      cases yielded with
      | none => exact absurd ((told root).passes_iff.mp ran) fails
      | some found => exact absurd ((told root).shows_iff.mp ⟨found, ran⟩) holdsNone
    · apply List.eq_nil_iff_forall_not_mem.mpr
      intro swap member
      obtain ⟨root, listed, ran⟩ := Outcome.collectSome_mem _ _ swaps parsed swap member
      exact without root listed ((told root).shows_iff.mp ⟨swap, ran⟩)

/-- A conversion before the parsers changes nothing about it. -/
theorem parseConverted_noSwap_iff (env : Env) (converted : Outcome TransportError UnifiedTx) :
    NoSwap (parseConverted env converted) ↔
      ∀ unified, converted = .ok unified → Swapless env unified.toSolanaTx := by
  cases converted with
  | ok unified =>
    simp only [parseConverted, Outcome.mapError_ok, Outcome.ok_bind, NoSwap,
      Outcome.mapError_eq_ok, Outcome.ok.injEq, forall_eq']
    exact noSwap_iff env unified.toSolanaTx
  | err error => simp [parseConverted, NoSwap]
  | panic => simp [parseConverted, NoSwap]

/-- A transaction with an error keeps it over either transport, and the detector that works on
balances refuses it. The parsers report no swap for it exactly if some root instruction of it
cannot be read or none records a swap. -/
theorem failed_without_swap_iff (env : Env) (rpcCodecs : RpcCodecs) (grpcCodecs : GrpcCodecs)
    (converted : Outcome TransportError UnifiedTx)
    (failed : Failed rpcCodecs grpcCodecs converted) :
    (∀ unified, converted = .ok unified → unified.status.err.isSome) ∧
    (NoSwap (parseConverted env converted) ↔
      ∀ unified, converted = .ok unified → Swapless env unified.toSolanaTx) ∧
    ∀ value rendered, value.transaction.metadata = some rendered → rendered.err.isSome →
      ∀ profile orders isOnCurve feePayer feeLamports events,
        BalanceDiff.detectSwaps rpcCodecs profile orders isOnCurve value feePayer feeLamports ≠
          .ok events := by
  refine ⟨?_, parseConverted_noSwap_iff env converted, ?_⟩
  · intro unified same
    cases failed with
    | rpc value rendered error recorded err status =>
      rw [Outcome.mapError_eq_ok] at same
      rw [rpc_status rpcCodecs value rendered error unified recorded status same]
      rfl
    | grpc update info rendered error delivered recorded err =>
      rw [Outcome.mapError_eq_ok] at same
      exact (grpc_status grpcCodecs update info rendered error unified delivered recorded err
        same).2
  · intro value rendered recorded err profile orders isOnCurve feePayer feeLamports events
    exact detectSwaps_refuses rpcCodecs profile orders isOnCurve value rendered feePayer
      feeLamports events recorded err

/-! ## A failed trade -/

/-- A transaction with one instruction, a swap of an Orca pool, in base64. -/
def poolText : String :=
    "AQcHBwcHBwcHBwcHBwcHBwcHBwcHBwcHBwcHBwcHBwcHBwcHBwcHBwcHBwcHBwcHBwcHBwcHBwcHBwcHBwcH" ++
    "BwcBAAALAAAAAAAAAAAAAAAAAAAAAAAAAAAAAAAAAAAAAAAAAAIG3fbh12Whk9nL4UbO63msHLSF7V9bN5E6" ++
    "jPWFfv8AqQ4DaF+OkJBT5FgSHGb1p2rtx3BqoRyC+KqVKo8reHmpAAAAAAAAAAAAAAAAAAAAAAAAAAAAAAAA" ++
    "AAAAAAAAAAMAAAAAAAAAAAAAAAAAAAAAAAAAAAAAAAAAAAAAAAAABAAAAAAAAAAAAAAAAAAAAAAAAAAAAAAA" ++
    "AAAAAAAAAAAFAAAAAAAAAAAAAAAAAAAAAAAAAAAAAAAAAAAAAAAAAAYAAAAAAAAAAAAAAAAAAAAAAAAAAAAA" ++
    "AAAAAAAAAAAABwAAAAAAAAAAAAAAAAAAAAAAAAAAAAAAAAAAAAAAAAAIAAAAAAAAAAAAAAAAAAAAAAAAAAAA" ++
    "AAAAAAAAAAAAAAnU7FJUR93Tk1uK2dQZvXYXy6853mJKA287kCWC80LmoAEBAQEBAQEBAQEBAQEBAQEBAQEB" ++
    "AQEBAQEBAQEBAQEBAQIHAgADAgQCBQj4xp6R4XWHyA=="

/-- The record of a vault. -/
def vaultBalance (index : UInt8) : UiTransactionTokenBalance :=
  ⟨index, "So11111111111111111111111111111111111111112", ⟨none, 6, "0", "0"⟩, .skip,
    .some "TokenkegQfeZyiNwAJbNbGKPFXCWuBvf9Ss623VQ5DA"⟩

/-- What is recorded: both transfers of the pool were made before the transaction failed. -/
def failedRecord : UiTransactionStatusMeta where
  err := some ⟨"InstructionError"⟩
  status := .error ⟨"InstructionError"⟩
  fee := 5000
  preBalances := 1000000 :: List.replicate 10 2039280
  postBalances := 995000 :: List.replicate 10 2039280
  innerInstructions := .some [⟨0, [.compiled ⟨1, [6, 8, 4, 0], "hNmtbNYibdzwf", some 2⟩,
    .compiled ⟨1, [5, 9, 7, 3], "gjrvZQQHL8pSy", some 2⟩]⟩]
  logMessages := .none
  preTokenBalances := .some [vaultBalance 4, vaultBalance 5]
  postTokenBalances := .skip
  rewards := .skip
  loadedAddresses := .skip
  returnData := .skip
  computeUnitsConsumed := .skip
  costUnits := .skip

/-- The transaction with this record. -/
def failedTx : EncodedConfirmedTransactionWithStatusMeta :=
  ⟨9, ⟨.base64 poolText, some failedRecord, some .legacy⟩, none⟩

/-- The libraries, on these texts. -/
def failedCodecs : RpcCodecs where
  pubkeyFromStr _ := none
  decodeBase58 text :=
    if text = "hNmtbNYibdzwf" then .ok [12, 100, 0, 0, 0, 0, 0, 0, 0, 6]
    else if text = "gjrvZQQHL8pSy" then .ok [12, 50, 0, 0, 0, 0, 0, 0, 0, 6]
    else .error "InvalidCharacter"
  decodeBase64 _ := .error "InvalidByte"
  decodeTransaction encoded :=
    if encoded = .base64 poolText then
      some ⟨[⟨List.replicate 64 7⟩], .legacy ⟨⟨1, 0, 0⟩, (poolKeys .orca).staticKeys,
        ⟨List.replicate 32 1⟩, [⟨2, [2, 0, 3, 2, 4, 2, 5], Dex.swapDisc⟩]⟩⟩
    else none
  isSimpleVote _ := false

/-- The text of the transaction is decoded. -/
theorem failed_decoded : failedCodecs.decodeTransaction failedTx.transaction.transaction =
    some ⟨[⟨List.replicate 64 7⟩], .legacy ⟨⟨1, 0, 0⟩, (poolKeys .orca).staticKeys,
      ⟨List.replicate 32 1⟩, [⟨2, [2, 0, 3, 2, 4, 2, 5], Dex.swapDisc⟩]⟩⟩ := by
  simp [failedCodecs, failedTx]

/-- Nothing is delivered over the other transport. -/
def unusedCodecs : GrpcCodecs := ⟨fun _ => none, fun _ => none⟩

/-- The transaction is one that failed. -/
theorem failed_failed :
    Failed failedCodecs unusedCodecs ((Rpc.tryFrom failedCodecs failedTx).mapError .rpc) :=
  .rpc failedTx failedRecord ⟨"InstructionError"⟩ rfl rfl rfl

/-- Its swap is parsed. -/
theorem failed_parsed :
    parseConverted poolLibraries ((Rpc.tryFrom failedCodecs failedTx).mapError .rpc) =
      .ok [.dex ⟨⟨2⟩, ⟨3⟩, .orca, ⟨100, 50, ⟨8⟩, ⟨9⟩⟩⟩] := by
  rw [Rpc.tryFrom, Rpc.unifiedTx, failed_decoded]
  rfl

/-- The swap of the failed transaction is reported, and refused by the other detector. -/
theorem failed_swap_reported :
    Failed failedCodecs unusedCodecs
      ((Rpc.tryFrom failedCodecs failedTx).mapError .rpc) ∧
    parseConverted poolLibraries ((Rpc.tryFrom failedCodecs failedTx).mapError .rpc) =
      .ok [.dex ⟨⟨2⟩, ⟨3⟩, .orca, ⟨100, 50, ⟨8⟩, ⟨9⟩⟩⟩] ∧
    BalanceDiff.detectSwaps failedCodecs ⟨true⟩ default (fun _ => true) failedTx ⟨2⟩ 5000 =
      .err .transactionFailed := by
  refine ⟨failed_failed, failed_parsed, ?_⟩
  rw [BalanceDiff.detectSwaps, BalanceDiff.computeRawDeltas, failed_decoded]
  rfl

/-- It is converted with its error, and it is not swapless. -/
theorem failed_not_swapless :
    ∃ unified, Rpc.tryFrom failedCodecs failedTx = .ok unified ∧
      unified.status.err.isSome ∧ ¬ Swapless poolLibraries unified.toSolanaTx := by
  have converts : ∃ unified, Rpc.tryFrom failedCodecs failedTx = .ok unified := by
    rw [Rpc.tryFrom, Rpc.unifiedTx, failed_decoded]
    exact ⟨_, rfl⟩
  obtain ⟨unified, converted⟩ := converts
  obtain ⟨kept, reports, _⟩ := failed_without_swap_iff poolLibraries failedCodecs unusedCodecs _
    failed_failed
  have delivered : (Rpc.tryFrom failedCodecs failedTx).mapError TransportError.rpc =
      .ok unified := by rw [converted, Outcome.mapError_ok]
  refine ⟨unified, converted, kept unified delivered, ?_⟩
  intro swapless
  have noSwap := reports.mpr (fun other same =>
    Outcome.ok.inj (delivered.symm.trans same) ▸ swapless)
  simpa using noSwap _ failed_parsed

end Graced.RolledBack
