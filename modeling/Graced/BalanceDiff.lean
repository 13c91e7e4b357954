import Graced.Numerals
import Graced.Rpc
import Mathlib.Data.List.Dedup
import Mathlib.Data.List.Sort

/-!
# Swaps from balances alone

A second detector looks at no instruction. It adds up what changed for every owner and mint
between the two snapshots of the token accounts, and for every account in lamports; merges
lamports with wrapped ones; and reports every owner who lost something and gained something.

The amounts are 128-bit integers. The maps on the way are hash maps, so that the order in
which they are walked is supplied from outside.
-/

namespace Graced

/-- The mint of wrapped lamports, which stands for lamports as well. -/
def solMint : String := "So11111111111111111111111111111111111111112"

/-- `BalanceDelta`: the net change of one owner in one mint. -/
structure BalanceDelta where
  owner : Pubkey
  mint : String
  delta : Int
  decimals : UInt8
deriving DecidableEq, Repr

/-- A mint, an amount of it, and its decimals. -/
abbrev MintEntry := String × Int × UInt8

/-- `SwapEvent` -/
structure SwapEvent where
  trader : Pubkey
  sold : List MintEntry
  bought : List MintEntry
  isProgramMediated : Bool
deriving DecidableEq, Repr

/-- `TxParseError` -/
inductive TxParseError where
  | missingMeta
  | transactionFailed
  | invalidPubkey
  | failedDecodeTx
deriving DecidableEq, Repr

/-- An owner and a mint. -/
abbrev DeltaKey := Pubkey × String

/-- The changes per owner and mint. -/
abbrev Deltas := AssocMap DeltaKey BalanceDelta

/-- How the hash maps are walked. -/
structure DiffOrders where
  preIndices : IterationOrder UInt8 UiTransactionTokenBalance
  postIndices : IterationOrder UInt8 UiTransactionTokenBalance
  solKeys : IterationOrder DeltaKey BalanceDelta
  values : IterationOrder DeltaKey BalanceDelta
  owners : IterationOrder Pubkey (List BalanceDelta)

/-- Walking over every map in stored order is one way. -/
instance : Inhabited DiffOrders := ⟨⟨default, default, default, default, default⟩⟩

namespace BalanceDiff

/-- A snapshot by account index; of two entries with one index the later counts. -/
def snapshot (balances : List UiTransactionTokenBalance) :
    AssocMap UInt8 UiTransactionTokenBalance :=
  .ofList (balances.map (fun balance => (balance.accountIndex, balance)))

/-- Every account index of the two snapshots, in ascending order and once. -/
def indices (orders : DiffOrders) (pre post : AssocMap UInt8 UiTransactionTokenBalance) :
    List UInt8 :=
  (((orders.preIndices.arrange pre.entries).map Prod.fst ++
    (orders.postIndices.arrange post.entries).map Prod.fst).insertionSort (· ≤ ·)).dedup

/-- The amount of a snapshot entry. One that is missing or not a numeral counts as zero. -/
def amountOf (balance : Option UiTransactionTokenBalance) : Int :=
  (balance.bind (fun b => Numerals.parseI128 b.uiTokenAmount.amount)).getD 0

/-- What one token account contributes: its whole change, for the owner and the mint of the
later entry, or of the earlier if that is the only one. An account whose owner is not
recorded, or whose amount did not change, contributes nothing. -/
def tokenMove (codecs : RpcCodecs) (profile : Profile)
    (pre post : Option UiTransactionTokenBalance) :
    Outcome TxParseError (Option BalanceDelta) :=
  match post.or pre with
  | none => .ok none
  | some recorded =>
    match recorded.owner.toOption with
    | none => .ok none
    | some text => do
      let owner ← Outcome.okOr .invalidPubkey (codecs.pubkeyFromStr text)
      let delta ← profile.sub128 (amountOf post) (amountOf pre)
      if delta = 0 then pure none
      else pure (some ⟨owner, recorded.mint, delta, recorded.uiTokenAmount.decimals⟩)

/-- What one account contributes in lamports. -/
def lamportMove (profile : Profile) (preBalances postBalances : List UInt64)
    (account : Pubkey × Nat) : Outcome TxParseError (Option BalanceDelta) := do
  let pre := ((preBalances[account.2]?).getD 0).toNat
  let post := ((postBalances[account.2]?).getD 0).toNat
  let delta ← profile.sub128 post pre
  if delta = 0 then pure none else pure (some ⟨account.1, solMint, delta, 9⟩)

/-- Add a change to those of its owner and mint. The decimals of the first one stay. -/
def addDelta {ε : Type} (profile : Profile) (deltas : Deltas) (move : BalanceDelta) :
    Outcome ε Deltas :=
  match deltas.get (move.owner, move.mint) with
  | none => .ok (deltas.insert (move.owner, move.mint) move)
  | some known => do
    let delta ← profile.add128 known.delta move.delta
    pure (deltas.insert (move.owner, move.mint) { known with delta := delta })

/-- One pass over accounts that adds up what each contributes. -/
def addAll {A : Type} (profile : Profile)
    (move : A → Outcome TxParseError (Option BalanceDelta)) :
    List A → Deltas → Outcome TxParseError Deltas
  | [], deltas => .ok deltas
  | account :: rest, deltas => do
    match ← move account with
    | none => addAll profile move rest deltas
    | some contribution =>
      let deltas ← addDelta profile deltas contribution
      addAll profile move rest deltas

/-- `get_account_keys`: none if a loaded address cannot be read. -/
def accountKeys (codecs : RpcCodecs) (transaction : VersionedTransaction)
    (rendered : UiTransactionStatusMeta) : Option AccountKeys :=
  match Rpc.convertUiLoadedAddresses codecs rendered.loadedAddresses with
  | .ok loaded => some (.new transaction.message.staticAccountKeys loaded)
  | .error _ => none

/-- The changes in tokens. -/
def tokenDeltas (codecs : RpcCodecs) (profile : Profile) (orders : DiffOrders)
    (preToken postToken : List UiTransactionTokenBalance) : Outcome TxParseError Deltas :=
  addAll profile
    (fun index => tokenMove codecs profile ((snapshot preToken).get index)
      ((snapshot postToken).get index))
    (indices orders (snapshot preToken) (snapshot postToken)) .empty

/-- The changes in lamports, on top of those in tokens. Without account keys there are
none. -/
def lamportDeltas (profile : Profile) (preBalances postBalances : List UInt64)
    (keys : Option AccountKeys) (deltas : Deltas) : Outcome TxParseError Deltas :=
  match keys with
  | none => .ok deltas
  | some keys =>
    addAll profile (lamportMove profile preBalances postBalances) keys.iter.zipIdx deltas

/-- `compute_raw_deltas` -/
def computeRawDeltas (codecs : RpcCodecs) (profile : Profile) (orders : DiffOrders)
    (tx : EncodedConfirmedTransactionWithStatusMeta) : Outcome TxParseError Deltas := do
  let rendered ← Outcome.okOr .missingMeta tx.transaction.metadata
  let transaction ←
    Outcome.okOr .failedDecodeTx (codecs.decodeTransaction tx.transaction.transaction)
  if rendered.err.isSome then .err .transactionFailed
  else
    let deltas ← tokenDeltas codecs profile orders (rendered.preTokenBalances.toDefault [])
      (rendered.postTokenBalances.toDefault [])
    lamportDeltas profile rendered.preBalances rendered.postBalances
      (accountKeys codecs transaction rendered) deltas

/-- Give the fee back to its payer, if lamports of the payer changed. -/
def addFee {ε : Type} (profile : Profile) (feePayer : Pubkey) (feeLamports : UInt64)
    (deltas : Deltas) : Outcome ε Deltas :=
  match deltas.get (feePayer, solMint) with
  | none => .ok deltas
  | some known => do
    let delta ← profile.add128 known.delta feeLamports.toNat
    pure (deltas.insert (feePayer, solMint) { known with delta := delta })

/-- Take the changes under these keys out and add them again, as lamports of the owner. -/
def foldSol {ε : Type} (profile : Profile) : List DeltaKey → Deltas → Outcome ε Deltas
  | [], deltas => .ok deltas
  | key :: rest, deltas =>
    match deltas.get key with
    | none => foldSol profile rest deltas
    | some taken => do
      let deltas ← addDelta profile (deltas.remove key) ⟨key.1, solMint, taken.delta, 9⟩
      foldSol profile rest deltas

/-- `merge_sol_and_wsol` -/
def mergeSolAndWsol {ε : Type} (profile : Profile) (orders : DiffOrders) (feePayer : Pubkey)
    (feeLamports : UInt64) (deltas : Deltas) : Outcome ε Deltas := do
  let deltas ← addFee profile feePayer feeLamports deltas
  let keys := ((orders.solKeys.arrange deltas.entries).map Prod.fst).filter
    (fun key => key.2 = solMint)
  foldSol profile keys deltas

/-- The changes of each owner. -/
def byOwner (values : List BalanceDelta) : AssocMap Pubkey (List BalanceDelta) :=
  values.foldl (fun groups d => groups.insert d.owner ((groups.get d.owner).getD [] ++ [d])) .empty

/-- A loss, with its size. -/
def soldEntry {ε : Type} (profile : Profile) (d : BalanceDelta) : Outcome ε MintEntry := do
  let amount ← profile.neg128 d.delta
  pure (d.mint, amount, d.decimals)

/-- The event of one owner, who has to have both losses and gains. -/
def eventOf {ε : Type} (profile : Profile) (isOnCurve : Pubkey → Bool)
    (group : Pubkey × List BalanceDelta) : Outcome ε (Option SwapEvent) := do
  let sold ← Outcome.collect (soldEntry profile) (group.2.filter (fun d => d.delta < 0))
  let bought := (group.2.filter (fun d => 0 < d.delta)).map
    (fun d => (d.mint, d.delta, d.decimals))
  if sold.isEmpty ∨ bought.isEmpty then pure none
  else pure (some ⟨group.1, sold, bought, !isOnCurve group.1⟩)

/-- `cluster_into_swaps` -/
def clusterIntoSwaps {ε : Type} (profile : Profile) (orders : DiffOrders)
    (isOnCurve : Pubkey → Bool) (deltas : Deltas) : Outcome ε (List SwapEvent) :=
  Outcome.collectSome (eventOf profile isOnCurve)
    (orders.owners.arrange
      (byOwner ((orders.values.arrange deltas.entries).map Prod.snd)).entries)

/-- `detect_swaps` -/
def detectSwaps (codecs : RpcCodecs) (profile : Profile) (orders : DiffOrders)
    (isOnCurve : Pubkey → Bool) (tx : EncodedConfirmedTransactionWithStatusMeta)
    (feePayer : Pubkey) (feeLamports : UInt64) : Outcome TxParseError (List SwapEvent) := do
  let deltas ← computeRawDeltas codecs profile orders tx
  let merged ← mergeSolAndWsol profile orders feePayer feeLamports deltas
  clusterIntoSwaps profile orders isOnCurve merged

end BalanceDiff

end Graced
