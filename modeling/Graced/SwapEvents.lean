import Graced.Clusters

/-!
# What the swaps depend on

The indices are sorted, every snapshot is read by lookups, and the merge settles each change
by itself. So the merged changes are the same for every order in which the hash maps are
walked and in which the snapshots list their entries. The swaps are exactly those of the
merged changes, and the same up to order.
-/

namespace Graced.SwapEvents

open BalanceDiff

/-- The transaction with other token balances. -/
def withTokens (tx : EncodedConfirmedTransactionWithStatusMeta)
    (rendered : UiTransactionStatusMeta) (preToken postToken : List UiTransactionTokenBalance) :
    EncodedConfirmedTransactionWithStatusMeta :=
  { tx with transaction := { tx.transaction with metadata := some { rendered with
      preTokenBalances := .some preToken
      postTokenBalances := .some postToken } } }

/-! ## The raw changes -/

/-- A snapshot is the same in whichever order its entries are listed. -/
theorem snapshot_perm (balances others : List UiTransactionTokenBalance)
    (distinct : DistinctIndices balances) (reordered : balances.Perm others) (index : UInt8) :
    (snapshot balances).get index = (snapshot others).get index := by
  apply AssocMap.ofList_get_perm
  · simpa [DistinctIndices, List.map_map, Function.comp_def] using distinct
  · exact reordered.map _

/-- The indices are the same in whichever order the snapshots are walked. -/
theorem indices_eq (orders others : DiffOrders)
    (pre post otherPre otherPost : AssocMap UInt8 UiTransactionTokenBalance)
    (samePre : ∀ index, pre.get index = otherPre.get index)
    (samePost : ∀ index, post.get index = otherPost.get index) :
    indices orders pre post = indices others otherPre otherPost := by
  have sorted (orders : DiffOrders) (pre post : AssocMap UInt8 UiTransactionTokenBalance) :
      (indices orders pre post).Pairwise (· ≤ ·) :=
    (List.pairwise_insertionSort (· ≤ ·) _).sublist (List.dedup_sublist _)
  apply List.Perm.eq_of_pairwise' (sorted orders pre post) (sorted others otherPre otherPost)
  apply (List.perm_ext_iff_of_nodup (indices_nodup orders pre post)
    (indices_nodup others otherPre otherPost)).mpr
  intro index
  rw [mem_indices, mem_indices, samePre, samePost]

/-- So is what the token pass finds. -/
theorem tokenDeltas_eq (codecs : RpcCodecs) (profile : Profile) (orders others : DiffOrders)
    (preToken postToken otherPre otherPost : List UiTransactionTokenBalance)
    (distinctPre : DistinctIndices preToken) (distinctPost : DistinctIndices postToken)
    (reorderedPre : preToken.Perm otherPre) (reorderedPost : postToken.Perm otherPost) :
    tokenDeltas codecs profile others otherPre otherPost =
      tokenDeltas codecs profile orders preToken postToken := by
  have samePre := snapshot_perm preToken otherPre distinctPre reorderedPre
  have samePost := snapshot_perm postToken otherPost distinctPost reorderedPost
  unfold tokenDeltas
  rw [← indices_eq orders others (snapshot preToken) (snapshot postToken) (snapshot otherPre)
    (snapshot otherPost) samePre samePost]
  simp only [samePre, samePost]

/-- And so are the raw changes. -/
theorem computeRawDeltas_eq (codecs : RpcCodecs) (profile : Profile) (orders others : DiffOrders)
    (tx : EncodedConfirmedTransactionWithStatusMeta) (rendered : UiTransactionStatusMeta)
    (recorded : tx.transaction.metadata = some rendered)
    (preToken postToken : List UiTransactionTokenBalance)
    (distinctPre : DistinctIndices (rendered.preTokenBalances.toDefault []))
    (distinctPost : DistinctIndices (rendered.postTokenBalances.toDefault []))
    (reorderedPre : (rendered.preTokenBalances.toDefault []).Perm preToken)
    (reorderedPost : (rendered.postTokenBalances.toDefault []).Perm postToken) :
    computeRawDeltas codecs profile others (withTokens tx rendered preToken postToken) =
      computeRawDeltas codecs profile orders tx := by
  have tokens := tokenDeltas_eq codecs profile orders others _ _ preToken postToken distinctPre
    distinctPost reorderedPre reorderedPost
  simp only [computeRawDeltas, recorded, withTokens, Outcome.okOr_some, Outcome.ok_bind, ← tokens]
  rfl

/-- The token pass contributes numbers of the type `i128`. -/
theorem tokenMove_fits (codecs : RpcCodecs) (profile : Profile)
    (pre post : Option UiTransactionTokenBalance) (d : BalanceDelta)
    (evaluated : tokenMove codecs profile pre post = .ok (some d)) : InI128 d.delta :=
  i128_range profile _ d.delta (tokenMove_some codecs profile pre post d evaluated).2.1

/-- The raw changes are proper. -/
theorem computeRawDeltas_proper (codecs : RpcCodecs) (profile : Profile) (orders : DiffOrders)
    (tx : EncodedConfirmedTransactionWithStatusMeta) (deltas : Deltas)
    (computed : computeRawDeltas codecs profile orders tx = .ok deltas) : Proper deltas := by
  obtain ⟨rendered, transaction, tokens, _, _, _, tokenPass, lamportPass⟩ :=
    computeRawDeltas_ok codecs profile orders tx deltas computed
  have tokensProper : Proper tokens := by
    obtain ⟨_, added⟩ := addAll_ok _ _ _ _ _ tokenPass
    apply addMoves_proper profile _ .empty tokens added
    · intro d member
      obtain ⟨index, _, contribution⟩ := List.mem_filterMap.mp member
      rw [Option.join_eq_some_iff, Outcome.toOption_eq_some] at contribution
      exact tokenMove_fits codecs profile _ _ d contribution
    · intro key known found
      simp at found
  cases keys : accountKeys codecs transaction rendered with
  | none =>
    rw [keys] at lamportPass
    exact Outcome.ok.inj lamportPass ▸ tokensProper
  | some keys' =>
    rw [keys] at lamportPass
    obtain ⟨_, added⟩ := addAll_ok _ _ _ _ _ lamportPass
    apply addMoves_proper profile _ tokens deltas added _ tokensProper
    intro d member
    obtain ⟨account, _, contribution⟩ := List.mem_filterMap.mp member
    rw [lamportMove_ok, Outcome.toOption_ok, Option.join_some] at contribution
    split at contribution
    · simp at contribution
    · obtain rfl := Option.some.inj contribution
      have small := lamportChange_range rendered.preBalances rendered.postBalances account.2
      simp only [InI128]
      omega

/-! ## The merged changes -/

/-- Giving the fee back keeps changes proper. -/
theorem addFee_proper {ε : Type} (profile : Profile) (feePayer : Pubkey) (feeLamports : UInt64)
    (deltas credited : Deltas) (proper : Proper deltas)
    (fee : (addFee profile feePayer feeLamports deltas : Outcome ε Deltas) = .ok credited) :
    Proper credited := by
  unfold addFee at fee
  cases found : deltas.get (feePayer, solMint) with
  | none =>
    rw [found] at fee
    exact Outcome.ok.inj fee ▸ proper
  | some known =>
    rw [found] at fee
    obtain ⟨sum, summed, stored⟩ := (Outcome.bind_ok_iff _ _ _).mp fee
    obtain rfl := Outcome.ok.inj stored
    exact proper_insert deltas proper _ _ (proper _ known found).1 (i128_range profile _ sum summed)

/-- The merge settles the credited changes, in whichever order. -/
theorem mergeSolAndWsol_settles {ε : Type} (profile : Profile) (orders : DiffOrders)
    (feePayer : Pubkey) (feeLamports : UInt64) (deltas merged : Deltas) (proper : Proper deltas)
    (merges : (mergeSolAndWsol profile orders feePayer feeLamports deltas : Outcome ε Deltas) =
      .ok merged) :
    ∃ credited, (addFee profile feePayer feeLamports deltas : Outcome ε Deltas) = .ok credited ∧
      Proper merged ∧ ∀ key, merged.get key = settled key (credited.get key) := by
  obtain ⟨credited, fee, _⟩ := (Outcome.bind_ok_iff _ _ _).mp merges
  obtain ⟨result, settles, gets, _⟩ :=
    mergeSolAndWsol_ok profile orders feePayer feeLamports deltas credited fee
  obtain rfl := Outcome.ok.inj (settles.symm.trans merges)
  refine ⟨credited, fee, ?_, gets⟩
  have creditedProper := addFee_proper profile feePayer feeLamports deltas credited proper fee
  intro key known found
  rw [gets, settled] at found
  split at found
  · rename_i sol
    obtain ⟨taken, before, rfl⟩ := Option.map_eq_some_iff.mp found
    have mint : key.2 = solMint := by simpa [isSol] using sol
    exact ⟨Prod.ext rfl mint.symm, (creditedProper key taken before).2⟩
  · exact creditedProper key known found

/-- Another order of the merge gives the same changes. -/
theorem mergeSolAndWsol_reordered {ε : Type} (profile : Profile) (orders others : DiffOrders)
    (feePayer : Pubkey) (feeLamports : UInt64) (deltas merged : Deltas) (proper : Proper deltas)
    (merges : (mergeSolAndWsol profile orders feePayer feeLamports deltas : Outcome ε Deltas) =
      .ok merged) :
    ∃ alike, (mergeSolAndWsol profile others feePayer feeLamports deltas : Outcome ε Deltas) =
      .ok alike ∧ Proper alike ∧ ∀ key, merged.get key = alike.get key := by
  obtain ⟨credited, fee, _, gets⟩ :=
    mergeSolAndWsol_settles profile orders feePayer feeLamports deltas merged proper merges
  obtain ⟨alike, settles, alikeGets, _⟩ :=
    mergeSolAndWsol_ok profile others feePayer feeLamports deltas credited fee
  obtain ⟨_, _, alikeProper, _⟩ :=
    mergeSolAndWsol_settles profile others feePayer feeLamports deltas alike proper settles
  exact ⟨alike, settles, alikeProper, fun key => (gets key).trans (alikeGets key).symm⟩

/-- A detection that succeeds reports exactly the swaps of the merged changes. So does one
that walks the hash maps in another order or lists the token balances in another order, and
up to order both report the same. -/
theorem detectSwaps_exact (codecs : RpcCodecs) (profile : Profile) (orders : DiffOrders)
    (isOnCurve : Pubkey → Bool) (tx : EncodedConfirmedTransactionWithStatusMeta)
    (rendered : UiTransactionStatusMeta) (feePayer : Pubkey) (feeLamports : UInt64)
    (events : List SwapEvent) (recorded : tx.transaction.metadata = some rendered)
    (distinctPre : DistinctIndices (rendered.preTokenBalances.toDefault []))
    (distinctPost : DistinctIndices (rendered.postTokenBalances.toDefault []))
    (detected : detectSwaps codecs profile orders isOnCurve tx feePayer feeLamports =
      .ok events) :
    (∃ deltas merged, computeRawDeltas codecs profile orders tx = .ok deltas ∧
      (mergeSolAndWsol profile orders feePayer feeLamports deltas : Outcome TxParseError Deltas) =
        .ok merged ∧ Proper merged ∧ ExactSwaps isOnCurve merged events) ∧
    ∀ others preToken postToken,
      (rendered.preTokenBalances.toDefault []).Perm preToken →
      (rendered.postTokenBalances.toDefault []).Perm postToken →
      ∃ alike, detectSwaps codecs profile others isOnCurve
          (withTokens tx rendered preToken postToken) feePayer feeLamports = .ok alike ∧
        allContents alike = allContents events := by
  obtain ⟨deltas, computed, rest⟩ := (Outcome.bind_ok_iff _ _ _).mp detected
  obtain ⟨merged, merges, clustered⟩ := (Outcome.bind_ok_iff _ _ _).mp rest
  have deltasProper := computeRawDeltas_proper codecs profile orders tx deltas computed
  obtain ⟨_, _, proper, _⟩ :=
    mergeSolAndWsol_settles profile orders feePayer feeLamports deltas merged deltasProper merges
  have negatable := clusterIntoSwaps_negatable profile orders isOnCurve merged proper events
    clustered
  have exact : ExactSwaps isOnCurve merged events := by
    have all := (clusterIntoSwaps_ok profile orders isOnCurve merged proper negatable).symm.trans
      clustered
    exact Outcome.ok.inj all ▸ swapOf_exact orders isOnCurve merged proper
  refine ⟨⟨deltas, merged, computed, merges, proper, exact⟩, ?_⟩
  intro others preToken postToken reorderedPre reorderedPost
  obtain ⟨alike, settles, alikeProper, same⟩ := mergeSolAndWsol_reordered profile orders others
    feePayer feeLamports deltas merged deltasProper merges
  have alikeNegatable (key : DeltaKey) (d : BalanceDelta) (found : alike.get key = some d) :
      d.delta < 0 → Negatable profile d := negatable key d ((same key).trans found)
  refine ⟨(groups others alike).filterMap (swapOf isOnCurve), ?_, ?_⟩
  · rw [detectSwaps, computeRawDeltas_eq codecs profile orders others tx rendered recorded preToken
      postToken distinctPre distinctPost reorderedPre reorderedPost, computed, Outcome.ok_bind,
      settles, Outcome.ok_bind]
    exact clusterIntoSwaps_ok profile others isOnCurve alike alikeProper alikeNegatable
  · exact exactSwaps_contents isOnCurve alike merged _ events
      (AssocMap.entries_perm alike merged (fun key => (same key).symm))
      (swapOf_exact others isOnCurve alike alikeProper) exact

/-! ## Two trades -/

/-- A mint with six decimals that is sold. -/
def soldMint : String := "EPjFWdd5AufqSSqeM2qN1xzybapC8G4wEGGkZwyTDt1v"

/-- A mint with five decimals that is bought. -/
def boughtMint : String := "DezXAZ8z7PnrnRJjz3wXBoRgixCa6xjnB7YaB1pPB263"

/-- A transaction in which an owner sells from the account of index 1, which held this amount
before and holds that one after, and buys 7 into the account of index 2. -/
def trade (before after : String) : UiTransactionStatusMeta :=
  plainMeta [1000, 20, 30] [995, 20, 30]
    [plainBalance soldMint 6 1 before "11111111111111111111111111111118"]
    [plainBalance boughtMint 5 2 "7" "11111111111111111111111111111118",
      plainBalance soldMint 6 1 after "11111111111111111111111111111118"]

/-- A trade whose loss is the least `i128`. -/
def leastTrade : UiTransactionStatusMeta := trade "0" "-170141183460469231731687303715884105728"

/-- The least `i128` is reported as a negative amount, where overflow is not checked. -/
theorem least_loss_negative :
    DistinctIndices (leastTrade.preTokenBalances.toDefault []) ∧
    DistinctIndices (leastTrade.postTokenBalances.toDefault []) ∧
    detectSwaps plainCodecs ⟨false⟩ default (fun _ => true) (plainTx leastTrade) ⟨4⟩ 5 =
      .ok [⟨⟨7⟩, [(soldMint, -170141183460469231731687303715884105728, 6)], [(boughtMint, 7, 5)],
        false⟩] := by
  refine ⟨by decide, by decide, ?_⟩
  rw [detectSwaps, computeRawDeltas, plain_decoded]
  rfl

/-- The swap of a trade of 100 is reported whatever the order of its entries. -/
theorem trade_reordered :
    ∃ events alike,
      detectSwaps plainCodecs ⟨true⟩ default (fun _ => true) (plainTx (trade "100" "0")) ⟨4⟩ 5 =
        .ok events ∧
      detectSwaps plainCodecs ⟨true⟩ default (fun _ => true)
        (withTokens (plainTx (trade "100" "0")) (trade "100" "0")
          ((trade "100" "0").preTokenBalances.toDefault []).reverse
          ((trade "100" "0").postTokenBalances.toDefault []).reverse) ⟨4⟩ 5 = .ok alike ∧
      allContents alike = allContents events := by
  have detected : ∃ events, detectSwaps plainCodecs ⟨true⟩ default (fun _ => true)
      (plainTx (trade "100" "0")) ⟨4⟩ 5 = .ok events := by
    rw [detectSwaps, computeRawDeltas, plain_decoded]
    exact ⟨_, rfl⟩
  obtain ⟨events, detected⟩ := detected
  obtain ⟨alike, alsoDetected, same⟩ := (detectSwaps_exact plainCodecs ⟨true⟩ default
    (fun _ => true) (plainTx (trade "100" "0")) (trade "100" "0") ⟨4⟩ 5 events rfl (by decide)
    (by decide) detected).2 default _ _ (List.reverse_perm _).symm (List.reverse_perm _).symm
  exact ⟨events, alike, detected, alsoDetected, same⟩

end Graced.SwapEvents
