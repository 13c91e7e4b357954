import Graced.OwnerDeltas
import Graced.SolDeltas

/-!
# The fee that is given back

The merge gives the fee back to its payer, so that it is not taken for a part of a swap. It
does so on the change in lamports that is stored for the payer. Changes of zero are not
stored, however: a payer who got back during the transaction exactly what the fee cost, and
whose wrapped lamports did not change either, is not given the fee.
-/

namespace Graced.FeeReturn

open BalanceDiff SolDeltas

/-- The change of the account at the owner's address. -/
def ownLamports (rendered : UiTransactionStatusMeta) (keys : AccountKeys) (owner : Pubkey) : Int :=
  (keys.iter.zipIdx.map (fun account => if account.1 = owner then
    lamportChange rendered.preBalances rendered.postBalances account.2 else 0)).sum

/-- The change of the accounts for wrapped lamports that the owner owns. -/
def ownWrapped (codecs : RpcCodecs) (rendered : UiTransactionStatusMeta) (owner : Pubkey) : Int :=
  (allIndices.map (fun index => attributed codecs (fun key => key = (owner, solMint))
    ((snapshot (rendered.preTokenBalances.toDefault [])).get index)
    ((snapshot (rendered.postTokenBalances.toDefault [])).get index))).sum

/-- The merge adds the fee to the payer's changes in lamports, wrapped or not, and keeps every
other change. -/
structure FeeReturned (codecs : RpcCodecs) (rendered : UiTransactionStatusMeta)
    (keys : AccountKeys) (feePayer : Pubkey) (feeLamports : UInt64)
    (deltas merged : Deltas) : Prop where
  payer : deltaOf merged (feePayer, solMint) =
    ownLamports rendered keys feePayer + ownWrapped codecs rendered feePayer + feeLamports.toNat
  others : ∀ key, key ≠ (feePayer, solMint) →
    (merged.get key).map (fun d => d.delta) = (deltas.get key).map (fun d => d.delta)

/-! ## What the owner's changes are -/

/-- An address that is listed once has the change of its account. -/
theorem ownLamports_once (rendered : UiTransactionStatusMeta) (keys : AccountKeys)
    (distinct : keys.iter.Nodup) (index : Nat) (owner : Pubkey)
    (listed : keys.iter[index]? = some owner) :
    ownLamports rendered keys owner =
      lamportChange rendered.preBalances rendered.postBalances index := by
  have member : (owner, index) ∈ keys.iter.zipIdx := List.mk_mem_zipIdx_iff_getElem?.mpr listed
  have inside := (List.getElem?_eq_some_iff.mp listed).1
  have sole : ∀ account ∈ keys.iter.zipIdx, account.1 = owner → account = (owner, index) := by
    rintro ⟨key, position⟩ atPosition rfl
    have found := List.mk_mem_zipIdx_iff_getElem?.mp atPosition
    rw [(List.getElem?_inj inside distinct).mp (listed.trans found.symm)]
  have distinctAccounts : keys.iter.zipIdx.Nodup := by
    apply List.Nodup.of_map Prod.fst
    rwa [List.zipIdx_map_fst]
  rw [ownLamports, ← AssocMap.sum_single _ distinctAccounts (owner, index)
    (lamportChange rendered.preBalances rendered.postBalances index) member]
  apply congrArg
  apply List.map_congr_left
  intro account inTable
  by_cases same : account.1 = owner
  · obtain rfl := sole account inTable same
    rw [if_pos rfl, if_pos rfl]
  · rw [if_neg same, if_neg fun equal => same (congrArg Prod.fst equal).symm]

/-- If as much was held before in the accounts that left the owner as in those that joined, the
change is what the owner's accounts hold after less what they held before. -/
theorem ownWrapped_held (codecs : RpcCodecs) (rendered : UiTransactionStatusMeta) (owner : Pubkey)
    (distinctPre : DistinctIndices (rendered.preTokenBalances.toDefault []))
    (distinctPost : DistinctIndices (rendered.postTokenBalances.toDefault []))
    (kept : OwnerDeltas.leaving codecs (owner, solMint) (rendered.preTokenBalances.toDefault [])
        (rendered.postTokenBalances.toDefault []) =
      OwnerDeltas.joining codecs (owner, solMint) (rendered.preTokenBalances.toDefault [])
        (rendered.postTokenBalances.toDefault [])) :
    ownWrapped codecs rendered owner =
      OwnerDeltas.held codecs (owner, solMint) (rendered.postTokenBalances.toDefault []) -
        OwnerDeltas.held codecs (owner, solMint) (rendered.preTokenBalances.toDefault []) := by
  rw [ownWrapped, OwnerDeltas.attributed_net codecs _ _ distinctPre distinctPost]
  omega

/-! ## The law -/

/-- After the merge the payer has its own lamports and wrapped lamports, and the fee on top of
them if anything is recorded for it; every other change is what it was. The amounts of the
payer's accounts for wrapped lamports are of 64 bits, and no vector has 2^58 keys of 32 bytes:
nothing overflows. -/
theorem merged_payer (codecs : RpcCodecs) (profile : Profile) (orders : DiffOrders)
    (tx : EncodedConfirmedTransactionWithStatusMeta) (rendered : UiTransactionStatusMeta)
    (transaction : VersionedTransaction) (keys : AccountKeys) (feePayer : Pubkey)
    (feeLamports : UInt64) (deltas : Deltas) (recorded : tx.transaction.metadata = some rendered)
    (decoded : codecs.decodeTransaction tx.transaction.transaction = some transaction)
    (listed : accountKeys codecs transaction rendered = some keys)
    (few : keys.iter.length < 2 ^ 58)
    (small : SmallAmounts codecs (fun key => key = (feePayer, solMint))
      (rendered.preTokenBalances.toDefault []) (rendered.postTokenBalances.toDefault []))
    (computed : computeRawDeltas codecs profile orders tx = .ok deltas) :
    ∃ merged, (mergeSolAndWsol profile orders feePayer feeLamports deltas :
        Outcome TxParseError Deltas) = .ok merged ∧
      deltaOf merged (feePayer, solMint) =
        ownLamports rendered keys feePayer + ownWrapped codecs rendered feePayer +
          (if Touched codecs rendered keys feePayer then (feeLamports.toNat : Int) else 0) ∧
      ∀ key, key ≠ (feePayer, solMint) →
        (merged.get key).map (fun d => d.delta) = (deltas.get key).map (fun d => d.delta) := by
  obtain ⟨found, alsoTransaction, tokens, alsoRecorded, alsoDecoded, _, tokenPass, lamportPass⟩ :=
    computeRawDeltas_ok codecs profile orders tx deltas computed
  obtain rfl := Option.some.inj (recorded.symm.trans alsoRecorded)
  obtain rfl := Option.some.inj (decoded.symm.trans alsoDecoded)
  rw [listed] at lamportPass
  obtain ⟨tokensWithin, tokenTotal⟩ := tokenDeltas_totals codecs profile orders
    (fun key => key = (feePayer, solMint)) _ _ tokens tokenPass small
  obtain ⟨within, total⟩ := lamportDeltas_totals profile (fun key => key = (feePayer, solMint))
    _ _ keys tokens deltas lamportPass (256 * 2 ^ 64) tokensWithin (by omega)
  have bounded := within (feePayer, solMint) (by simp)
  obtain ⟨credited, fee, creditedGets, creditedTotals⟩ := addFee_exact profile feePayer
    feeLamports deltas (by omega)
  obtain ⟨merged, settles, gets, mergedTotals⟩ := mergeSolAndWsol_ok profile orders feePayer
    feeLamports deltas credited fee
  have present := sol_present codecs profile orders rendered keys tokens deltas tokenPass
    lamportPass feePayer small
  refine ⟨merged, settles, ?_, ?_⟩
  · rw [← totalOf_key, mergedTotals, creditedTotals, total, tokenTotal]
    simp only [present, decide_true, decide_eq_true_eq, and_true, ownLamports, ownWrapped,
      Prod.mk.injEq]
    omega
  · intro key other
    rw [gets, settled_delta, creditedGets key other]

/-- The fee comes back exactly if lamports of its payer changed, wrapped or not, or if it is
zero. -/
theorem fee_returned_iff (codecs : RpcCodecs) (profile : Profile) (orders : DiffOrders)
    (tx : EncodedConfirmedTransactionWithStatusMeta) (rendered : UiTransactionStatusMeta)
    (transaction : VersionedTransaction) (keys : AccountKeys) (feePayer : Pubkey)
    (feeLamports : UInt64) (deltas : Deltas) (recorded : tx.transaction.metadata = some rendered)
    (decoded : codecs.decodeTransaction tx.transaction.transaction = some transaction)
    (listed : accountKeys codecs transaction rendered = some keys)
    (few : keys.iter.length < 2 ^ 58)
    (small : SmallAmounts codecs (fun key => key = (feePayer, solMint))
      (rendered.preTokenBalances.toDefault []) (rendered.postTokenBalances.toDefault []))
    (computed : computeRawDeltas codecs profile orders tx = .ok deltas) :
    ∃ merged, (mergeSolAndWsol profile orders feePayer feeLamports deltas :
        Outcome TxParseError Deltas) = .ok merged ∧
      (FeeReturned codecs rendered keys feePayer feeLamports deltas merged ↔
        Touched codecs rendered keys feePayer ∨ feeLamports = 0) := by
  obtain ⟨merged, settles, payerTotal, others⟩ := merged_payer codecs profile orders tx rendered
    transaction keys feePayer feeLamports deltas recorded decoded listed few small computed
  refine ⟨merged, settles, ?_⟩
  have noFee : feeLamports = 0 ↔ feeLamports.toNat = 0 := by
    rw [← UInt64.toNat_inj]
    rfl
  constructor
  · rintro ⟨payer, _⟩
    rw [payerTotal] at payer
    by_cases touched : Touched codecs rendered keys feePayer
    · exact .inl touched
    · rw [if_neg touched] at payer
      exact .inr (noFee.mpr (by omega))
  · intro returned
    refine ⟨?_, others⟩
    rw [payerTotal]
    by_cases touched : Touched codecs rendered keys feePayer
    · rw [if_pos touched]
    · rw [if_neg touched, noFee.mp (returned.resolve_left touched)]
      rfl

/-! ## Two transactions -/

/-- A payer of a fee of 5 lamports is paid 5 lamports by another account. -/
def refunded : UiTransactionStatusMeta := plainMeta [1000, 20, 30] [1000, 20, 25] [] []

/-- The changes cancel, and the fee is lost: the payer has no change where it should have 5. -/
theorem fee_lost :
    ∃ deltas merged,
      computeRawDeltas plainCodecs ⟨true⟩ default (plainTx refunded) = .ok deltas ∧
      (mergeSolAndWsol ⟨true⟩ default ⟨4⟩ 5 deltas : Outcome TxParseError Deltas) = .ok merged ∧
      deltaOf merged (⟨4⟩, solMint) = 0 ∧
      ownLamports refunded ⟨plainKeys, [], []⟩ ⟨4⟩ = 0 ∧ ownWrapped plainCodecs refunded ⟨4⟩ = 0 ∧
      ¬ FeeReturned plainCodecs refunded ⟨plainKeys, [], []⟩ ⟨4⟩ 5 deltas merged := by
  have lamports : ownLamports refunded ⟨plainKeys, [], []⟩ ⟨4⟩ = 0 := by decide
  have unwrapped : ownWrapped plainCodecs refunded ⟨4⟩ = 0 := by
    apply List.sum_eq_zero
    intro change member
    obtain ⟨index, _, rfl⟩ := List.mem_map.mp member
    rfl
  rw [computeRawDeltas, plain_decoded]
  refine ⟨_, _, rfl, rfl, ?_, lamports, unwrapped, fun returned => ?_⟩
  · decide
  · have payer := returned.payer
    rw [lamports, unwrapped] at payer
    exact absurd payer (by decide)

/-- A payer who pays more than the fee is given it back. -/
theorem fee_returned_of_transfer :
    ∃ deltas merged,
      computeRawDeltas plainCodecs ⟨true⟩ default (plainTx transfer) = .ok deltas ∧
      (mergeSolAndWsol ⟨true⟩ default ⟨4⟩ 5 deltas : Outcome TxParseError Deltas) = .ok merged ∧
      FeeReturned plainCodecs transfer ⟨plainKeys, [], []⟩ ⟨4⟩ 5 deltas merged := by
  have computed : ∃ deltas,
      computeRawDeltas plainCodecs ⟨true⟩ default (plainTx transfer) = .ok deltas := by
    rw [computeRawDeltas, plain_decoded]
    exact ⟨_, rfl⟩
  have zero : U64Amounts [wrapped 1 "0" "11111111111111111111111111111115"] := by
    intro balance member
    obtain rfl := List.mem_singleton.mp member
    exact ⟨0, by decide⟩
  obtain ⟨deltas, computed⟩ := computed
  obtain ⟨merged, settles, returned⟩ := fee_returned_iff plainCodecs ⟨true⟩ default
    (plainTx transfer) transfer _ ⟨plainKeys, [], []⟩ ⟨4⟩ 5 deltas rfl (plain_decoded transfer) rfl
    (by decide) (smallAmounts_of_u64 _ _ _ _ zero zero) computed
  exact ⟨deltas, merged, computed, settles,
    returned.mpr (.inl (.inr ⟨(⟨4⟩, 0), by decide, rfl, by decide⟩))⟩

end Graced.FeeReturn
