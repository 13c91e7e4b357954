import Graced.SolMerge

/-!
# Lamports, counted twice

The lamport pass has every lamport of every account, those of a token account for wrapped
lamports included: they belong to its address. The token pass has the same lamports once
more, as an amount of the owner of that account. No later step takes either out. So, when
lamports are conserved, what the changes in lamports add up to is what was wrapped less what
was unwrapped, up to a fee that is given back.
-/

namespace Graced.SolDeltas

open BalanceDiff

/-- The changes in lamports of all owners together. -/
def solTotal (deltas : Deltas) : Int := totalOf isSol deltas

/-- The change of all accounts for wrapped lamports together. -/
def wrappedChange (codecs : RpcCodecs) (preToken postToken : List UiTransactionTokenBalance) :
    Int :=
  (allIndices.map (fun index => attributed codecs isSol ((snapshot preToken).get index)
    ((snapshot postToken).get index))).sum

/-- The lamports of the first accounts together. -/
def lamportsOf (count : Nat) (balances : List UInt64) : Nat :=
  ((List.range count).map (lamportsAt balances)).sum

/-- The lamports of an owner changed, in an account at the owner's address or wrapped in a
token account. -/
def Touched (codecs : RpcCodecs) (rendered : UiTransactionStatusMeta) (keys : AccountKeys)
    (owner : Pubkey) : Prop :=
  (∃ index ∈ allIndices, attributed codecs (fun key => key = (owner, solMint))
      ((snapshot (rendered.preTokenBalances.toDefault [])).get index)
      ((snapshot (rendered.postTokenBalances.toDefault [])).get index) ≠ 0) ∨
    ∃ account ∈ keys.iter.zipIdx, account.1 = owner ∧
      lamportChange rendered.preBalances rendered.postBalances account.2 ≠ 0

instance (codecs : RpcCodecs) (rendered : UiTransactionStatusMeta) (keys : AccountKeys)
    (owner : Pubkey) : Decidable (Touched codecs rendered keys owner) :=
  inferInstanceAs (Decidable (_ ∨ _))

/-! ## The two passes -/

/-- The token pass stores a change under a key exactly if some account has one that is
attributed to it. -/
theorem tokenDeltas_present (codecs : RpcCodecs) (profile : Profile) (orders : DiffOrders)
    (preToken postToken : List UiTransactionTokenBalance) (deltas : Deltas)
    (computed : tokenDeltas codecs profile orders preToken postToken = .ok deltas)
    (key : DeltaKey)
    (small : SmallAmounts codecs (fun stored => stored = key) preToken postToken) :
    (deltas.get key).isSome ↔ ∃ index ∈ allIndices,
      attributed codecs (fun stored => stored = key) ((snapshot preToken).get index)
        ((snapshot postToken).get index) ≠ 0 := by
  obtain ⟨evaluated, added⟩ := addAll_ok _ _ _ _ _ computed
  have attributes (index : UInt8) (contribution : Option BalanceDelta)
      (move : tokenMove codecs profile ((snapshot preToken).get index)
        ((snapshot postToken).get index) = .ok contribution) :=
    tokenMove_attributed codecs profile _ _ contribution move (fun stored => stored = key)
      (smallAmounts_fits codecs _ preToken postToken small index)
  rw [addMoves_present profile _ .empty deltas added key]
  simp only [AssocMap.get_empty, Option.isSome_none, Bool.false_eq_true, false_or]
  constructor
  · rintro ⟨d, member, rfl⟩
    obtain ⟨index, _, contribution⟩ := List.mem_filterMap.mp member
    rw [Option.join_eq_some_iff, Outcome.toOption_eq_some] at contribution
    refine ⟨index, mem_allIndices index, ?_⟩
    rw [← attributes index (some d) contribution]
    simpa using (tokenMove_some codecs profile _ _ d contribution).1
  · rintro ⟨index, _, changed⟩
    have inSnapshots : index ∈ indices orders (snapshot preToken) (snapshot postToken) := by
      rw [mem_indices]
      by_contra missing
      rw [not_or, Option.not_isSome_iff_eq_none, Option.not_isSome_iff_eq_none] at missing
      exact changed (by simp [attributed, missing.1, missing.2])
    obtain ⟨contribution, move⟩ := evaluated index inSnapshots
    rw [← attributes index contribution move] at changed
    cases contribution with
    | none => simp at changed
    | some d =>
      refine ⟨d, List.mem_filterMap.mpr ⟨index, inSnapshots, by simp [move]⟩, ?_⟩
      by_contra different
      simp [different] at changed

/-- Amounts of 64 bits for all owners are such for each. -/
theorem smallAmounts_owner (codecs : RpcCodecs)
    (preToken postToken : List UiTransactionTokenBalance)
    (small : SmallAmounts codecs isSol preToken postToken) (owner : Pubkey) :
    SmallAmounts codecs (fun stored => stored = (owner, solMint)) preToken postToken := by
  rintro index ⟨recorded, reader, chosen, readable, inside⟩
  have sol : recorded.mint = solMint := (Prod.mk.inj (of_decide_eq_true inside)).2
  exact small index ⟨recorded, reader, chosen, readable, by simp [isSol, sol]⟩

/-- After both passes there is a change in lamports of an owner exactly if the owner is
touched. -/
theorem sol_present (codecs : RpcCodecs) (profile : Profile) (orders : DiffOrders)
    (rendered : UiTransactionStatusMeta) (keys : AccountKeys) (tokens deltas : Deltas)
    (tokenPass : tokenDeltas codecs profile orders (rendered.preTokenBalances.toDefault [])
      (rendered.postTokenBalances.toDefault []) = .ok tokens)
    (lamportPass : lamportDeltas profile rendered.preBalances rendered.postBalances (some keys)
      tokens = .ok deltas)
    (owner : Pubkey) (small : SmallAmounts codecs (fun stored => stored = (owner, solMint))
      (rendered.preTokenBalances.toDefault []) (rendered.postTokenBalances.toDefault [])) :
    (deltas.get (owner, solMint)).isSome ↔ Touched codecs rendered keys owner := by
  obtain ⟨_, added⟩ := addAll_ok _ _ _ _ _ lamportPass
  rw [addMoves_present profile _ tokens deltas added, tokenDeltas_present codecs profile orders _ _
    tokens tokenPass _ small]
  apply or_congr Iff.rfl
  constructor
  · rintro ⟨d, member, same⟩
    obtain ⟨account, listed, contribution⟩ := List.mem_filterMap.mp member
    rw [lamportMove_ok, Outcome.toOption_ok, Option.join_some] at contribution
    split at contribution
    · simp at contribution
    · rename_i changed
      obtain rfl := Option.some.inj contribution
      exact ⟨account, listed, (Prod.mk.inj same).1, changed⟩
  · rintro ⟨account, listed, rfl, changed⟩
    refine ⟨⟨account.1, solMint,
      lamportChange rendered.preBalances rendered.postBalances account.2, 9⟩,
      List.mem_filterMap.mpr ⟨account, listed, ?_⟩, rfl⟩
    rw [lamportMove_ok, Outcome.toOption_ok, Option.join_some, if_neg changed]

/-- The changes of the listed accounts in lamports, together. -/
theorem sum_accounts (keys : List Pubkey) (preBalances postBalances : List UInt64) :
    (keys.zipIdx.map (fun account => if isSol (account.1, solMint) then
      lamportChange preBalances postBalances account.2 else 0)).sum =
      (lamportsOf keys.length postBalances : Int) - lamportsOf keys.length preBalances := by
  have allSol (account : Pubkey × Nat) : isSol (account.1, solMint) = true := by simp [isSol]
  have byIndex : keys.zipIdx.map Prod.snd = List.range keys.length := by
    rw [List.zipIdx_map_snd, List.range_eq_range']
  have changes : keys.zipIdx.map (fun account => lamportChange preBalances postBalances account.2) =
      (List.range keys.length).map (lamportChange preBalances postBalances) := by
    rw [← byIndex, List.map_map]
    rfl
  simp only [allSol, if_true, changes, lamportsOf]
  induction List.range keys.length with
  | nil => rfl
  | cons index rest inductionHypothesis =>
    simp only [List.map_cons, List.sum_cons, inductionHypothesis, lamportChange]
    omega

/-- Where lamports are conserved, the merged changes in lamports add up to zero exactly when
the changes of the accounts for wrapped lamports do; or to the fee, where it is not given
back. Amounts that lamports include are of 64 bits, and no vector has 2^58 keys of 32 bytes:
nothing overflows. -/
theorem sol_counted_once_iff (codecs : RpcCodecs) (profile : Profile) (orders : DiffOrders)
    (tx : EncodedConfirmedTransactionWithStatusMeta) (rendered : UiTransactionStatusMeta)
    (transaction : VersionedTransaction) (keys : AccountKeys) (feePayer : Pubkey)
    (feeLamports : UInt64) (deltas : Deltas) (recorded : tx.transaction.metadata = some rendered)
    (decoded : codecs.decodeTransaction tx.transaction.transaction = some transaction)
    (listed : accountKeys codecs transaction rendered = some keys)
    (few : keys.iter.length < 2 ^ 58)
    (small : SmallAmounts codecs isSol (rendered.preTokenBalances.toDefault [])
      (rendered.postTokenBalances.toDefault []))
    (conserved : lamportsOf keys.iter.length rendered.preBalances =
      lamportsOf keys.iter.length rendered.postBalances + feeLamports.toNat)
    (computed : computeRawDeltas codecs profile orders tx = .ok deltas) :
    ∃ merged, (mergeSolAndWsol profile orders feePayer feeLamports deltas :
        Outcome TxParseError Deltas) = .ok merged ∧
      (solTotal merged = 0 ↔
        wrappedChange codecs (rendered.preTokenBalances.toDefault [])
          (rendered.postTokenBalances.toDefault []) =
          if Touched codecs rendered keys feePayer then 0 else (feeLamports.toNat : Int)) := by
  obtain ⟨found, alsoTransaction, tokens, alsoRecorded, alsoDecoded, _, tokenPass, lamportPass⟩ :=
    computeRawDeltas_ok codecs profile orders tx deltas computed
  obtain rfl := Option.some.inj (recorded.symm.trans alsoRecorded)
  obtain rfl := Option.some.inj (decoded.symm.trans alsoDecoded)
  rw [listed] at lamportPass
  obtain ⟨tokensWithin, tokenTotal⟩ := tokenDeltas_totals codecs profile orders isSol _ _ tokens
    tokenPass small
  obtain ⟨within, total⟩ := lamportDeltas_totals profile isSol _ _ keys tokens deltas lamportPass
    (256 * 2 ^ 64) tokensWithin (by omega)
  have payerSol : isSol (feePayer, solMint) = true := by simp [isSol]
  have bounded := within (feePayer, solMint) payerSol
  obtain ⟨credited, fee, _, creditedTotals⟩ := addFee_exact profile feePayer feeLamports deltas
    (by omega)
  obtain ⟨merged, settles, _, mergedTotals⟩ := mergeSolAndWsol_ok profile orders feePayer
    feeLamports deltas credited fee
  refine ⟨merged, settles, ?_⟩
  have present := sol_present codecs profile orders rendered keys tokens deltas tokenPass
    lamportPass feePayer (smallAmounts_owner codecs _ _ small feePayer)
  have sum : solTotal merged = wrappedChange codecs (rendered.preTokenBalances.toDefault [])
      (rendered.postTokenBalances.toDefault []) - feeLamports.toNat +
        if Touched codecs rendered keys feePayer then (feeLamports.toNat : Int) else 0 := by
    rw [solTotal, mergedTotals, creditedTotals, total, tokenTotal, sum_accounts]
    simp only [present, payerSol, and_true, wrappedChange]
    omega
  rw [sum]
  by_cases touched : Touched codecs rendered keys feePayer
  · simp only [touched, if_true]
    omega
  · simp only [touched, if_false]
    omega

/-! ## Two transactions -/

/-- A balance of wrapped lamports. -/
def wrapped : UInt8 → String → String → UiTransactionTokenBalance := plainBalance solMint 9

/-- The owner of index 0 wraps 100 lamports into the token account of index 1, and pays the
fee. -/
def wrapping : UiTransactionStatusMeta :=
  plainMeta [1000, 2039280, 30] [895, 2039380, 30]
    [wrapped 1 "0" "11111111111111111111111111111115"]
    [wrapped 1 "100" "11111111111111111111111111111115"]

/-- The owner pays 100 lamports to the address of index 2 instead. -/
def transfer : UiTransactionStatusMeta :=
  plainMeta [1000, 2039280, 30] [895, 2039280, 130]
    [wrapped 1 "0" "11111111111111111111111111111115"]
    [wrapped 1 "0" "11111111111111111111111111111115"]

/-- The lamports that were wrapped appear twice. -/
theorem wrapping_counted_twice :
    lamportsOf 3 wrapping.preBalances = lamportsOf 3 wrapping.postBalances + 5 ∧
    ∃ deltas merged,
      computeRawDeltas plainCodecs ⟨true⟩ default (plainTx wrapping) = .ok deltas ∧
      (mergeSolAndWsol ⟨true⟩ default ⟨4⟩ 5 deltas : Outcome TxParseError Deltas) = .ok merged ∧
      deltaOf merged (⟨4⟩, solMint) = 0 ∧ deltaOf merged (⟨5⟩, solMint) = 100 ∧
      solTotal merged = 100 := by
  refine ⟨by decide, ?_⟩
  rw [computeRawDeltas, plain_decoded]
  refine ⟨_, _, rfl, rfl, ?_, ?_, ?_⟩
  · decide
  · decide
  · decide

/-- Accounts that hold what they held before change nothing. -/
theorem wrappedChange_same (codecs : RpcCodecs) (balances : List UiTransactionTokenBalance) :
    wrappedChange codecs balances balances = 0 := by
  apply List.sum_eq_zero
  intro change member
  obtain ⟨index, _, rfl⟩ := List.mem_map.mp member
  unfold attributed
  split
  · rfl
  · split
    · rfl
    · simp

/-- The lamports that were paid appear once. -/
theorem transfer_counted_once :
    ∃ deltas merged,
      computeRawDeltas plainCodecs ⟨true⟩ default (plainTx transfer) = .ok deltas ∧
      (mergeSolAndWsol ⟨true⟩ default ⟨4⟩ 5 deltas : Outcome TxParseError Deltas) = .ok merged ∧
      solTotal merged = 0 := by
  have computed : ∃ deltas,
      computeRawDeltas plainCodecs ⟨true⟩ default (plainTx transfer) = .ok deltas := by
    rw [computeRawDeltas, plain_decoded]
    exact ⟨_, rfl⟩
  have zero : U64Amounts [wrapped 1 "0" "11111111111111111111111111111115"] := by
    intro balance member
    obtain rfl := List.mem_singleton.mp member
    exact ⟨0, by decide⟩
  obtain ⟨deltas, computed⟩ := computed
  obtain ⟨merged, settles, counted⟩ := sol_counted_once_iff plainCodecs ⟨true⟩ default
    (plainTx transfer) transfer _ ⟨plainKeys, [], []⟩ ⟨4⟩ 5 deltas rfl (plain_decoded transfer) rfl
    (by decide) (smallAmounts_of_u64 _ _ _ _ zero zero) (by decide) computed
  have paid : Touched plainCodecs transfer ⟨plainKeys, [], []⟩ ⟨4⟩ :=
    .inr ⟨(⟨4⟩, 0), by decide, rfl, by decide⟩
  rw [if_pos paid] at counted
  exact ⟨deltas, merged, computed, settles, counted.mpr (wrappedChange_same plainCodecs _)⟩

end Graced.SolDeltas
