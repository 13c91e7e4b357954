import Graced.SwapEvents

/-!
# An owner's swap depends on the owner's balances

The detector adds up the changes of all owners in one map, pays the fee back into that map
and clusters it. What it reports of one owner nevertheless depends only on the token accounts
that are attributed to the owner, on the owner's lamports and, if the owner pays the fee, on
the fee.
-/

namespace Graced.OwnerLocality

open BalanceDiff SwapEvents

/-- What a detection reads. -/
structure Reading where
  orders : DiffOrders
  tx : EncodedConfirmedTransactionWithStatusMeta
  rendered : UiTransactionStatusMeta
  transaction : VersionedTransaction
  feePayer : Pubkey
  feeLamports : UInt64

namespace Reading

/-- The earlier and the later entry of a token account. -/
def entriesAt (reading : Reading) (index : UInt8) :
    Option UiTransactionTokenBalance × Option UiTransactionTokenBalance :=
  ((snapshot (reading.rendered.preTokenBalances.toDefault [])).get index,
    (snapshot (reading.rendered.postTokenBalances.toDefault [])).get index)

/-- The account keys, without which there are no lamports to compare. -/
def keys (codecs : RpcCodecs) (reading : Reading) : List Pubkey :=
  match accountKeys codecs reading.transaction reading.rendered with
  | none => []
  | some keys => keys.iter

/-- By how much the accounts of an owner changed in lamports, in their order. -/
def lamportChanges (codecs : RpcCodecs) (reading : Reading) (owner : Pubkey) : List Int :=
  (((reading.keys codecs).zipIdx).filter (fun account => account.1 = owner)).map
    (fun account => lamportChange reading.rendered.preBalances reading.rendered.postBalances
      account.2)

/-- The metadata and the transaction are those of the record. -/
structure Reads (codecs : RpcCodecs) (reading : Reading) : Prop where
  recorded : reading.tx.transaction.metadata = some reading.rendered
  decoded : codecs.decodeTransaction reading.tx.transaction.transaction =
    some reading.transaction

/-- The swaps that are detected. -/
def detect (codecs : RpcCodecs) (profile : Profile) (isOnCurve : Pubkey → Bool)
    (reading : Reading) : Outcome TxParseError (List SwapEvent) :=
  detectSwaps codecs profile reading.orders isOnCurve reading.tx reading.feePayer
    reading.feeLamports

end Reading

/-- An entry of the token pass is attributed to an owner. -/
def Owned (codecs : RpcCodecs) (owner : Pubkey)
    (entries : Option UiTransactionTokenBalance × Option UiTransactionTokenBalance) : Prop :=
  AttributedTo codecs (fun key => key.1 = owner) entries.1 entries.2

/-- Two readings differ only in what does not concern an owner: in token accounts that are
not attributed to the owner, in the lamports of others, and in a fee that another pays. -/
structure AlikeFor (codecs : RpcCodecs) (owner : Pubkey) (first second : Reading) : Prop where
  tokens : ∀ index, first.entriesAt index = second.entriesAt index ∨
    (¬ Owned codecs owner (first.entriesAt index) ∧
      ¬ Owned codecs owner (second.entriesAt index))
  lamports : first.lamportChanges codecs owner = second.lamportChanges codecs owner
  fees : first.feePayer = owner ∨ second.feePayer = owner →
    first.feePayer = second.feePayer ∧ first.feeLamports = second.feeLamports

/-- Maps that hold the same changes of an owner. -/
def Agree (owner : Pubkey) (first second : Deltas) : Prop :=
  ∀ mint, first.get (owner, mint) = second.get (owner, mint)

/-- The changes of an owner. -/
def own (owner : Pubkey) (moves : List BalanceDelta) : List BalanceDelta :=
  moves.filter (fun move => move.owner = owner)

/-! ## Additions -/

/-- A change of another owner is not seen. -/
theorem addDelta_other {ε : Type} (profile : Profile) (owner : Pubkey) (move : BalanceDelta)
    (deltas result : Deltas)
    (added : (addDelta profile deltas move : Outcome ε Deltas) = .ok result)
    (other : move.owner ≠ owner) : Agree owner result deltas := by
  obtain ⟨value, rfl, _⟩ := addDelta_ok profile deltas result move added
  intro mint
  have different : keyOf move ≠ (owner, mint) := fun same => other (congrArg Prod.fst same)
  rw [AssocMap.get_insert, if_neg different]

/-- A change of the owner is added alike to maps that agree. -/
theorem addDelta_own {ε : Type} (profile : Profile) (owner : Pubkey) (move : BalanceDelta)
    (deltas result alike : Deltas) (agree : Agree owner deltas alike)
    (added : (addDelta profile deltas move : Outcome ε Deltas) = .ok result)
    (mine : move.owner = owner) :
    ∃ alikeResult, (addDelta profile alike move : Outcome ε Deltas) = .ok alikeResult ∧
      Agree owner result alikeResult := by
  subst mine
  have stored (value : BalanceDelta) : Agree move.owner
      (deltas.insert (move.owner, move.mint) value)
      (alike.insert (move.owner, move.mint) value) := by
    intro mint
    rw [AssocMap.get_insert, AssocMap.get_insert, agree]
  unfold addDelta at added ⊢
  rw [← agree]
  cases found : deltas.get (move.owner, move.mint) with
  | none =>
    rw [found] at added
    obtain rfl := Outcome.ok.inj added
    exact ⟨_, rfl, stored move⟩
  | some known =>
    rw [found] at added
    obtain ⟨sum, summed, inserted⟩ := (Outcome.bind_ok_iff _ _ _).mp added
    obtain rfl := Outcome.ok.inj inserted
    simp only [summed, Outcome.ok_bind, Outcome.pure_eq]
    exact ⟨_, rfl, stored _⟩

/-- What additions make of the changes of an owner, the owner's own additions make of them
alone. By induction on the additions. -/
theorem addMoves_own {ε : Type} (profile : Profile) (owner : Pubkey) (moves : List BalanceDelta)
    (deltas result alike : Deltas) (agree : Agree owner deltas alike)
    (added : (addMoves profile moves deltas : Outcome ε Deltas) = .ok result) :
    ∃ alikeResult, (addMoves profile (own owner moves) alike : Outcome ε Deltas) =
      .ok alikeResult ∧ Agree owner result alikeResult := by
  induction moves generalizing deltas alike with
  | nil =>
    obtain rfl := Outcome.ok.inj added
    exact ⟨alike, rfl, agree⟩
  | cons move rest inductionHypothesis =>
    obtain ⟨next, addedMove, addedRest⟩ := (Outcome.bind_ok_iff _ _ _).mp added
    by_cases mine : move.owner = owner
    · obtain ⟨alikeNext, addedAlike, agreeNext⟩ :=
        addDelta_own profile owner move deltas next alike agree addedMove mine
      have kept : own owner (move :: rest) = move :: own owner rest := by
        simp [own, mine]
      rw [kept, addMoves, addedAlike, Outcome.ok_bind]
      exact inductionHypothesis next alikeNext agreeNext addedRest
    · have unseen := addDelta_other profile owner move deltas next addedMove mine
      have dropped : own owner (move :: rest) = own owner rest := by
        simp [own, mine]
      rw [dropped]
      exact inductionHypothesis next alike (fun mint => (unseen mint).trans (agree mint))
        addedRest

/-- Additions with the same changes of an owner keep maps in agreement. -/
theorem addMoves_agree {ε : Type} (profile : Profile) (owner : Pubkey)
    (moves others : List BalanceDelta) (same : own owner moves = own owner others)
    (deltas result alike alikeResult : Deltas) (agree : Agree owner deltas alike)
    (added : (addMoves profile moves deltas : Outcome ε Deltas) = .ok result)
    (alsoAdded : (addMoves profile others alike : Outcome ε Deltas) = .ok alikeResult) :
    Agree owner result alikeResult := by
  obtain ⟨alone, addedAlone, reduced⟩ :=
    addMoves_own profile owner moves deltas result alike agree added
  obtain ⟨alsoAlone, alsoAddedAlone, alsoReduced⟩ :=
    addMoves_own profile owner others alike alikeResult alike (fun _ => rfl) alsoAdded
  rw [same] at addedAlone
  obtain rfl := Outcome.ok.inj (addedAlone.symm.trans alsoAddedAlone)
  exact fun mint => (reduced mint).trans (alsoReduced mint).symm

/-- The changes of an owner among the contributions of accounts. -/
theorem own_contributions {A : Type} (move : A → Outcome TxParseError (Option BalanceDelta))
    (owner : Pubkey) (accounts : List A) :
    own owner (contributions move accounts) = accounts.filterMap
      (fun account => (move account).toOption.join.filter (fun d => d.owner = owner)) := by
  unfold own contributions
  rw [List.filter_filterMap]

/-! ## The token pass -/

/-- The indices are listed from the least on. -/
theorem allIndices_sorted : allIndices.Pairwise (· ≤ ·) := by
  rw [allIndices, List.pairwise_map]
  apply List.Pairwise.imp_of_mem _ List.pairwise_lt_range
  intro first second inFirst inSecond below
  have firstBound := List.mem_range.mp inFirst
  have secondBound := List.mem_range.mp inSecond
  rw [UInt8.le_iff_toNat_le, UInt8.toNat_ofNat_of_lt' firstBound,
    UInt8.toNat_ofNat_of_lt' secondBound]
  omega

/-- The indices of the snapshots, chosen from all. -/
theorem indices_filter (orders : DiffOrders)
    (pre post : AssocMap UInt8 UiTransactionTokenBalance) :
    indices orders pre post = allIndices.filter
      (fun index => (pre.get index).isSome ∨ (post.get index).isSome) := by
  apply List.Perm.eq_of_pairwise'
    ((List.pairwise_insertionSort (· ≤ ·) _).sublist (List.dedup_sublist _))
    (allIndices_sorted.filter _)
  apply (List.perm_ext_iff_of_nodup (indices_nodup orders pre post)
    (allIndices_nodup.filter _)).mpr
  intro index
  rw [mem_indices, List.mem_filter]
  simp [mem_allIndices]

/-- What a token account contributes to an owner. -/
def tokenPart (codecs : RpcCodecs) (profile : Profile) (owner : Pubkey)
    (entries : Option UiTransactionTokenBalance × Option UiTransactionTokenBalance) :
    Option BalanceDelta :=
  (tokenMove codecs profile entries.1 entries.2).toOption.join.filter
    (fun d => d.owner = owner)

/-- An account that is not the owner's contributes nothing to the owner. -/
theorem tokenPart_none (codecs : RpcCodecs) (profile : Profile) (owner : Pubkey)
    (entries : Option UiTransactionTokenBalance × Option UiTransactionTokenBalance)
    (others : ¬ Owned codecs owner entries) : tokenPart codecs profile owner entries = none := by
  rw [tokenPart, Option.filter_eq_none_iff]
  intro d contribution mine
  rw [Option.join_eq_some_iff, Outcome.toOption_eq_some] at contribution
  obtain ⟨_, _, recorded, chosen, readable, _⟩ :=
    tokenMove_some codecs profile entries.1 entries.2 d contribution
  exact others ⟨recorded, d.owner, chosen, readable, by simpa using mine⟩

/-- The token pass, in the changes of an owner, visits all indices. -/
theorem own_tokens (codecs : RpcCodecs) (profile : Profile) (orders : DiffOrders)
    (owner : Pubkey) (pre post : AssocMap UInt8 UiTransactionTokenBalance) :
    own owner (contributions (fun index => tokenMove codecs profile (pre.get index)
        (post.get index)) (indices orders pre post)) =
      allIndices.filterMap
        (fun index => tokenPart codecs profile owner (pre.get index, post.get index)) := by
  rw [own_contributions, indices_filter, List.filterMap_filter]
  apply List.filterMap_congr
  intro index _
  split
  · rfl
  · rename_i absent
    simp only [decide_eq_true_eq, not_or, Option.not_isSome_iff_eq_none] at absent
    symm
    apply tokenPart_none
    rintro ⟨recorded, _, chosen, _⟩
    simp [absent.1, absent.2] at chosen

/-- Readings that are alike agree after the token pass. -/
theorem tokens_agree (codecs : RpcCodecs) (profile : Profile) (owner : Pubkey)
    (first second : Reading) (alike : AlikeFor codecs owner first second)
    (deltas others : Deltas)
    (computed : tokenDeltas codecs profile first.orders
      (first.rendered.preTokenBalances.toDefault [])
      (first.rendered.postTokenBalances.toDefault []) = .ok deltas)
    (alsoComputed : tokenDeltas codecs profile second.orders
      (second.rendered.preTokenBalances.toDefault [])
      (second.rendered.postTokenBalances.toDefault []) = .ok others) :
    Agree owner deltas others := by
  obtain ⟨_, added⟩ := addAll_ok _ _ _ _ _ computed
  obtain ⟨_, alsoAdded⟩ := addAll_ok _ _ _ _ _ alsoComputed
  refine addMoves_agree profile owner _ _ ?_ .empty deltas .empty others (fun _ => rfl) added
    alsoAdded
  rw [own_tokens, own_tokens]
  apply List.filterMap_congr
  intro index _
  change tokenPart codecs profile owner (first.entriesAt index) =
    tokenPart codecs profile owner (second.entriesAt index)
  rcases alike.tokens index with same | ⟨notFirst, notSecond⟩
  · rw [same]
  · rw [tokenPart_none codecs profile owner _ notFirst,
      tokenPart_none codecs profile owner _ notSecond]

/-! ## The lamport pass -/

/-- A change in lamports, unless there is none. -/
def lamportPart (owner : Pubkey) (change : Int) : Option BalanceDelta :=
  if change = 0 then none else some ⟨owner, solMint, change, 9⟩

/-- The lamport pass, in the changes of an owner, reads the changes of the owner's accounts. -/
theorem own_lamports (profile : Profile) (preBalances postBalances : List UInt64)
    (owner : Pubkey) (accounts : List (Pubkey × Nat)) :
    own owner (contributions (lamportMove profile preBalances postBalances) accounts) =
      ((accounts.filter (fun account => account.1 = owner)).map
        (fun account => lamportChange preBalances postBalances account.2)).filterMap
          (lamportPart owner) := by
  rw [own_contributions, List.filterMap_map, List.filterMap_filter]
  apply List.filterMap_congr
  intro account _
  rw [lamportMove_ok, Outcome.toOption_ok, Option.join_some]
  by_cases mine : account.1 = owner
  · by_cases unchanged : lamportChange preBalances postBalances account.2 = 0
    · simp [mine, unchanged, lamportPart]
    · simp [mine, unchanged, lamportPart]
  · by_cases unchanged : lamportChange preBalances postBalances account.2 = 0
    · simp [mine, unchanged]
    · simp [mine, unchanged]

/-- The lamport pass adds what the accounts contribute; without account keys there are
none. -/
theorem lamportDeltas_moves (codecs : RpcCodecs) (profile : Profile) (reading : Reading)
    (deltas result : Deltas)
    (computed : lamportDeltas profile reading.rendered.preBalances
      reading.rendered.postBalances
      (accountKeys codecs reading.transaction reading.rendered) deltas = .ok result) :
    (addMoves profile (contributions (lamportMove profile reading.rendered.preBalances
      reading.rendered.postBalances) (reading.keys codecs).zipIdx) deltas :
        Outcome TxParseError Deltas) = .ok result := by
  unfold lamportDeltas at computed
  unfold Reading.keys
  cases readable : accountKeys codecs reading.transaction reading.rendered with
  | none =>
    rw [readable] at computed
    exact computed
  | some keys =>
    rw [readable] at computed
    exact (addAll_ok _ _ _ _ _ computed).2

/-- Readings that are alike agree after both passes. -/
theorem computeRawDeltas_agree (codecs : RpcCodecs) (profile : Profile) (owner : Pubkey)
    (first second : Reading) (reads : first.Reads codecs) (alsoReads : second.Reads codecs)
    (alike : AlikeFor codecs owner first second) (deltas others : Deltas)
    (computed : computeRawDeltas codecs profile first.orders first.tx = .ok deltas)
    (alsoComputed : computeRawDeltas codecs profile second.orders second.tx = .ok others) :
    Agree owner deltas others := by
  obtain ⟨rendered, transaction, tokens, recorded, decoded, _, tokenPass, lamportPass⟩ :=
    computeRawDeltas_ok codecs profile first.orders first.tx deltas computed
  obtain ⟨otherRendered, otherTransaction, otherTokens, alsoRecorded, alsoDecoded, _,
    otherTokenPass, otherLamportPass⟩ :=
    computeRawDeltas_ok codecs profile second.orders second.tx others alsoComputed
  obtain rfl := Option.some.inj (reads.recorded.symm.trans recorded)
  obtain rfl := Option.some.inj (reads.decoded.symm.trans decoded)
  obtain rfl := Option.some.inj (alsoReads.recorded.symm.trans alsoRecorded)
  obtain rfl := Option.some.inj (alsoReads.decoded.symm.trans alsoDecoded)
  refine addMoves_agree profile owner _ _ ?_ tokens deltas otherTokens others
    (tokens_agree codecs profile owner first second alike tokens otherTokens tokenPass
      otherTokenPass)
    (lamportDeltas_moves codecs profile first tokens deltas lamportPass)
    (lamportDeltas_moves codecs profile second otherTokens others otherLamportPass)
  rw [own_lamports, own_lamports]
  exact congrArg (List.filterMap (lamportPart owner)) alike.lamports

/-! ## The merge -/

/-- A fee that another pays is not seen. -/
theorem addFee_other {ε : Type} (profile : Profile) (owner feePayer : Pubkey)
    (feeLamports : UInt64) (deltas credited : Deltas) (other : feePayer ≠ owner)
    (fee : (addFee profile feePayer feeLamports deltas : Outcome ε Deltas) = .ok credited) :
    Agree owner credited deltas := by
  intro mint
  unfold addFee at fee
  cases found : deltas.get (feePayer, solMint) with
  | none =>
    rw [found] at fee
    obtain rfl := Outcome.ok.inj fee
    rfl
  | some known =>
    rw [found] at fee
    obtain ⟨sum, _, stored⟩ := (Outcome.bind_ok_iff _ _ _).mp fee
    obtain rfl := Outcome.ok.inj stored
    have different : (feePayer, solMint) ≠ (owner, mint) :=
      fun same => other (congrArg Prod.fst same)
    rw [AssocMap.get_insert, if_neg different]

/-- The owner's own fee is given back alike to maps that agree. -/
theorem addFee_own {ε : Type} (profile : Profile) (owner : Pubkey) (feeLamports : UInt64)
    (deltas credited alike alikeCredited : Deltas) (agree : Agree owner deltas alike)
    (fee : (addFee profile owner feeLamports deltas : Outcome ε Deltas) = .ok credited)
    (alsoFee : (addFee profile owner feeLamports alike : Outcome ε Deltas) =
      .ok alikeCredited) : Agree owner credited alikeCredited := by
  unfold addFee at fee alsoFee
  rw [← agree] at alsoFee
  cases found : deltas.get (owner, solMint) with
  | none =>
    rw [found] at fee alsoFee
    obtain rfl := Outcome.ok.inj fee
    obtain rfl := Outcome.ok.inj alsoFee
    exact agree
  | some known =>
    rw [found] at fee alsoFee
    obtain ⟨sum, summed, stored⟩ := (Outcome.bind_ok_iff _ _ _).mp fee
    obtain ⟨alsoSum, alsoSummed, alsoStored⟩ := (Outcome.bind_ok_iff _ _ _).mp alsoFee
    obtain rfl := Outcome.ok.inj (summed.symm.trans alsoSummed)
    obtain rfl := Outcome.ok.inj stored
    obtain rfl := Outcome.ok.inj alsoStored
    intro mint
    rw [AssocMap.get_insert, AssocMap.get_insert, agree]

/-- Fees that are alike for an owner keep maps in agreement. -/
theorem addFee_agree {ε : Type} (profile : Profile) (owner : Pubkey)
    (payer otherPayer : Pubkey) (lamports otherLamports : UInt64)
    (fees : payer = owner ∨ otherPayer = owner → payer = otherPayer ∧ lamports = otherLamports)
    (deltas credited alike alikeCredited : Deltas) (agree : Agree owner deltas alike)
    (fee : (addFee profile payer lamports deltas : Outcome ε Deltas) = .ok credited)
    (alsoFee : (addFee profile otherPayer otherLamports alike : Outcome ε Deltas) =
      .ok alikeCredited) : Agree owner credited alikeCredited := by
  by_cases pays : payer = owner ∨ otherPayer = owner
  · obtain ⟨rfl, rfl⟩ := fees pays
    obtain rfl := pays.elim id id
    exact addFee_own profile payer lamports deltas credited alike alikeCredited agree fee alsoFee
  · obtain ⟨notFirst, notSecond⟩ := not_or.mp pays
    have unseen := addFee_other profile owner payer lamports deltas credited notFirst fee
    have alsoUnseen :=
      addFee_other profile owner otherPayer otherLamports alike alikeCredited notSecond alsoFee
    exact fun mint => (unseen mint).trans ((agree mint).trans (alsoUnseen mint).symm)

/-! ## The swaps of one owner -/

/-- Maps that agree hold the same changes of the owner, in some order. -/
theorem entries_agree (owner : Pubkey) (first second : Deltas)
    (agree : Agree owner first second) :
    (first.entries.filter (fun entry => entry.1.1 = owner)).Perm
      (second.entries.filter (fun entry => entry.1.1 = owner)) := by
  apply (List.perm_ext_iff_of_nodup (first.distinct.of_map.filter _)
    (second.distinct.of_map.filter _)).mpr
  rintro ⟨⟨holder, mint⟩, value⟩
  simp only [List.mem_filter, AssocMap.mem_entries, decide_eq_true_eq]
  constructor
  · rintro ⟨found, rfl⟩
    exact ⟨agree mint ▸ found, rfl⟩
  · rintro ⟨found, rfl⟩
    exact ⟨(agree mint).symm ▸ found, rfl⟩

/-- They have the same losses, in some order. -/
theorem lossesOf_agree (owner : Pubkey) (first second : Deltas)
    (agree : Agree owner first second) :
    (lossesOf first owner).Perm (lossesOf second owner) := by
  have losses := ((entries_agree owner first second agree).filter
    (fun entry => entry.2.delta < 0)).map
      (fun entry => (entry.1.2, soldAmount entry.2.delta, entry.2.decimals))
  simpa [lossesOf, List.filter_filter, Bool.and_comm] using losses

/-- They have the same gains, in some order. -/
theorem gainsOf_agree (owner : Pubkey) (first second : Deltas)
    (agree : Agree owner first second) :
    (gainsOf first owner).Perm (gainsOf second owner) := by
  have gains := ((entries_agree owner first second agree).filter
    (fun entry => 0 < entry.2.delta)).map
      (fun entry => (entry.1.2, entry.2.delta, entry.2.decimals))
  simpa [gainsOf, List.filter_filter, Bool.and_comm] using gains

/-- The swaps of an owner: at most one, which says what it has to. -/
theorem exactSwaps_of (isOnCurve : Pubkey → Bool) (deltas : Deltas) (events : List SwapEvent)
    (exact : ExactSwaps isOnCurve deltas events) (owner : Pubkey) :
    (events.filter (fun event => event.trader = owner)).map contents =
      if owner ∈ events.map SwapEvent.trader then [saying isOnCurve deltas owner] else [] := by
  have byTrader : (events.filter (fun event => event.trader = owner)).map contents =
      ((events.map SwapEvent.trader).filter (fun trader => trader = owner)).map
        (saying isOnCurve deltas) := by
    rw [List.filter_map, List.map_map]
    apply List.map_congr_left
    intro event member
    have inEvents := (List.mem_filter.mp member).1
    simp only [contents, Function.comp_apply, saying, exact.mediated event inEvents,
      Multiset.coe_eq_coe.mpr (exact.sold event inEvents),
      Multiset.coe_eq_coe.mpr (exact.bought event inEvents)]
  rw [byTrader, List.filter_eq, exact.once.count]
  split <;> rfl

/-- A detection that succeeds clusters merged changes exactly. -/
theorem detectSwaps_merged (codecs : RpcCodecs) (profile : Profile) (isOnCurve : Pubkey → Bool)
    (reading : Reading) (events : List SwapEvent)
    (detected : reading.detect codecs profile isOnCurve = .ok events) :
    ∃ deltas credited merged,
      computeRawDeltas codecs profile reading.orders reading.tx = .ok deltas ∧
      (addFee profile reading.feePayer reading.feeLamports deltas :
        Outcome TxParseError Deltas) = .ok credited ∧
      (∀ key, merged.get key = settled key (credited.get key)) ∧
      ExactSwaps isOnCurve merged events := by
  obtain ⟨deltas, computed, rest⟩ := (Outcome.bind_ok_iff _ _ _).mp detected
  obtain ⟨merged, merges, clustered⟩ := (Outcome.bind_ok_iff _ _ _).mp rest
  obtain ⟨credited, fee, proper, gets⟩ := mergeSolAndWsol_settles profile reading.orders
    reading.feePayer reading.feeLamports deltas merged
    (computeRawDeltas_proper codecs profile reading.orders reading.tx deltas computed) merges
  have negatable := clusterIntoSwaps_negatable profile reading.orders isOnCurve merged proper
    events clustered
  have same := Outcome.ok.inj ((clusterIntoSwaps_ok profile reading.orders isOnCurve merged proper
    negatable).symm.trans clustered)
  exact ⟨deltas, credited, merged, computed, fee, gets,
    same ▸ swapOf_exact reading.orders isOnCurve merged proper⟩

/-- What is reported of an owner does not depend on what does not concern the owner. -/
theorem detect_local (codecs : RpcCodecs) (profile : Profile) (isOnCurve : Pubkey → Bool)
    (owner : Pubkey) (first second : Reading) (reads : first.Reads codecs)
    (alsoReads : second.Reads codecs) (alike : AlikeFor codecs owner first second)
    (events others : List SwapEvent)
    (detected : first.detect codecs profile isOnCurve = .ok events)
    (alsoDetected : second.detect codecs profile isOnCurve = .ok others) :
    (events.filter (fun event => event.trader = owner)).map contents =
      (others.filter (fun event => event.trader = owner)).map contents := by
  obtain ⟨deltas, credited, merged, computed, fee, gets, exact⟩ :=
    detectSwaps_merged codecs profile isOnCurve first events detected
  obtain ⟨otherDeltas, otherCredited, otherMerged, alsoComputed, alsoFee, otherGets, alsoExact⟩ :=
    detectSwaps_merged codecs profile isOnCurve second others alsoDetected
  have raw := computeRawDeltas_agree codecs profile owner first second reads alsoReads alike
    deltas otherDeltas computed alsoComputed
  have paid := addFee_agree profile owner _ _ _ _ alike.fees deltas credited otherDeltas
    otherCredited raw fee alsoFee
  have agree : Agree owner merged otherMerged := by
    intro mint
    rw [gets, otherGets, paid]
  have losses := lossesOf_agree owner merged otherMerged agree
  have gains := gainsOf_agree owner merged otherMerged agree
  rw [exactSwaps_of isOnCurve merged events exact, exactSwaps_of isOnCurve otherMerged others
    alsoExact]
  simp only [exact.traders, alsoExact.traders, perm_ne_nil _ _ losses, perm_ne_nil _ _ gains,
    saying, Multiset.coe_eq_coe.mpr losses, Multiset.coe_eq_coe.mpr gains]

/-! ## One trade in two transactions -/

/-- The trade of 100, and the same trade beside a token account and lamports of the one who
pays the fee, which is another. -/
def tradeAlone : Reading where
  orders := default
  tx := plainTx (trade "100" "0")
  rendered := trade "100" "0"
  transaction := ⟨[⟨List.replicate 64 7⟩],
    .legacy ⟨⟨1, 0, 0⟩, plainKeys, ⟨List.replicate 32 1⟩, []⟩⟩
  feePayer := ⟨4⟩
  feeLamports := 5

/-- A token account of the one who pays the fee. -/
def otherBalance (amount : String) : UiTransactionTokenBalance :=
  plainBalance boughtMint 5 3 amount "11111111111111111111111111111115"

/-- What is recorded of the trade in company. -/
def tradeBesideMeta : UiTransactionStatusMeta :=
  plainMeta [4000, 20, 30] [995, 20, 30]
    ((trade "100" "0").preTokenBalances.toDefault [] ++ [otherBalance "2"])
    ((trade "100" "0").postTokenBalances.toDefault [] ++ [otherBalance "9"])

/-- The trade in company. -/
def tradeBeside : Reading :=
  { tradeAlone with
    tx := plainTx tradeBesideMeta
    rendered := tradeBesideMeta
    feeLamports := 6 }

/-- An entry at the end of the list does not hide those of other accounts. -/
theorem snapshot_append (balances : List UiTransactionTokenBalance)
    (last : UiTransactionTokenBalance) (index : UInt8) (other : last.accountIndex ≠ index) :
    (snapshot (balances ++ [last])).get index = (snapshot balances).get index := by
  simp [snapshot, AssocMap.ofList, other]

/-- The two are alike for the one who trades. -/
theorem tradeBeside_alike : AlikeFor plainCodecs ⟨7⟩ tradeAlone tradeBeside := by
  constructor
  case tokens =>
    intro index
    by_cases company : (3 : UInt8) = index
    · subst company
      refine Or.inr ⟨?_, ?_⟩
      · rintro ⟨recorded, _, chosen, _⟩
        have nothing : (none : Option UiTransactionTokenBalance) = some recorded := chosen
        simp at nothing
      · rintro ⟨recorded, holder, chosen, readable, mine⟩
        have later : some (otherBalance "9") = some recorded := chosen
        obtain rfl := Option.some.inj later
        have known : some (⟨4⟩ : Pubkey) = some holder := readable
        obtain rfl := Option.some.inj known
        simp at mine
    · left
      apply Prod.ext
      · exact (snapshot_append _ (otherBalance "2") index company).symm
      · exact (snapshot_append _ (otherBalance "9") index company).symm
  case lamports => decide
  case fees => decide

/-- The swap of the trade is reported alike. -/
theorem detect_local_trade :
    ∃ events others,
      tradeAlone.detect plainCodecs ⟨true⟩ (fun _ => true) = .ok events ∧
      tradeBeside.detect plainCodecs ⟨true⟩ (fun _ => true) = .ok others ∧
      (events.filter (fun event => event.trader = ⟨7⟩)).map contents =
        (others.filter (fun event => event.trader = ⟨7⟩)).map contents := by
  have detected : ∃ events,
      tradeAlone.detect plainCodecs ⟨true⟩ (fun _ => true) = .ok events := by
    simp only [Reading.detect, detectSwaps, computeRawDeltas, tradeAlone, plain_decoded]
    exact ⟨_, rfl⟩
  have alsoDetected : ∃ events,
      tradeBeside.detect plainCodecs ⟨true⟩ (fun _ => true) = .ok events := by
    simp only [Reading.detect, detectSwaps, computeRawDeltas, tradeBeside, plain_decoded]
    exact ⟨_, rfl⟩
  obtain ⟨events, detected⟩ := detected
  obtain ⟨others, alsoDetected⟩ := alsoDetected
  exact ⟨events, others, detected, alsoDetected,
    detect_local plainCodecs ⟨true⟩ (fun _ => true) ⟨7⟩ tradeAlone tradeBeside
      ⟨rfl, plain_decoded _⟩ ⟨rfl, plain_decoded _⟩ tradeBeside_alike events others detected
      alsoDetected⟩

end Graced.OwnerLocality
