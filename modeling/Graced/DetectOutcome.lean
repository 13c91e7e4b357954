import Graced.SwapEvents

/-!
# When swaps are detected

With token amounts of 64 bits no sum of the detector leaves its range, so that a detection
never panics, in either build. It fails for one of four reasons, of which the first in order
is reported, and succeeds otherwise.
-/

namespace Graced.DetectOutcome

open BalanceDiff SwapEvents

/-- The owner of a token account, as recorded. -/
def ownerText (pre post : Option UiTransactionTokenBalance) : Option String :=
  (post.or pre).bind (fun recorded => recorded.owner.toOption)

/-- An owner is recorded and is not the text of a key. -/
def unreadable (codecs : RpcCodecs) (pre post : Option UiTransactionTokenBalance) : Bool :=
  match ownerText pre post with
  | none => false
  | some text => (codecs.pubkeyFromStr text).isNone

/-- Some token account of the snapshots has an owner that cannot be read. -/
def unreadableOwner (codecs : RpcCodecs) (preToken postToken : List UiTransactionTokenBalance) :
    Bool :=
  allIndices.any (fun index =>
    unreadable codecs ((snapshot preToken).get index) ((snapshot postToken).get index))

/-- Why no swaps are detected: the first reason that holds. -/
def refusal (codecs : RpcCodecs) (tx : EncodedConfirmedTransactionWithStatusMeta) :
    Option TxParseError :=
  match tx.transaction.metadata with
  | none => some .missingMeta
  | some rendered =>
    if codecs.decodeTransaction tx.transaction.transaction = none then some .failedDecodeTx
    else if rendered.err.isSome then some .transactionFailed
    else if unreadableOwner codecs (rendered.preTokenBalances.toDefault [])
      (rendered.postTokenBalances.toDefault []) then some .invalidPubkey
    else none

/-- The sizes of a transaction that exists: token amounts of 64 bits, and no more account
keys than fit into memory. -/
structure Sized (codecs : RpcCodecs) (tx : EncodedConfirmedTransactionWithStatusMeta) : Prop where
  amounts : ∀ rendered, tx.transaction.metadata = some rendered →
    U64Amounts (rendered.preTokenBalances.toDefault []) ∧
      U64Amounts (rendered.postTokenBalances.toDefault [])
  keys : ∀ rendered transaction keys, tx.transaction.metadata = some rendered →
    codecs.decodeTransaction tx.transaction.transaction = some transaction →
    accountKeys codecs transaction rendered = some keys → keys.iter.length < 2 ^ 60

/-- Every key counts. -/
abbrev anyKey : DeltaKey → Bool := fun _ => true

/-! ## Passes with room -/

/-- An addition for which there is room succeeds. -/
theorem addDelta_room {ε : Type} (profile : Profile) (deltas : Deltas) (move : BalanceDelta)
    (room : (deltaOf deltas (keyOf move)).natAbs + move.delta.natAbs < 2 ^ 127) :
    ∃ result, (addDelta profile deltas move : Outcome ε Deltas) = .ok result := by
  unfold addDelta
  cases found : deltas.get (move.owner, move.mint) with
  | none => exact ⟨_, rfl⟩
  | some known =>
    have stored : deltaOf deltas (keyOf move) = known.delta := by simp [deltaOf, keyOf, found]
    have fits : InI128 (known.delta + move.delta) := by
      unfold InI128
      omega
    exact ⟨_, by simp only [Profile.add128, i128_fits profile _ fits, Outcome.ok_bind]; rfl⟩

/-- A pass for whose changes there is room fails only where a change cannot be evaluated,
and then as the first one that cannot. By induction on the accounts; the room that is used up
bounds what the map holds. -/
theorem addAll_outcome {A : Type} (profile : Profile)
    (move : A → Outcome TxParseError (Option BalanceDelta)) (failure : TxParseError)
    (fails : A → Bool) (bound : Nat) (accounts : List A)
    (failing : ∀ account ∈ accounts, fails account = true → move account = .err failure)
    (passing : ∀ account ∈ accounts, fails account = false → ∃ contribution,
      move account = .ok contribution ∧ ∀ d, contribution = some d → d.delta.natAbs ≤ bound)
    (deltas : Deltas) (used : Nat) (within : Within anyKey used deltas)
    (room : used + accounts.length * bound < 2 ^ 127) :
    if accounts.any fails then addAll profile move accounts deltas = .err failure
    else ∃ result, addAll profile move accounts deltas = .ok result := by
  induction accounts generalizing deltas used with
  | nil => exact ⟨deltas, rfl⟩
  | cons account rest inductionHypothesis =>
    obtain ⟨failingHere, failingRest⟩ := List.forall_mem_cons.mp failing
    obtain ⟨passingHere, passingRest⟩ := List.forall_mem_cons.mp passing
    rw [List.length_cons, Nat.add_mul, Nat.one_mul] at room
    cases here : fails account with
    | true =>
      rw [List.any_cons, here, Bool.true_or, if_pos rfl, addAll, failingHere here,
        Outcome.err_bind]
    | false =>
      obtain ⟨contribution, evaluated, small⟩ := passingHere here
      rw [List.any_cons, here, Bool.false_or, addAll, evaluated, Outcome.ok_bind]
      cases contribution with
      | none =>
        exact inductionHypothesis failingRest passingRest deltas used within (by omega)
      | some d =>
        have size := small d rfl
        have before := within (keyOf d) rfl
        obtain ⟨next, added⟩ : ∃ next,
            (addDelta profile deltas d : Outcome TxParseError Deltas) = .ok next :=
          addDelta_room profile deltas d (by omega)
        have single : (addMoves profile [d] deltas : Outcome TxParseError Deltas) = .ok next := by
          rw [addMoves, added]
          rfl
        obtain ⟨grown, _⟩ := addMoves_exact profile anyKey [d] deltas next single bound used
          (by simpa using size) within (by rw [List.length_singleton]; omega)
        rw [List.length_singleton, Nat.one_mul] at grown
        simp only [added, Outcome.ok_bind]
        exact inductionHypothesis failingRest passingRest next (used + bound) grown (by omega)

/-! ## The token pass -/

/-- An account of whose snapshot entries neither exists has no owner to be read. -/
theorem unreadable_none (codecs : RpcCodecs) : unreadable codecs none none = false := rfl

/-- An account with an owner that cannot be read is an error. -/
theorem tokenMove_unreadable (codecs : RpcCodecs) (profile : Profile)
    (pre post : Option UiTransactionTokenBalance) (fails : unreadable codecs pre post = true) :
    tokenMove codecs profile pre post = .err .invalidPubkey := by
  unfold unreadable ownerText at fails
  unfold tokenMove
  cases chosen : post.or pre with
  | none => simp [chosen] at fails
  | some recorded =>
    simp only [chosen, Option.bind_some] at fails
    cases text : recorded.owner.toOption with
    | none => simp [text] at fails
    | some text' =>
      simp only [text, Option.isNone_iff_eq_none] at fails
      simp [text, fails]

/-- Any other account is evaluated, if its change fits. -/
theorem tokenMove_readable (codecs : RpcCodecs) (profile : Profile)
    (pre post : Option UiTransactionTokenBalance) (passes : unreadable codecs pre post = false)
    (fits : InI128 (amountOf post - amountOf pre)) :
    ∃ contribution, tokenMove codecs profile pre post = .ok contribution ∧
      ∀ d, contribution = some d → d.delta = amountOf post - amountOf pre := by
  unfold unreadable ownerText at passes
  unfold tokenMove
  cases chosen : post.or pre with
  | none => exact ⟨none, rfl, by simp⟩
  | some recorded =>
    simp only [chosen, Option.bind_some] at passes
    cases text : recorded.owner.toOption with
    | none => exact ⟨none, by simp [text], by simp⟩
    | some text' =>
      simp only [text, Option.isNone_eq_false_iff, Option.isSome_iff_exists] at passes
      obtain ⟨owner, readable⟩ := passes
      simp only [text, readable, Outcome.okOr_some, Outcome.ok_bind, Profile.sub128,
        i128_fits profile _ fits, Outcome.pure_eq]
      split
      · exact ⟨none, rfl, by simp⟩
      · refine ⟨_, rfl, ?_⟩
        intro d same
        obtain rfl := Option.some.inj same
        rfl

/-- Every account with an unreadable owner is visited. -/
theorem any_indices (codecs : RpcCodecs) (orders : DiffOrders)
    (preToken postToken : List UiTransactionTokenBalance) :
    (indices orders (snapshot preToken) (snapshot postToken)).any
        (fun index => unreadable codecs ((snapshot preToken).get index)
          ((snapshot postToken).get index)) = unreadableOwner codecs preToken postToken := by
  rw [unreadableOwner, Bool.eq_iff_iff, List.any_eq_true, List.any_eq_true]
  constructor
  · rintro ⟨index, _, fails⟩
    exact ⟨index, mem_allIndices index, fails⟩
  · rintro ⟨index, _, fails⟩
    refine ⟨index, (mem_indices orders _ _ index).mpr ?_, fails⟩
    by_contra absent
    rw [not_or, Option.not_isSome_iff_eq_none, Option.not_isSome_iff_eq_none] at absent
    rw [absent.1, absent.2, unreadable_none] at fails
    exact Bool.false_ne_true fails

/-- The token pass fails exactly with an unreadable owner. Otherwise what it finds is small. -/
theorem tokenDeltas_outcome (codecs : RpcCodecs) (profile : Profile) (orders : DiffOrders)
    (preToken postToken : List UiTransactionTokenBalance) (preAmounts : U64Amounts preToken)
    (postAmounts : U64Amounts postToken) :
    if unreadableOwner codecs preToken postToken then
      tokenDeltas codecs profile orders preToken postToken = .err .invalidPubkey
    else ∃ deltas, tokenDeltas codecs profile orders preToken postToken = .ok deltas ∧
      Within anyKey (256 * 2 ^ 64) deltas := by
  have few := indices_length orders (snapshot preToken) (snapshot postToken)
  have small := smallAmounts_of_u64 codecs anyKey preToken postToken preAmounts postAmounts
  have outcome := addAll_outcome profile
    (fun index => tokenMove codecs profile ((snapshot preToken).get index)
      ((snapshot postToken).get index)) .invalidPubkey
    (fun index => unreadable codecs ((snapshot preToken).get index)
      ((snapshot postToken).get index)) (2 ^ 64)
    (indices orders (snapshot preToken) (snapshot postToken))
    (fun index _ fails => tokenMove_unreadable codecs profile _ _ fails)
    (by
      intro index _ passes
      have pre := amountOf_range preToken preAmounts index
      have post := amountOf_range postToken postAmounts index
      obtain ⟨contribution, evaluated, exact⟩ := tokenMove_readable codecs profile _ _ passes (by
        unfold InI128
        omega)
      refine ⟨contribution, evaluated, ?_⟩
      intro d same
      have size := exact d same
      omega)
    .empty 0 (by intro key _; simp [deltaOf]) (by omega)
  rw [any_indices] at outcome
  by_cases fails : unreadableOwner codecs preToken postToken = true
  · rw [if_pos fails] at outcome ⊢
    exact outcome
  · rw [if_neg fails] at outcome ⊢
    obtain ⟨deltas, computed⟩ := outcome
    exact ⟨deltas, computed,
      (tokenDeltas_totals codecs profile orders anyKey preToken postToken deltas computed small).1⟩

/-! ## The lamport pass and the merge -/

/-- The lamport pass always succeeds, and what it finds is small. -/
theorem lamportDeltas_outcome (profile : Profile) (preBalances postBalances : List UInt64)
    (keys : Option AccountKeys) (few : ∀ present, keys = some present →
      present.iter.length < 2 ^ 60) (deltas : Deltas)
    (within : Within anyKey (256 * 2 ^ 64) deltas) :
    ∃ result, lamportDeltas profile preBalances postBalances keys deltas = .ok result ∧
      Within anyKey (2 ^ 125) result := by
  cases keys with
  | none =>
    refine ⟨deltas, rfl, ?_⟩
    intro key counted
    have before := within key counted
    omega
  | some keys =>
    have short := few keys rfl
    have outcome := addAll_outcome profile (lamportMove profile preBalances postBalances)
      .invalidPubkey (fun _ => false) (2 ^ 64) keys.iter.zipIdx (by simp)
      (by
        intro account _ _
        refine ⟨_, lamportMove_ok profile preBalances postBalances account, ?_⟩
        intro d same
        split at same
        · simp at same
        · obtain rfl := Option.some.inj same
          exact lamportChange_range preBalances postBalances account.2)
      deltas (256 * 2 ^ 64) within (by rw [List.length_zipIdx]; omega)
    obtain ⟨result, computed⟩ : ∃ result, addAll profile
        (lamportMove profile preBalances postBalances) keys.iter.zipIdx deltas = .ok result := by
      simpa using outcome
    refine ⟨result, computed, ?_⟩
    intro key counted
    have after := (lamportDeltas_totals profile anyKey preBalances postBalances keys deltas result
      computed (256 * 2 ^ 64) within (by omega)).1 key counted
    omega

/-- Small changes are merged and clustered. -/
theorem clusters_outcome (profile : Profile) (orders : DiffOrders) (isOnCurve : Pubkey → Bool)
    (feePayer : Pubkey) (feeLamports : UInt64) (deltas : Deltas) (proper : Proper deltas)
    (within : Within anyKey (2 ^ 125) deltas) :
    ∃ merged events,
      (mergeSolAndWsol profile orders feePayer feeLamports deltas : Outcome TxParseError Deltas) =
        .ok merged ∧
      (clusterIntoSwaps profile orders isOnCurve merged :
        Outcome TxParseError (List SwapEvent)) = .ok events := by
  have atPayer := within (feePayer, solMint) rfl
  have lamports := feeLamports.toNat_lt
  obtain ⟨credited, fee, _, totals⟩ : ∃ credited,
      (addFee profile feePayer feeLamports deltas : Outcome TxParseError Deltas) = .ok credited ∧
      (∀ key, key ≠ (feePayer, solMint) → credited.get key = deltas.get key) ∧
      ∀ counted, totalOf counted credited = totalOf counted deltas +
        if (deltas.get (feePayer, solMint)).isSome ∧ counted (feePayer, solMint) then
          (feeLamports.toNat : Int) else 0 :=
    addFee_exact profile feePayer feeLamports deltas (by omega)
  obtain ⟨merged, merges, _⟩ :=
    mergeSolAndWsol_ok profile orders feePayer feeLamports deltas credited fee
  obtain ⟨alike, alikeFee, mergedProper, gets⟩ := mergeSolAndWsol_settles profile orders feePayer
    feeLamports deltas merged proper merges
  obtain rfl := Outcome.ok.inj (fee.symm.trans alikeFee)
  refine ⟨merged, _, merges, clusterIntoSwaps_ok profile orders isOnCurve merged mergedProper ?_⟩
  rintro key d found _ ⟨_, least⟩
  have before := within key rfl
  have total := totals (fun stored => stored = key)
  rw [totalOf_key, totalOf_key] at total
  have settles := settled_delta key (credited.get key)
  rw [← gets, found] at settles
  have stored : deltaOf credited key = d.delta := by
    cases there : credited.get key with
    | none => simp [there] at settles
    | some known => simpa [there, deltaOf] using settles.symm
  split at total <;> omega

/-- A detection reports the first reason against it, and succeeds if there is none. -/
theorem detectSwaps_outcome (codecs : RpcCodecs) (profile : Profile) (orders : DiffOrders)
    (isOnCurve : Pubkey → Bool) (tx : EncodedConfirmedTransactionWithStatusMeta)
    (feePayer : Pubkey) (feeLamports : UInt64) (sized : Sized codecs tx) :
    (∀ error, refusal codecs tx = some error →
      detectSwaps codecs profile orders isOnCurve tx feePayer feeLamports = .err error) ∧
    (refusal codecs tx = none → ∃ events,
      detectSwaps codecs profile orders isOnCurve tx feePayer feeLamports = .ok events) := by
  unfold refusal
  cases recorded : tx.transaction.metadata with
  | none => simp [detectSwaps, computeRawDeltas, recorded]
  | some rendered =>
    obtain ⟨preAmounts, postAmounts⟩ := sized.amounts rendered recorded
    cases decoded : codecs.decodeTransaction tx.transaction.transaction with
    | none => simp [detectSwaps, computeRawDeltas, recorded, decoded]
    | some transaction =>
      by_cases failed : rendered.err.isSome = true
      · simp [detectSwaps, computeRawDeltas, recorded, decoded, failed]
      · have tokens := tokenDeltas_outcome codecs profile orders _ _ preAmounts postAmounts
        by_cases unread : unreadableOwner codecs (rendered.preTokenBalances.toDefault [])
            (rendered.postTokenBalances.toDefault []) = true
        · rw [if_pos unread] at tokens
          simp [detectSwaps, computeRawDeltas, recorded, decoded, failed, unread, tokens]
        · rw [if_neg unread] at tokens
          obtain ⟨deltas, tokenPass, small⟩ := tokens
          obtain ⟨result, lamportPass, within⟩ := lamportDeltas_outcome profile
            rendered.preBalances rendered.postBalances (accountKeys codecs transaction rendered)
            (fun keys => sized.keys rendered transaction keys recorded decoded) deltas small
          have computed : computeRawDeltas codecs profile orders tx = .ok result := by
            simp [computeRawDeltas, recorded, decoded, failed, tokenPass, lamportPass]
          obtain ⟨merged, events, merges, clustered⟩ := clusters_outcome profile orders isOnCurve
            feePayer feeLamports result
            (computeRawDeltas_proper codecs profile orders tx result computed) within
          refine ⟨by simp [failed, unread], fun _ => ⟨events, ?_⟩⟩
          rw [detectSwaps, computed, Outcome.ok_bind, merges, Outcome.ok_bind, clustered]

/-- A trade has the sizes. -/
theorem trade_sized : Sized plainCodecs (plainTx (trade "100" "0")) := by
  constructor
  case amounts =>
    intro rendered recorded
    obtain rfl := Option.some.inj recorded
    constructor
    · intro balance member
      obtain rfl := List.mem_singleton.mp member
      exact ⟨100, by decide⟩
    · intro balance member
      rcases List.mem_pair.mp member with rfl | rfl
      · exact ⟨7, by decide⟩
      · exact ⟨0, by decide⟩
  case keys =>
    intro rendered transaction keys recorded decoded present
    obtain rfl := Option.some.inj recorded
    rw [plain_decoded] at decoded
    obtain rfl := Option.some.inj decoded
    obtain rfl := Option.some.inj present
    decide

/-- Nothing speaks against a transaction without an error whose owners can be read. -/
theorem refusal_plain (rendered : UiTransactionStatusMeta) (succeeded : rendered.err = none)
    (readable : unreadableOwner plainCodecs (rendered.preTokenBalances.toDefault [])
      (rendered.postTokenBalances.toDefault []) = false) :
    refusal plainCodecs (plainTx rendered) = none := by
  have recorded : (plainTx rendered).transaction.metadata = some rendered := rfl
  simp [refusal, recorded, plain_decoded, succeeded, readable]

/-- The trade is detected. -/
theorem trade_detected :
    ∃ events, detectSwaps plainCodecs ⟨true⟩ default (fun _ => true)
      (plainTx (trade "100" "0")) ⟨4⟩ 5 = .ok events :=
  (detectSwaps_outcome plainCodecs ⟨true⟩ default (fun _ => true) (plainTx (trade "100" "0")) ⟨4⟩
    5 trade_sized).2 (refusal_plain (trade "100" "0") rfl (by decide +kernel))

end Graced.DetectOutcome
