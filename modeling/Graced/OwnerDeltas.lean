import Graced.RawDeltas

/-!
# The net change of an owner

The net change of an owner in a mint is what the owner's accounts hold after the transaction
less what they held before. The token pass attributes the whole change of an account to one
owner and one mint instead, those of its later entry. The two agree for an account that keeps
its owner and its mint, and for one that is opened or closed. What an account held under an
earlier owner or mint is counted in the wrong place.
-/

namespace Graced.OwnerDeltas

open BalanceDiff

variable (codecs : RpcCodecs)

/-- The balance is one of the owner in the mint. -/
def OwnedBy (key : DeltaKey) (balance : UiTransactionTokenBalance) : Prop :=
  balance.owner.toOption.bind codecs.pubkeyFromStr = some key.1 ∧ balance.mint = key.2

instance (key : DeltaKey) (balance : UiTransactionTokenBalance) :
    Decidable (OwnedBy codecs key balance) := inferInstanceAs (Decidable (_ ∧ _))

/-- What one entry holds for the owner in the mint. -/
def part (key : DeltaKey) (balance : UiTransactionTokenBalance) : Int :=
  if OwnedBy codecs key balance then amountOf (some balance) else 0

/-- What the owner holds in the mint. -/
def held (key : DeltaKey) (balances : List UiTransactionTokenBalance) : Int :=
  (balances.map (part codecs key)).sum

/-- What was held before in accounts whose earlier entry has one property and whose later entry
has another. -/
def crossing (before after : UiTransactionTokenBalance → Bool)
    (preToken postToken : List UiTransactionTokenBalance) : Int :=
  (preToken.map (fun earlier =>
    if before earlier ∧ ∃ later ∈ postToken, later.accountIndex = earlier.accountIndex ∧
      after later then amountOf (some earlier) else 0)).sum

/-- What was held before in accounts that are taken over by another owner or mint. -/
def leaving (key : DeltaKey) (preToken postToken : List UiTransactionTokenBalance) : Int :=
  crossing (fun earlier => OwnedBy codecs key earlier) (fun later => ¬ OwnedBy codecs key later)
    preToken postToken

/-- What was held before in accounts that are taken over from another owner or mint. -/
def joining (key : DeltaKey) (preToken postToken : List UiTransactionTokenBalance) : Int :=
  crossing (fun earlier => ¬ OwnedBy codecs key earlier) (fun later => OwnedBy codecs key later)
    preToken postToken

/-! ## One account -/

/-- What one account held before, if its entries have these properties. -/
def crossingPart (before after : UiTransactionTokenBalance → Bool)
    (pre post : Option UiTransactionTokenBalance) : Int :=
  match pre, post with
  | some earlier, some later => if before earlier ∧ after later then amountOf (some earlier) else 0
  | _, _ => 0

/-- What one account held before it left. -/
def leavingPart (key : DeltaKey) : Option UiTransactionTokenBalance →
    Option UiTransactionTokenBalance → Int :=
  crossingPart (fun earlier => OwnedBy codecs key earlier)
    (fun later => ¬ OwnedBy codecs key later)

/-- What one account held before it joined. -/
def joiningPart (key : DeltaKey) : Option UiTransactionTokenBalance →
    Option UiTransactionTokenBalance → Int :=
  crossingPart (fun earlier => ¬ OwnedBy codecs key earlier)
    (fun later => OwnedBy codecs key later)

/-- What the token pass attributes of an account whose recorded entry is known. -/
theorem attributed_recorded (key : DeltaKey) (pre post : Option UiTransactionTokenBalance)
    (recorded : UiTransactionTokenBalance) (chosen : post.or pre = some recorded) :
    attributed codecs (fun stored => stored = key) pre post =
      if OwnedBy codecs key recorded then amountOf post - amountOf pre else 0 := by
  simp only [attributed, chosen]
  split
  · rename_i unreadable
    simp [OwnedBy, unreadable]
  · rename_i owner readable
    simp [OwnedBy, readable, Prod.ext_iff]

/-- The error that the token pass makes at one account: it misses that the earlier amount
left, and takes for a loss that it was there when the account joined. -/
theorem attributed_part (key : DeltaKey) (pre post : Option UiTransactionTokenBalance) :
    attributed codecs (fun stored => stored = key) pre post +
        (AssocMap.weigh (part codecs key) pre + joiningPart codecs key pre post) =
      AssocMap.weigh (part codecs key) post + leavingPart codecs key pre post := by
  cases post with
  | none =>
    cases pre with
    | none => simp [attributed, leavingPart, joiningPart, crossingPart]
    | some earlier =>
      rw [attributed_recorded codecs key (some earlier) none earlier rfl]
      by_cases owned : OwnedBy codecs key earlier <;>
        simp [leavingPart, joiningPart, crossingPart, part, owned, amountOf]
  | some later =>
    rw [attributed_recorded codecs key pre (some later) later rfl]
    cases pre with
    | none =>
      by_cases owned : OwnedBy codecs key later <;>
        simp [leavingPart, joiningPart, crossingPart, part, owned, amountOf]
    | some earlier =>
      by_cases before : OwnedBy codecs key earlier <;>
        by_cases after : OwnedBy codecs key later <;>
          simp [leavingPart, joiningPart, crossingPart, part, before, after]

/-! ## All accounts -/

/-- What is listed weighs as much as what the indices find. -/
theorem sum_snapshot (balances : List UiTransactionTokenBalance)
    (distinct : DistinctIndices balances) (weight : UiTransactionTokenBalance → Int) :
    (allIndices.map (fun index => AssocMap.weigh weight ((snapshot balances).get index))).sum =
      (balances.map weight).sum := by
  have keys : ((balances.map (fun b => (b.accountIndex, b))).map Prod.fst).Nodup := by
    simpa [DistinctIndices, List.map_map, Function.comp_def] using distinct
  rw [snapshot, AssocMap.sum_ofList weight allIndices allIndices_nodup _ keys
    (fun pair _ => mem_allIndices pair.1), List.map_map]
  rfl

/-- A later entry of the account with a property is what its index finds. -/
theorem exists_later (postToken : List UiTransactionTokenBalance)
    (distinct : DistinctIndices postToken) (index : UInt8)
    (property : UiTransactionTokenBalance → Prop) :
    (∃ later ∈ postToken, later.accountIndex = index ∧ property later) ↔
      ∃ later, (snapshot postToken).get index = some later ∧ property later := by
  constructor
  · rintro ⟨later, member, same, holds⟩
    exact ⟨later, (snapshot_get postToken distinct index later).mpr ⟨member, same⟩, holds⟩
  · rintro ⟨later, found, holds⟩
    obtain ⟨member, same⟩ := (snapshot_get postToken distinct index later).mp found
    exact ⟨later, member, same, holds⟩

/-- What crosses over, account by account. -/
theorem crossing_parts (before after : UiTransactionTokenBalance → Bool)
    (preToken postToken : List UiTransactionTokenBalance)
    (distinctPre : DistinctIndices preToken) (distinctPost : DistinctIndices postToken) :
    crossing before after preToken postToken = (allIndices.map (fun index =>
      crossingPart before after ((snapshot preToken).get index)
        ((snapshot postToken).get index))).sum := by
  unfold crossing
  rw [← sum_snapshot preToken distinctPre]
  apply congrArg
  apply List.map_congr_left
  intro index _
  cases found : (snapshot preToken).get index with
  | none => simp [crossingPart]
  | some earlier =>
    obtain ⟨_, rfl⟩ := snapshot_mem preToken index earlier found
    simp only [AssocMap.weigh_some, exists_later postToken distinctPost earlier.accountIndex]
    cases (snapshot postToken).get earlier.accountIndex <;> simp [crossingPart]

/-- What is attributed to an owner in a mint, against the net change. -/
theorem attributed_net (preToken postToken : List UiTransactionTokenBalance)
    (distinctPre : DistinctIndices preToken) (distinctPost : DistinctIndices postToken)
    (key : DeltaKey) :
    (allIndices.map (fun index => attributed codecs (fun stored => stored = key)
        ((snapshot preToken).get index) ((snapshot postToken).get index))).sum =
      held codecs key postToken - held codecs key preToken +
        leaving codecs key preToken postToken - joining codecs key preToken postToken := by
  have balanced := congrArg List.sum (congrArg (fun parts => allIndices.map parts) (funext
    (fun index => attributed_part codecs key ((snapshot preToken).get index)
      ((snapshot postToken).get index))))
  simp only [List.sum_map_add, sum_snapshot preToken distinctPre,
    sum_snapshot postToken distinctPost] at balanced
  simp only [leavingPart, joiningPart,
    ← crossing_parts _ _ preToken postToken distinctPre distinctPost] at balanced
  unfold held leaving joining
  omega

/-- What the token pass finds for an owner in a mint, against the net change. -/
theorem tokenDeltas_net (profile : Profile) (orders : DiffOrders)
    (preToken postToken : List UiTransactionTokenBalance) (deltas : Deltas)
    (computed : tokenDeltas codecs profile orders preToken postToken = .ok deltas)
    (preAmounts : U64Amounts preToken) (postAmounts : U64Amounts postToken)
    (distinctPre : DistinctIndices preToken) (distinctPost : DistinctIndices postToken)
    (key : DeltaKey) :
    deltaOf deltas key = held codecs key postToken - held codecs key preToken +
      leaving codecs key preToken postToken - joining codecs key preToken postToken := by
  have totals := (tokenDeltas_totals codecs profile orders (fun stored => stored = key) preToken
    postToken deltas computed (smallAmounts_of_u64 codecs _ _ _ preAmounts postAmounts)).2
  rw [totalOf_key] at totals
  rw [totals, attributed_net codecs preToken postToken distinctPre distinctPost key]

/-- The change that is found for an owner in a mint other than wrapped lamports is the net
change exactly when the accounts that left it held as much before as those that joined it. -/
theorem net_change_iff (profile : Profile) (orders : DiffOrders)
    (tx : EncodedConfirmedTransactionWithStatusMeta) (rendered : UiTransactionStatusMeta)
    (deltas : Deltas) (recorded : tx.transaction.metadata = some rendered)
    (computed : computeRawDeltas codecs profile orders tx = .ok deltas)
    (distinctPre : DistinctIndices (rendered.preTokenBalances.toDefault []))
    (distinctPost : DistinctIndices (rendered.postTokenBalances.toDefault []))
    (preAmounts : U64Amounts (rendered.preTokenBalances.toDefault []))
    (postAmounts : U64Amounts (rendered.postTokenBalances.toDefault []))
    (owner : Pubkey) (mint : String) (other : mint ≠ solMint) :
    deltaOf deltas (owner, mint) =
        held codecs (owner, mint) (rendered.postTokenBalances.toDefault []) -
          held codecs (owner, mint) (rendered.preTokenBalances.toDefault []) ↔
      leaving codecs (owner, mint) (rendered.preTokenBalances.toDefault [])
          (rendered.postTokenBalances.toDefault []) =
        joining codecs (owner, mint) (rendered.preTokenBalances.toDefault [])
          (rendered.postTokenBalances.toDefault []) := by
  obtain ⟨found, transaction, tokens, alsoRecorded, _, _, tokenPass, lamportPass⟩ :=
    computeRawDeltas_ok codecs profile orders tx deltas computed
  obtain rfl := Option.some.inj (recorded.symm.trans alsoRecorded)
  have same : deltaOf deltas (owner, mint) = deltaOf tokens (owner, mint) := by
    unfold deltaOf
    rw [lamportDeltas_get_other profile _ _ _ tokens deltas lamportPass owner mint other]
  rw [same, tokenDeltas_net codecs profile orders _ _ tokens tokenPass preAmounts postAmounts
    distinctPre distinctPost (owner, mint)]
  omega

/-! ## Two transactions -/

/-- A mint with six decimals. -/
def dollarMint : String := "EPjFWdd5AufqSSqeM2qN1xzybapC8G4wEGGkZwyTDt1v"

/-- One of its balances. -/
def dollars : UInt8 → String → String → UiTransactionTokenBalance := plainBalance dollarMint 6

/-- A transaction in which the first owner hands the account of index 1, with 100 in it, to
the second. -/
def handover : UiTransactionStatusMeta :=
  plainMeta [1000, 20, 30] [995, 20, 30]
    [dollars 1 "100" "11111111111111111111111111111115"]
    [dollars 1 "100" "11111111111111111111111111111118"]

/-- One in which that owner is paid 100 into an account that exists. -/
def payment : UiTransactionStatusMeta :=
  plainMeta [1000, 20, 30] [995, 20, 30]
    [dollars 1 "50" "11111111111111111111111111111118"]
    [dollars 1 "150" "11111111111111111111111111111118"]

/-- The amounts of the transfer are numerals of 64 bits. -/
theorem handover_amounts : U64Amounts (handover.preTokenBalances.toDefault []) ∧
    U64Amounts (handover.postTokenBalances.toDefault []) := by
  have hundred : Numerals.parseI128 "100" = some ((100 : UInt64).toNat : Int) := by decide
  constructor
  · intro balance member
    obtain rfl := List.mem_singleton.mp member
    exact ⟨100, hundred⟩
  · intro balance member
    obtain rfl := List.mem_singleton.mp member
    exact ⟨100, hundred⟩

/-- The account that was handed over is missed altogether. -/
theorem handover_missed :
    DistinctIndices (handover.preTokenBalances.toDefault []) ∧
      DistinctIndices (handover.postTokenBalances.toDefault []) ∧
      U64Amounts (handover.preTokenBalances.toDefault []) ∧
      U64Amounts (handover.postTokenBalances.toDefault []) ∧ dollarMint ≠ solMint ∧
    ∃ deltas, computeRawDeltas plainCodecs ⟨true⟩ default (plainTx handover) = .ok deltas ∧
      deltaOf deltas (⟨7⟩, dollarMint) = 0 ∧
      held plainCodecs (⟨7⟩, dollarMint) (handover.postTokenBalances.toDefault []) -
        held plainCodecs (⟨7⟩, dollarMint) (handover.preTokenBalances.toDefault []) = 100 := by
  refine ⟨by decide, by decide, handover_amounts.1, handover_amounts.2, by decide, ?_⟩
  rw [computeRawDeltas, plain_decoded]
  refine ⟨_, rfl, ?_, ?_⟩
  · decide
  · decide

/-- The payment is found. -/
theorem net_change_of_payment :
    ∃ deltas, computeRawDeltas plainCodecs ⟨true⟩ default (plainTx payment) = .ok deltas ∧
      deltaOf deltas (⟨7⟩, dollarMint) =
        held plainCodecs (⟨7⟩, dollarMint) (payment.postTokenBalances.toDefault []) -
          held plainCodecs (⟨7⟩, dollarMint) (payment.preTokenBalances.toDefault []) := by
  have computed : ∃ deltas,
      computeRawDeltas plainCodecs ⟨true⟩ default (plainTx payment) = .ok deltas := by
    rw [computeRawDeltas, plain_decoded]
    exact ⟨_, rfl⟩
  obtain ⟨deltas, computed⟩ := computed
  refine ⟨deltas, computed, (net_change_iff plainCodecs ⟨true⟩ default (plainTx payment) payment
    deltas rfl computed (by decide) (by decide) ?_ ?_ ⟨7⟩ dollarMint (by decide)).mpr (by decide)⟩
  · intro balance member
    obtain rfl := List.mem_singleton.mp member
    exact ⟨50, by decide⟩
  · intro balance member
    obtain rfl := List.mem_singleton.mp member
    exact ⟨150, by decide⟩

end Graced.OwnerDeltas
