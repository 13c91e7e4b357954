import Graced.DeltaRuns
import Mathlib.Algebra.BigOperators.Group.Finset.Basic

/-!
# What the two passes find

The token pass visits every account index of the snapshots once and attributes the whole
change of the account to one owner and one mint. The lamport pass visits every account key.
Amounts of 64 bits leave the additions so much room that none of them overflows. What the
passes find is therefore a sum over the accounts, in either build and under any choice of
keys.
-/

namespace Graced.BalanceDiff

/-- The amounts of a snapshot are numerals of the type `u64`. -/
def U64Amounts (balances : List UiTransactionTokenBalance) : Prop :=
  ∀ balance ∈ balances, ∃ amount : UInt64,
    Numerals.parseI128 balance.uiTokenAmount.amount = some (amount.toNat : Int)

/-- No two entries of the snapshot are for one account. -/
def DistinctIndices (balances : List UiTransactionTokenBalance) : Prop :=
  (balances.map (fun balance => balance.accountIndex)).Nodup

instance (balances : List UiTransactionTokenBalance) : Decidable (DistinctIndices balances) :=
  inferInstanceAs (Decidable (List.Nodup _))

/-- Every index that a `u8` can be. -/
def allIndices : List UInt8 := (List.range 256).map UInt8.ofNat

/-- What the token pass attributes of one account to counted keys: its whole change, if the
owner of the later entry and its mint are counted. -/
def attributed (codecs : RpcCodecs) (counted : DeltaKey → Bool)
    (pre post : Option UiTransactionTokenBalance) : Int :=
  match post.or pre with
  | none => 0
  | some recorded =>
    match recorded.owner.toOption.bind codecs.pubkeyFromStr with
    | none => 0
    | some owner => if counted (owner, recorded.mint) then amountOf post - amountOf pre else 0

/-- The account is attributed to a counted key. -/
def AttributedTo (codecs : RpcCodecs) (counted : DeltaKey → Bool)
    (pre post : Option UiTransactionTokenBalance) : Prop :=
  ∃ recorded owner, post.or pre = some recorded ∧
    recorded.owner.toOption.bind codecs.pubkeyFromStr = some owner ∧
    counted (owner, recorded.mint) = true

/-- The accounts that are attributed to counted keys hold amounts of 64 bits. -/
def SmallAmounts (codecs : RpcCodecs) (counted : DeltaKey → Bool)
    (preToken postToken : List UiTransactionTokenBalance) : Prop :=
  ∀ index, AttributedTo codecs counted ((snapshot preToken).get index)
      ((snapshot postToken).get index) →
    (0 ≤ amountOf ((snapshot preToken).get index) ∧
      amountOf ((snapshot preToken).get index) < 2 ^ 64) ∧
    0 ≤ amountOf ((snapshot postToken).get index) ∧
      amountOf ((snapshot postToken).get index) < 2 ^ 64

/-- The lamports of an account, where one that is not listed has none. -/
def lamportsAt (balances : List UInt64) (index : Nat) : Nat := ((balances[index]?).getD 0).toNat

/-- The change of an account in lamports. -/
def lamportChange (preBalances postBalances : List UInt64) (index : Nat) : Int :=
  (lamportsAt postBalances index : Int) - lamportsAt preBalances index

/-! ## Snapshots -/

/-- A snapshot holds entries of its list, under their own index. -/
theorem snapshot_mem (balances : List UiTransactionTokenBalance) (index : UInt8)
    (balance : UiTransactionTokenBalance)
    (found : (snapshot balances).get index = some balance) :
    balance ∈ balances ∧ balance.accountIndex = index := by
  have member := AssocMap.ofList_mem _ index balance found
  obtain ⟨listed, inList, same⟩ := List.mem_map.mp member
  obtain ⟨rfl, rfl⟩ := Prod.mk.inj same
  exact ⟨inList, rfl⟩

/-- With distinct indices a snapshot holds every entry of its list. -/
theorem snapshot_get (balances : List UiTransactionTokenBalance)
    (distinct : DistinctIndices balances) (index : UInt8)
    (balance : UiTransactionTokenBalance) :
    (snapshot balances).get index = some balance ↔
      balance ∈ balances ∧ balance.accountIndex = index := by
  constructor
  · exact snapshot_mem balances index balance
  · rintro ⟨inList, rfl⟩
    have keys : ((balances.map (fun b => (b.accountIndex, b))).map Prod.fst).Nodup := by
      simpa [DistinctIndices, List.map_map, Function.comp_def] using distinct
    rw [← AssocMap.mem_entries, snapshot, AssocMap.ofList_entries _ keys]
    exact List.mem_map.mpr ⟨balance, inList, rfl⟩

/-- The amounts of a snapshot are in range. -/
theorem amountOf_range (balances : List UiTransactionTokenBalance) (amounts : U64Amounts balances)
    (index : UInt8) : 0 ≤ amountOf ((snapshot balances).get index) ∧
      amountOf ((snapshot balances).get index) < 2 ^ 64 := by
  cases found : (snapshot balances).get index with
  | none => simp [amountOf]
  | some balance =>
    obtain ⟨amount, parsed⟩ := amounts balance (snapshot_mem balances index balance found).1
    have bound := amount.toNat_lt
    simp only [amountOf, Option.bind_some, parsed, Option.getD_some]
    omega

/-- Numerals of the type `u64` are amounts of 64 bits under any keys. -/
theorem smallAmounts_of_u64 (codecs : RpcCodecs) (counted : DeltaKey → Bool)
    (preToken postToken : List UiTransactionTokenBalance) (preAmounts : U64Amounts preToken)
    (postAmounts : U64Amounts postToken) : SmallAmounts codecs counted preToken postToken :=
  fun index _ => ⟨amountOf_range preToken preAmounts index,
    amountOf_range postToken postAmounts index⟩

/-- The change of an account with such amounts is in range. -/
theorem smallAmounts_fits (codecs : RpcCodecs) (counted : DeltaKey → Bool)
    (preToken postToken : List UiTransactionTokenBalance)
    (small : SmallAmounts codecs counted preToken postToken) (index : UInt8)
    (here : AttributedTo codecs counted ((snapshot preToken).get index)
      ((snapshot postToken).get index)) :
    InI128 (amountOf ((snapshot postToken).get index) -
      amountOf ((snapshot preToken).get index)) := by
  have range := small index here
  unfold InI128
  omega

/-! ## The indices -/

theorem indices_nodup (orders : DiffOrders) (pre post : AssocMap UInt8 UiTransactionTokenBalance) :
    (indices orders pre post).Nodup := List.nodup_dedup _

/-- The indices are those of the two snapshots. -/
theorem mem_indices (orders : DiffOrders) (pre post : AssocMap UInt8 UiTransactionTokenBalance)
    (index : UInt8) :
    index ∈ indices orders pre post ↔ (pre.get index).isSome ∨ (post.get index).isSome := by
  unfold indices
  rw [List.mem_dedup, List.mem_insertionSort, List.mem_append,
    ((orders.preIndices.complete pre.entries).map Prod.fst).mem_iff,
    ((orders.postIndices.complete post.entries).map Prod.fst).mem_iff,
    AssocMap.mem_keys, AssocMap.mem_keys]

theorem mem_allIndices (index : UInt8) : index ∈ allIndices :=
  List.mem_map.mpr ⟨index.toNat, List.mem_range.mpr index.toNat_lt, UInt8.ofNat_toNat⟩

theorem allIndices_nodup : allIndices.Nodup := by
  apply List.Nodup.map_on _ List.nodup_range
  intro first inFirst second inSecond same
  have firstBound := List.mem_range.mp inFirst
  have secondBound := List.mem_range.mp inSecond
  have values := congrArg UInt8.toNat same
  rwa [UInt8.toNat_ofNat_of_lt' firstBound, UInt8.toNat_ofNat_of_lt' secondBound] at values

/-- There are at most 256 indices. -/
theorem indices_length (orders : DiffOrders)
    (pre post : AssocMap UInt8 UiTransactionTokenBalance) :
    (indices orders pre post).length ≤ 256 := by
  have included := (indices_nodup orders pre post).length_le_of_subset
    (fun index _ => mem_allIndices index)
  simpa [allIndices] using included

/-- A sum over the indices of the snapshots may run over all indices, if an account that is
in neither adds nothing. -/
theorem sum_indices (orders : DiffOrders) (pre post : AssocMap UInt8 UiTransactionTokenBalance)
    (weight : UInt8 → Int)
    (absent : ∀ index, pre.get index = none → post.get index = none → weight index = 0) :
    ((indices orders pre post).map weight).sum = (allIndices.map weight).sum := by
  rw [← List.sum_toFinset weight (indices_nodup orders pre post),
    ← List.sum_toFinset weight allIndices_nodup]
  apply Finset.sum_subset
  · intro index _
    exact List.mem_toFinset.mpr (mem_allIndices index)
  · intro index _ outside
    rw [List.mem_toFinset, mem_indices, not_or, Option.not_isSome_iff_eq_none,
      Option.not_isSome_iff_eq_none] at outside
    exact absent index outside.1 outside.2

/-! ## The token pass -/

/-- What a contribution says of its account. -/
theorem tokenMove_some (codecs : RpcCodecs) (profile : Profile)
    (pre post : Option UiTransactionTokenBalance) (d : BalanceDelta)
    (evaluated : tokenMove codecs profile pre post = .ok (some d)) :
    d.delta ≠ 0 ∧ (profile.sub128 (amountOf post) (amountOf pre) : Outcome TxParseError Int) =
      .ok d.delta ∧ ∃ recorded, post.or pre = some recorded ∧
        recorded.owner.toOption.bind codecs.pubkeyFromStr = some d.owner ∧
        recorded.mint = d.mint := by
  unfold tokenMove at evaluated
  cases chosen : post.or pre with
  | none => simp [chosen] at evaluated
  | some recorded =>
    simp only [chosen] at evaluated
    cases text : recorded.owner.toOption with
    | none => simp [text] at evaluated
    | some text' =>
      simp only [text, Outcome.bind_ok_iff, Outcome.okOr_eq_ok] at evaluated
      obtain ⟨owner, readable, delta, difference, rest⟩ := evaluated
      split at rest
      · simp at rest
      · rename_i changed
        obtain rfl := Option.some.inj (Outcome.ok.inj rest)
        exact ⟨changed, difference, recorded, rfl, by simp [text, readable], rfl⟩

/-- A contribution under a counted key is the change of an account attributed to it. -/
theorem tokenMove_counted (codecs : RpcCodecs) (profile : Profile) (counted : DeltaKey → Bool)
    (pre post : Option UiTransactionTokenBalance) (d : BalanceDelta)
    (evaluated : tokenMove codecs profile pre post = .ok (some d))
    (inside : counted (keyOf d) = true) :
    AttributedTo codecs counted pre post ∧
      (InI128 (amountOf post - amountOf pre) → d.delta = amountOf post - amountOf pre) := by
  obtain ⟨_, difference, recorded, chosen, readable, mint⟩ :=
    tokenMove_some codecs profile pre post d evaluated
  refine ⟨⟨recorded, d.owner, chosen, readable, by rwa [mint]⟩, ?_⟩
  intro fits
  rw [Profile.sub128, i128_fits profile _ fits] at difference
  exact (Outcome.ok.inj difference).symm

/-- An account that contributes nothing did not change, or its owner was not recorded. -/
theorem tokenMove_none (codecs : RpcCodecs) (profile : Profile)
    (pre post : Option UiTransactionTokenBalance)
    (evaluated : tokenMove codecs profile pre post = .ok none) (counted : DeltaKey → Bool)
    (fits : AttributedTo codecs counted pre post → InI128 (amountOf post - amountOf pre)) :
    attributed codecs counted pre post = 0 := by
  unfold tokenMove at evaluated
  unfold attributed
  cases chosen : post.or pre with
  | none => rfl
  | some recorded =>
    simp only [chosen] at evaluated ⊢
    cases text : recorded.owner.toOption with
    | none => rfl
    | some text' =>
      simp only [text, Outcome.bind_ok_iff, Outcome.okOr_eq_ok] at evaluated
      obtain ⟨owner, readable, delta, difference, rest⟩ := evaluated
      simp only [Option.bind_some, readable]
      split
      · rename_i inside
        have exact := fits ⟨recorded, owner, chosen, by simp [text, readable], inside⟩
        obtain rfl : amountOf post - amountOf pre = delta := by
          simpa [Profile.sub128, i128_fits profile _ exact] using difference
        split at rest
        · assumption
        · simp at rest
      · rfl

/-- An account whose change is in range contributes it to the owner and the mint to which it
is attributed. -/
theorem tokenMove_attributed (codecs : RpcCodecs) (profile : Profile)
    (pre post : Option UiTransactionTokenBalance) (contribution : Option BalanceDelta)
    (evaluated : tokenMove codecs profile pre post = .ok contribution)
    (counted : DeltaKey → Bool)
    (fits : AttributedTo codecs counted pre post → InI128 (amountOf post - amountOf pre)) :
    AssocMap.weigh (fun d => if counted (keyOf d) then d.delta else 0) contribution =
      attributed codecs counted pre post := by
  cases contribution with
  | none => exact (tokenMove_none codecs profile pre post evaluated counted fits).symm
  | some d =>
    obtain ⟨_, _, recorded, chosen, readable, mint⟩ :=
      tokenMove_some codecs profile pre post d evaluated
    simp only [attributed, chosen, readable, mint, AssocMap.weigh_some]
    by_cases inside : counted (keyOf d) = true
    · obtain ⟨here, exact⟩ := tokenMove_counted codecs profile counted pre post d evaluated inside
      rw [if_pos inside, exact (fits here)]
      exact (if_pos inside).symm
    · rw [if_neg inside]
      exact (if_neg inside).symm

/-- The token pass finds, under counted keys whose accounts hold amounts of 64 bits, what is
attributed to them. -/
theorem tokenDeltas_totals (codecs : RpcCodecs) (profile : Profile) (orders : DiffOrders)
    (counted : DeltaKey → Bool) (preToken postToken : List UiTransactionTokenBalance)
    (deltas : Deltas)
    (computed : tokenDeltas codecs profile orders preToken postToken = .ok deltas)
    (small : SmallAmounts codecs counted preToken postToken) :
    Within counted (256 * 2 ^ 64) deltas ∧ totalOf counted deltas =
      (allIndices.map (fun index => attributed codecs counted ((snapshot preToken).get index)
        ((snapshot postToken).get index))).sum := by
  obtain ⟨evaluated, _⟩ := addAll_ok _ _ _ _ _ computed
  have few := indices_length orders (snapshot preToken) (snapshot postToken)
  have fits := smallAmounts_fits codecs counted preToken postToken small
  obtain ⟨within, total⟩ := addAll_totals profile counted _ _ .empty deltas computed (2 ^ 64) 0
    (by
      intro index _ d moved inside
      obtain ⟨here, exact⟩ := tokenMove_counted codecs profile counted _ _ d moved inside
      have range := small index here
      rw [exact (fits index here)]
      omega)
    (by intro key _; simp [deltaOf]) (by omega)
  constructor
  · intro key countedKey
    have atKey := within key countedKey
    omega
  · rw [total, ← sum_indices orders (snapshot preToken) (snapshot postToken)]
    · simp only [totalOf, AssocMap.total_empty, Int.zero_add]
      apply congrArg
      apply List.map_congr_left
      intro index member
      obtain ⟨contribution, move⟩ := evaluated index member
      rw [move, Outcome.toOption_ok, Option.join_some]
      exact tokenMove_attributed codecs profile _ _ contribution move counted (fits index)
    · intro index missingPre missingPost
      simp [attributed, missingPre, missingPost]

/-! ## The lamport pass -/

/-- A change in lamports is less than the range of their type. -/
theorem lamportChange_range (preBalances postBalances : List UInt64) (index : Nat) :
    (lamportChange preBalances postBalances index).natAbs ≤ 2 ^ 64 := by
  have pre := ((preBalances[index]?).getD 0).toNat_lt
  have post := ((postBalances[index]?).getD 0).toNat_lt
  unfold lamportChange lamportsAt
  omega

/-- What an account contributes in lamports. -/
theorem lamportMove_ok (profile : Profile) (preBalances postBalances : List UInt64)
    (account : Pubkey × Nat) :
    lamportMove profile preBalances postBalances account =
      .ok (if lamportChange preBalances postBalances account.2 = 0 then none
        else some ⟨account.1, solMint, lamportChange preBalances postBalances account.2, 9⟩) := by
  have small := lamportChange_range preBalances postBalances account.2
  have exact : (profile.sub128 ((postBalances[account.2]?).getD 0).toNat
      ((preBalances[account.2]?).getD 0).toNat : Outcome TxParseError Int) =
      .ok (lamportChange preBalances postBalances account.2) :=
    i128_fits profile (lamportChange preBalances postBalances account.2) (by
      unfold InI128
      omega)
  simp only [lamportMove, exact, Outcome.ok_bind, Outcome.pure_eq]
  split <;> rfl

/-- The lamport pass adds, under counted keys, the changes of their accounts. -/
theorem lamportDeltas_totals (profile : Profile) (counted : DeltaKey → Bool)
    (preBalances postBalances : List UInt64) (keys : AccountKeys) (deltas result : Deltas)
    (computed : lamportDeltas profile preBalances postBalances (some keys) deltas = .ok result)
    (used : Nat) (within : Within counted used deltas)
    (room : used + keys.iter.length * 2 ^ 64 < 2 ^ 127) :
    Within counted (used + keys.iter.length * 2 ^ 64) result ∧
      totalOf counted result = totalOf counted deltas +
        (keys.iter.zipIdx.map (fun account => if counted (account.1, solMint) then
          lamportChange preBalances postBalances account.2 else 0)).sum := by
  obtain ⟨bounded, total⟩ := addAll_totals profile counted _ _ deltas result computed (2 ^ 64)
    used (by
      intro account _ d move _
      rw [lamportMove_ok] at move
      split at move
      · simp at move
      · obtain rfl := Option.some.inj (Outcome.ok.inj move)
        exact lamportChange_range preBalances postBalances account.2)
    within (by rwa [List.length_zipIdx])
  rw [List.length_zipIdx] at bounded
  refine ⟨bounded, ?_⟩
  rw [total]
  apply congrArg
  apply congrArg
  apply List.map_congr_left
  intro account _
  rw [lamportMove_ok, Outcome.toOption_ok, Option.join_some]
  split
  · rename_i unchanged
    simp [unchanged]
  · rfl

/-- The lamport pass leaves the other mints alone. -/
theorem lamportDeltas_get_other (profile : Profile) (preBalances postBalances : List UInt64)
    (keys : Option AccountKeys) (deltas result : Deltas)
    (computed : lamportDeltas profile preBalances postBalances keys deltas = .ok result)
    (owner : Pubkey) (mint : String) (other : mint ≠ solMint) :
    result.get (owner, mint) = deltas.get (owner, mint) := by
  cases keys with
  | none => exact congrArg (fun map => map.get (owner, mint)) (Outcome.ok.inj computed).symm
  | some keys =>
    obtain ⟨_, added⟩ := addAll_ok _ _ _ _ _ computed
    apply addMoves_get_other profile _ deltas result added
    intro move member same
    obtain ⟨account, _, contribution⟩ := List.mem_filterMap.mp member
    rw [lamportMove_ok, Outcome.toOption_ok, Option.join_some] at contribution
    split at contribution
    · simp at contribution
    · obtain rfl := Option.some.inj contribution
      exact other (Prod.mk.inj same).2.symm

/-- A computation that succeeds read a transaction without an error and made both passes. -/
theorem computeRawDeltas_ok (codecs : RpcCodecs) (profile : Profile) (orders : DiffOrders)
    (tx : EncodedConfirmedTransactionWithStatusMeta) (deltas : Deltas)
    (computed : computeRawDeltas codecs profile orders tx = .ok deltas) :
    ∃ rendered transaction tokens, tx.transaction.metadata = some rendered ∧
      codecs.decodeTransaction tx.transaction.transaction = some transaction ∧ rendered.err = none ∧
      tokenDeltas codecs profile orders (rendered.preTokenBalances.toDefault [])
        (rendered.postTokenBalances.toDefault []) = .ok tokens ∧
      lamportDeltas profile rendered.preBalances rendered.postBalances
        (accountKeys codecs transaction rendered) tokens = .ok deltas := by
  simp only [computeRawDeltas, Outcome.bind_ok_iff, Outcome.okOr_eq_ok] at computed
  obtain ⟨rendered, recorded, transaction, decoded, passes⟩ := computed
  split at passes
  · simp at passes
  · rename_i noError
    obtain ⟨tokens, tokenPass, lamportPass⟩ := (Outcome.bind_ok_iff _ _ _).mp passes
    exact ⟨rendered, transaction, tokens, recorded, decoded, by simpa using noError, tokenPass,
      lamportPass⟩

/-! ## A transaction without instructions -/

/-- A legacy transaction with three account keys and no instructions, in base64. -/
def plainText : String :=
    "AQcHBwcHBwcHBwcHBwcHBwcHBwcHBwcHBwcHBwcHBwcHBwcHBwcHBwcHBwcHBwcHBwcHBwcHBwcH" ++
    "BwcHBwcHBwcBAAADAAAAAAAAAAAAAAAAAAAAAAAAAAAAAAAAAAAAAAAAAAQAAAAAAAAAAAAAAAAA" ++
    "AAAAAAAAAAAAAAAAAAAAAAAABQAAAAAAAAAAAAAAAAAAAAAAAAAAAAAAAAAAAAAAAAAGAQEBAQEB" ++
    "AQEBAQEBAQEBAQEBAQEBAQEBAQEBAQEBAQEA"

/-- The keys of its accounts. The first pays the fee. -/
def plainKeys : List Pubkey := [⟨4⟩, ⟨5⟩, ⟨6⟩]

/-- The libraries, on this transaction and on the texts of two owners. -/
def plainCodecs : RpcCodecs where
  pubkeyFromStr text :=
    if text = "11111111111111111111111111111115" then some ⟨4⟩
    else if text = "11111111111111111111111111111118" then some ⟨7⟩
    else none
  decodeBase58 _ := .error "InvalidCharacter"
  decodeBase64 _ := .error "InvalidByte"
  decodeTransaction encoded :=
    if encoded = .base64 plainText then
      some ⟨[⟨List.replicate 64 7⟩],
        .legacy ⟨⟨1, 0, 0⟩, plainKeys, ⟨List.replicate 32 1⟩, []⟩⟩
    else none
  isSimpleVote _ := false

/-- What is recorded of a transaction that costs 5 lamports, of which only the balances
differ. -/
def plainMeta (preBalances postBalances : List UInt64)
    (preToken postToken : List UiTransactionTokenBalance) : UiTransactionStatusMeta where
  err := none
  status := .ok ()
  fee := 5
  preBalances := preBalances
  postBalances := postBalances
  innerInstructions := .skip
  logMessages := .skip
  preTokenBalances := .some preToken
  postTokenBalances := .some postToken
  rewards := .skip
  loadedAddresses := .skip
  returnData := .skip
  computeUnitsConsumed := .skip
  costUnits := .skip

/-- The transaction with this record. -/
def plainTx (rendered : UiTransactionStatusMeta) : EncodedConfirmedTransactionWithStatusMeta :=
  ⟨9, ⟨.base64 plainText, some rendered, some .legacy⟩, none⟩

/-- A token balance. -/
def plainBalance (mint : String) (decimals : UInt8) (index : UInt8) (amount owner : String) :
    UiTransactionTokenBalance :=
  ⟨index, mint, ⟨none, decimals, amount, amount⟩, .some owner, .skip⟩

/-- The text of the transaction is decoded. -/
theorem plain_decoded (rendered : UiTransactionStatusMeta) :
    plainCodecs.decodeTransaction (plainTx rendered).transaction.transaction =
      some ⟨[⟨List.replicate 64 7⟩],
        .legacy ⟨⟨1, 0, 0⟩, plainKeys, ⟨List.replicate 32 1⟩, []⟩⟩ := by
  simp [plainCodecs, plainTx]

end Graced.BalanceDiff
