import Graced.DetectorAgreement
import Graced.OwnerDeltas

/-!
# What a wallet holds and what is reported of it

A transaction's balances can be asked for those of a wallet in a mint. The detector never
asks; it attributes the change of every account to one owner. Over one record the two tell
the same story of a wallet: what is reported as sold is what its balances fell by, and what
is reported as bought is what they rose by, corrected by what its accounts held when they
changed hands. The raw amounts must come back from the numbers that are shown, which is all
that the balances are asked for.
-/

namespace Graced.WalletViews

open AmountReadings BalanceDiff SwapEvents OwnerLocality DetectorAgreement OwnerDeltas

/-- What the balances of a view add up to. -/
def viewed (profile : Profile) (view : List TransactionTokenBalance) :
    Outcome BalanceError Nat := do
  let amounts ← Outcome.collect (deriveAmount profile) view
  pure (amounts.map UInt64.toNat).sum

/-- A list of a report has the mint with an amount. -/
def Lists (entries : List MintEntry) (text : String) (amount : Int) : Prop :=
  ∃ decimals, (text, amount, decimals) ∈ entries

/-- The views of a wallet in a mint differ by a change, up to what its accounts held when they
were taken over by it or from it. -/
def Moved (env : Env) (codecs : RpcCodecs) (reading : Reading) (unified : UnifiedTx)
    (owner mint : Pubkey) (text : String) (change : Int) : Prop :=
  ∃ before after : Nat,
    viewed env.profile ((balancesOf unified).preTokenBalances env owner mint) = .ok before ∧
    viewed env.profile ((balancesOf unified).postTokenBalances env owner mint) = .ok after ∧
    (before : Int) + joining codecs (owner, text)
        (reading.rendered.preTokenBalances.toDefault [])
        (reading.rendered.postTokenBalances.toDefault []) + change =
      after + leaving codecs (owner, text) (reading.rendered.preTokenBalances.toDefault [])
        (reading.rendered.postTokenBalances.toDefault [])

/-- The amounts of an owner in a mint, before and after, are read back from the numbers that
are shown. -/
structure OwnReadable (codecs : RpcCodecs) (reading : Reading) (key : DeltaKey) : Prop where
  before : ∀ balance ∈ reading.rendered.preTokenBalances.toDefault [],
    OwnedBy codecs key balance → Faithful (some (Rpc.convertBalance balance))
  after : ∀ balance ∈ reading.rendered.postTokenBalances.toDefault [],
    OwnedBy codecs key balance → Faithful (some (Rpc.convertBalance balance))

/-- The text is the only one that names the mint. -/
structure Spells (codecs : RpcCodecs) (text : String) (mint : Pubkey) : Prop where
  readable : codecs.pubkeyFromStr text = some mint
  only : ∀ other, codecs.pubkeyFromStr other = some mint → other = text

/-! ## The views -/

/-- A balance is in the view of a wallet exactly if it is one of the owner in the mint. -/
theorem viewed_iff (env : Env) (codecs : RpcCodecs)
    (sameText : env.pubkeyFromStr = codecs.pubkeyFromStr)
    (nameless : codecs.pubkeyFromStr "" = none) (owner mint : Pubkey) (text : String)
    (spells : Spells codecs text mint) (balance : UiTransactionTokenBalance) :
    (env.pubkeyFromStr (Rpc.convertBalance balance).owner = some owner ∧
        env.pubkeyFromStr (Rpc.convertBalance balance).mint = some mint) ↔
      OwnedBy codecs (owner, text) balance := by
  rw [sameText]
  refine and_congr ?_ ⟨spells.only balance.mint, ?_⟩
  · change codecs.pubkeyFromStr (balance.owner.toDefault "") = some owner ↔
      balance.owner.toOption.bind codecs.pubkeyFromStr = some owner
    cases balance.owner <;> simp [OptionSerializer.toDefault, OptionSerializer.toOption, nameless]
  · intro same
    change codecs.pubkeyFromStr balance.mint = some mint
    rw [show balance.mint = text from same, spells.readable]

/-- The view of a wallet has the balances of the owner in the mint, as they were converted. -/
theorem view_owned (env : Env) (codecs : RpcCodecs)
    (sameText : env.pubkeyFromStr = codecs.pubkeyFromStr)
    (nameless : codecs.pubkeyFromStr "" = none) (owner mint : Pubkey) (text : String)
    (spells : Spells codecs text mint) (balances : List UiTransactionTokenBalance) :
    TxBalance.tokenBalances env (balances.map Rpc.convertBalance) owner mint =
      (balances.filter (OwnedBy codecs (owner, text))).map Rpc.convertBalance := by
  rw [TxBalance.tokenBalances, List.filter_map]
  congr 1
  apply List.filter_congr
  intro balance _
  exact decide_eq_decide.mpr
    (viewed_iff env codecs sameText nameless owner mint text spells balance)

/-- Converted balances add up to the amounts of their numerals, if these are read back. -/
theorem viewed_amounts (profile : Profile) (balances : List UiTransactionTokenBalance)
    (recorded : Recorded balances)
    (faithful : ∀ balance ∈ balances, Faithful (some (Rpc.convertBalance balance))) :
    ∃ total, viewed profile (balances.map Rpc.convertBalance) = .ok total ∧
      (total : Int) = (balances.map (fun balance => amountOf (some balance))).sum := by
  induction balances with
  | nil => exact ⟨0, rfl, rfl⟩
  | cons balance rest inductionHypothesis =>
    obtain ⟨total, adds, same⟩ := inductionHypothesis
      (fun other member => recorded other (List.mem_cons_of_mem balance member))
      (fun other member => faithful other (List.mem_cons_of_mem balance member))
    obtain ⟨amounts, collected, sum⟩ := (Outcome.bind_ok_iff _ _ _).mp adds
    obtain ⟨amount, numeral⟩ := recorded balance List.mem_cons_self
    have derived : (deriveAmount profile (Rpc.convertBalance balance) :
        Outcome BalanceError UInt64) = .ok amount :=
      amountOr_readsBack profile amount _ (faithful balance List.mem_cons_self amount numeral)
    have value : amountOf (some balance) = amount.toNat := amountOf_numeral balance amount numeral
    refine ⟨amount.toNat + total, ?_, ?_⟩
    · obtain rfl := Outcome.ok.inj sum
      simp [viewed, Outcome.collect, derived, collected]
    · rw [List.map_cons, List.sum_cons, value, ← same]
      omega

/-- What is listed of an owner in a mint is what those balances amount to. -/
theorem held_owned (codecs : RpcCodecs) (key : DeltaKey)
    (balances : List UiTransactionTokenBalance) :
    held codecs key balances =
      ((balances.filter (OwnedBy codecs key)).map fun balance => amountOf (some balance)).sum := by
  induction balances with
  | nil => rfl
  | cons balance rest inductionHypothesis =>
    rw [held, List.map_cons, List.sum_cons, part]
    rw [held] at inductionHypothesis
    by_cases owned : OwnedBy codecs key balance
    · rw [if_pos owned, List.filter_cons_of_pos (by simpa using owned), List.map_cons,
        List.sum_cons, inductionHypothesis]
    · rw [if_neg owned, List.filter_cons_of_neg (by simpa using owned), inductionHypothesis,
        Int.zero_add]

/-- The view of a wallet adds up to what the snapshot lists of the owner in the mint. -/
theorem viewed_held (env : Env) (codecs : RpcCodecs)
    (sameText : env.pubkeyFromStr = codecs.pubkeyFromStr)
    (nameless : codecs.pubkeyFromStr "" = none) (owner mint : Pubkey) (text : String)
    (spells : Spells codecs text mint) (balances : List UiTransactionTokenBalance)
    (recorded : Recorded balances)
    (faithful : ∀ balance ∈ balances, OwnedBy codecs (owner, text) balance →
      Faithful (some (Rpc.convertBalance balance))) :
    ∃ total, viewed env.profile
        (TxBalance.tokenBalances env (balances.map Rpc.convertBalance) owner mint) = .ok total ∧
      (total : Int) = held codecs (owner, text) balances := by
  obtain ⟨total, adds, same⟩ := viewed_amounts env.profile
    (balances.filter (OwnedBy codecs (owner, text)))
    (fun balance member => recorded balance (List.mem_of_mem_filter member))
    (fun balance member => faithful balance (List.mem_of_mem_filter member)
      (of_decide_eq_true (List.mem_filter.mp member).2))
  refine ⟨total, ?_, ?_⟩
  · rw [view_owned env codecs sameText nameless owner mint text spells, adds]
  · rw [held_owned, same]

/-! ## What is reported -/

/-- An owner's losses list a mint exactly with what was lost of it. -/
theorem losses_list (merged : Deltas) (owner : Pubkey) (text : String) (amount : Int)
    (sized : deltaOf merged (owner, text) ≠ -2 ^ 127) :
    Lists (lossesOf merged owner) text amount ↔
      0 < amount ∧ deltaOf merged (owner, text) = -amount := by
  constructor
  · rintro ⟨decimals, member⟩
    obtain ⟨⟨⟨trader, mint⟩, d⟩, chosen, same⟩ := List.mem_map.mp member
    simp only [List.mem_filter, AssocMap.mem_entries, decide_eq_true_eq] at chosen
    obtain ⟨stored, rfl, lost⟩ := chosen
    simp only [Prod.mk.injEq] at same
    obtain ⟨rfl, size, _⟩ := same
    have change : deltaOf merged (trader, mint) = d.delta := by simp [deltaOf, stored]
    rw [soldAmount, if_neg (change ▸ sized)] at size
    omega
  · rintro ⟨positive, change⟩
    obtain ⟨decimals, member⟩ := loss_listed merged owner text (by omega) sized
    exact ⟨decimals, by simpa [change] using member⟩

/-- An owner's gains list a mint exactly with what was gained of it. -/
theorem gains_list (merged : Deltas) (owner : Pubkey) (text : String) (amount : Int) :
    Lists (gainsOf merged owner) text amount ↔
      0 < amount ∧ deltaOf merged (owner, text) = amount := by
  constructor
  · rintro ⟨decimals, member⟩
    obtain ⟨⟨⟨trader, mint⟩, d⟩, chosen, same⟩ := List.mem_map.mp member
    simp only [List.mem_filter, AssocMap.mem_entries, decide_eq_true_eq] at chosen
    obtain ⟨stored, rfl, gained⟩ := chosen
    simp only [Prod.mk.injEq] at same
    obtain ⟨rfl, rfl, _⟩ := same
    exact ⟨gained, by simp [deltaOf, stored]⟩
  · rintro ⟨positive, change⟩
    obtain ⟨decimals, member⟩ := gain_listed merged owner text (by omega)
    exact ⟨decimals, change ▸ member⟩

/-- A swap of two mints is reported of an owner exactly if the one was lost and the other
gained. -/
theorem reported_iff (isOnCurve : Pubkey → Bool) (merged : Deltas) (events : List SwapEvent)
    (exact : ExactSwaps isOnCurve merged events) (owner : Pubkey) (soldText boughtText : String)
    (given received : Int) :
    (∃ event ∈ events, event.trader = owner ∧ Lists event.sold soldText given ∧
        Lists event.bought boughtText received) ↔
      Lists (lossesOf merged owner) soldText given ∧
        Lists (gainsOf merged owner) boughtText received := by
  constructor
  · rintro ⟨event, member, rfl, ⟨_, sold⟩, ⟨_, bought⟩⟩
    exact ⟨⟨_, (exact.sold event member).mem_iff.mp sold⟩,
      ⟨_, (exact.bought event member).mem_iff.mp bought⟩⟩
  · rintro ⟨⟨_, lost⟩, ⟨_, gained⟩⟩
    obtain ⟨event, member, trader, sold, bought⟩ :=
      swap_reported isOnCurve merged events exact owner _ _ lost gained
    exact ⟨event, member, trader, ⟨_, sold⟩, ⟨_, bought⟩⟩

/-- What the token pass found of an owner in a mint is what the views differ by. -/
theorem moved_iff (env : Env) (codecs : RpcCodecs)
    (sameText : env.pubkeyFromStr = codecs.pubkeyFromStr)
    (nameless : codecs.pubkeyFromStr "" = none) (reading : Reading)
    (reads : reading.Reads codecs) (unified : UnifiedTx)
    (converted : Rpc.tryFrom codecs reading.tx = .ok unified)
    (distinctPre : DistinctIndices (reading.rendered.preTokenBalances.toDefault []))
    (distinctPost : DistinctIndices (reading.rendered.postTokenBalances.toDefault []))
    (recordedPre : Recorded (reading.rendered.preTokenBalances.toDefault []))
    (recordedPost : Recorded (reading.rendered.postTokenBalances.toDefault []))
    (owner mint : Pubkey) (text : String) (spells : Spells codecs text mint)
    (readable : OwnReadable codecs reading (owner, text)) (tokens : Deltas)
    (found : tokenDeltas codecs env.profile reading.orders
      (reading.rendered.preTokenBalances.toDefault [])
      (reading.rendered.postTokenBalances.toDefault []) = .ok tokens) (change : Int) :
    deltaOf tokens (owner, text) = change ↔
      Moved env codecs reading unified owner mint text change := by
  obtain ⟨pre, post⟩ := tryFrom_balances codecs reading reads unified converted
  have net := tokenDeltas_net codecs env.profile reading.orders _ _ tokens found
    (recorded_u64 _ recordedPre) (recorded_u64 _ recordedPost) distinctPre distinctPost
    (owner, text)
  obtain ⟨before, viewBefore, heldBefore⟩ := viewed_held env codecs sameText nameless owner mint
    text spells _ recordedPre readable.before
  obtain ⟨after, viewAfter, heldAfter⟩ := viewed_held env codecs sameText nameless owner mint
    text spells _ recordedPost readable.after
  have atPre : viewed env.profile ((balancesOf unified).preTokenBalances env owner mint) =
      .ok before := by
    rw [TxBalance.preTokenBalances, balancesOf, pre]
    exact viewBefore
  have atPost : viewed env.profile ((balancesOf unified).postTokenBalances env owner mint) =
      .ok after := by
    rw [TxBalance.postTokenBalances, balancesOf, post]
    exact viewAfter
  constructor
  · rintro rfl
    exact ⟨before, after, atPre, atPost, by omega⟩
  · rintro ⟨other, later, alsoPre, alsoPost, balanced⟩
    obtain rfl := Outcome.ok.inj (atPre.symm.trans alsoPre)
    obtain rfl := Outcome.ok.inj (atPost.symm.trans alsoPost)
    omega

/-- A swap of two mints other than wrapped lamports is reported of a wallet exactly if the
views of the wallet fell by the one amount and rose by the other, where the wallet's amounts in
the two mints are read back. -/
theorem wallet_swap_iff (env : Env) (codecs : RpcCodecs) (isOnCurve : Pubkey → Bool)
    (sameText : env.pubkeyFromStr = codecs.pubkeyFromStr)
    (nameless : codecs.pubkeyFromStr "" = none) (reading : Reading)
    (reads : reading.Reads codecs) (unified : UnifiedTx)
    (converted : Rpc.tryFrom codecs reading.tx = .ok unified)
    (distinctPre : DistinctIndices (reading.rendered.preTokenBalances.toDefault []))
    (distinctPost : DistinctIndices (reading.rendered.postTokenBalances.toDefault []))
    (recordedPre : Recorded (reading.rendered.preTokenBalances.toDefault []))
    (recordedPost : Recorded (reading.rendered.postTokenBalances.toDefault []))
    (owner sold bought : Pubkey) (soldText boughtText : String)
    (spellsSold : Spells codecs soldText sold) (spellsBought : Spells codecs boughtText bought)
    (readableSold : OwnReadable codecs reading (owner, soldText))
    (readableBought : OwnReadable codecs reading (owner, boughtText))
    (soldOther : soldText ≠ solMint) (boughtOther : boughtText ≠ solMint)
    (events : List SwapEvent)
    (detected : reading.detect codecs env.profile isOnCurve = .ok events)
    (given received : Int) :
    (∃ event ∈ events, event.trader = owner ∧ Lists event.sold soldText given ∧
        Lists event.bought boughtText received) ↔
      (0 < given ∧ Moved env codecs reading unified owner sold soldText (-given)) ∧
        0 < received ∧ Moved env codecs reading unified owner bought boughtText received := by
  obtain ⟨deltas, credited, merged, computed, fee, gets, exact⟩ :=
    detectSwaps_merged codecs env.profile isOnCurve reading events detected
  obtain ⟨tokens, found, sameSold⟩ := merged_tokens codecs env.profile reading reads owner
    soldText soldOther deltas credited merged computed fee gets
  obtain ⟨also, again, sameBought⟩ := merged_tokens codecs env.profile reading reads owner
    boughtText boughtOther deltas credited merged computed fee gets
  obtain rfl := Outcome.ok.inj (found.symm.trans again)
  have within := (tokenDeltas_totals codecs env.profile reading.orders
    (fun key => key = (owner, soldText)) _ _ tokens found (smallAmounts_of_u64 codecs _ _ _
      (recorded_u64 _ recordedPre) (recorded_u64 _ recordedPost))).1 (owner, soldText)
        (decide_eq_true rfl)
  have moves := moved_iff env codecs sameText nameless reading reads unified converted distinctPre
    distinctPost recordedPre recordedPost owner
  rw [reported_iff isOnCurve merged events exact owner soldText boughtText given received,
    losses_list merged owner soldText given (by omega), gains_list, sameSold, sameBought,
    moves sold soldText spellsSold readableSold tokens found,
    moves bought boughtText spellsBought readableBought tokens found]

/-- The texts of the two mints of the trade are the only ones. -/
theorem trade_spells : Spells tradeCodecs soldMint ⟨11⟩ ∧ Spells tradeCodecs boughtMint ⟨12⟩ := by
  refine ⟨⟨rfl, fun other reads => ?_⟩, ⟨rfl, fun other reads => ?_⟩⟩
  · by_contra different
    simp only [tradeCodecs, plainCodecs, if_neg different] at reads
    split_ifs at reads <;> cases reads
  · by_contra different
    simp only [tradeCodecs, plainCodecs, if_neg different] at reads
    split_ifs at reads <;> cases reads

/-- The amounts of the trade are read back. -/
theorem trade_readable (key : DeltaKey) : OwnReadable tradeCodecs bothReading key where
  before := by
    intro balance member _
    obtain rfl := List.mem_singleton.mp member
    exact both_readable.1.before
  after := by
    intro balance member _
    rcases List.mem_pair.mp member with rfl | rfl
    · exact both_readable.1.after
    · exact both_readable.2.after

/-- The trade is reported with what its wallet gave and received. -/
theorem wallet_swap_of_trade : ∃ events,
    bothReading.detect tradeCodecs ⟨true⟩ (fun _ => true) = .ok events ∧
    ∃ event ∈ events, event.trader = ⟨7⟩ ∧ Lists event.sold soldMint 60 ∧
      Lists event.bought boughtMint 7 := by
  obtain ⟨unified, converted, _, _⟩ := both_converted
  obtain ⟨events, detected⟩ := both_detected
  obtain ⟨pre, post⟩ :=
    tryFrom_balances tradeCodecs bothReading ⟨rfl, both_decoded⟩ unified converted
  refine ⟨events, detected, ?_⟩
  refine (wallet_swap_iff tradeLibraries tradeCodecs (fun _ => true) rfl (by decide) bothReading
    ⟨rfl, both_decoded⟩ unified converted (by decide) (by decide) both_recorded.1
    both_recorded.2 ⟨7⟩ ⟨11⟩ ⟨12⟩ soldMint boughtMint trade_spells.1 trade_spells.2
    (trade_readable _) (trade_readable _) (by decide) (by decide) events detected 60 7).mpr
      ⟨⟨by decide, 100, 40, ?_, ?_, by decide⟩, by decide, 0, 7, ?_, ?_, by decide⟩
  · rw [TxBalance.preTokenBalances, balancesOf, pre]
    rfl
  · rw [TxBalance.postTokenBalances, balancesOf, post]
    rfl
  · rw [TxBalance.preTokenBalances, balancesOf, pre]
    rfl
  · rw [TxBalance.postTokenBalances, balancesOf, post]
    rfl

end Graced.WalletViews
