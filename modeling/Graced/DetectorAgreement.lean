import Graced.OwnerLocality
import Graced.SignHeuristic

/-!
# The two detectors agree

Two parts of the program read a swap from balances. One is told two token accounts and looks
up their balances in the converted metadata, where an amount is the number shown to users.
The other is told nothing, reads amounts as numerals, and adds up all accounts. Where the raw
amounts come back from the numbers that are shown, what the first finds between the only
accounts of an owner in two mints, the second reports of that owner.
-/

namespace Graced.DetectorAgreement

open AmountReadings BalanceDiff SwapEvents OwnerLocality SignHeuristic

/-- The balances of a converted transaction. -/
def balancesOf (unified : UnifiedTx) : TxBalance := ⟨unified.accountKeys, unified.metadata⟩

/-- Every listed balance has a raw amount. -/
def Recorded (balances : List UiTransactionTokenBalance) : Prop :=
  ∀ balance ∈ balances, ∃ amount, Records amount (some (Rpc.convertBalance balance))

/-- The amounts of an account, before and after, are read back from the numbers that are
shown. -/
structure Readable (reading : Reading) (index : UInt8) : Prop where
  before : Faithful ((reading.entriesAt index).1.map Rpc.convertBalance)
  after : Faithful ((reading.entriesAt index).2.map Rpc.convertBalance)

/-- The account of this index is the only one that is attributed to an owner and a mint, and
it had no other mint before. -/
structure Sole (codecs : RpcCodecs) (reading : Reading) (owner : Pubkey) (mint : String)
    (index : UInt8) : Prop where
  here : AttributedTo codecs (fun key => key = (owner, mint)) (reading.entriesAt index).1
    (reading.entriesAt index).2
  only : ∀ other, AttributedTo codecs (fun key => key = (owner, mint))
    (reading.entriesAt other).1 (reading.entriesAt other).2 → other = index
  before : ∀ record, (reading.entriesAt index).1 = some record → record.mint = mint

/-- By how much an account changed. -/
def changeAt (reading : Reading) (index : UInt8) : Int :=
  amountOf (reading.entriesAt index).2 - amountOf (reading.entriesAt index).1

/-- The two sides, as the reports of an owner name them. -/
structure Names (codecs : RpcCodecs) (info : SwapInfo) (event : SwapEvent) : Prop where
  sold : ∃ entry ∈ event.sold, codecs.pubkeyFromStr entry.1 = some info.inputMint ∧
    entry.2.1 = info.inputAmount.toNat
  bought : ∃ entry ∈ event.bought, codecs.pubkeyFromStr entry.1 = some info.outputMint ∧
    entry.2.1 = info.outputAmount.toNat

/-! ## The balances that are looked up -/

/-- A converted transaction has the balances of its record. -/
theorem tryFrom_balances (codecs : RpcCodecs) (reading : Reading)
    (reads : reading.Reads codecs) (unified : UnifiedTx)
    (converted : Rpc.tryFrom codecs reading.tx = .ok unified) :
    unified.metadata.preTokenBalances =
        Rpc.convertUiBalances reading.rendered.preTokenBalances ∧
      unified.metadata.postTokenBalances =
        Rpc.convertUiBalances reading.rendered.postTokenBalances := by
  simp only [Rpc.tryFrom, Rpc.unifiedTx, reads.recorded, Outcome.okOr_some, Outcome.ok_bind,
    Outcome.bind_ok_iff, Outcome.mapError_eq_ok, Outcome.ofExcept_eq_ok] at converted
  obtain ⟨read, metadata, _, _, _, _, _, _, same⟩ := converted
  obtain rfl := Outcome.ok.inj same
  simp only [Rpc.metadata, Outcome.exceptBind_ok_iff] at metadata
  obtain ⟨_, _, _, _, _, _, built⟩ := metadata
  obtain rfl := Except.ok.inj built
  exact ⟨rfl, rfl⟩

/-- The balance that is looked up for an index is that of the snapshot. -/
theorem findBalance_snapshot (balances : OptionSerializer (List UiTransactionTokenBalance))
    (distinct : DistinctIndices (balances.toDefault [])) (index : UInt8) :
    TxBalance.findBalance (Rpc.convertUiBalances balances) index.toNat =
      ((snapshot (balances.toDefault [])).get index).map Rpc.convertBalance := by
  rw [TxBalance.findBalance, Rpc.convertUiBalances, List.find?_map]
  congr 1
  have sameIndex (balance : UiTransactionTokenBalance) :
      (Rpc.convertBalance balance).accountIndex.toNat = index.toNat ↔
        balance.accountIndex = index := UInt8.toNat_inj
  cases found : (balances.toDefault []).find?
      ((fun b => decide (b.accountIndex.toNat = index.toNat)) ∘ Rpc.convertBalance) with
  | none =>
    rw [List.find?_eq_none] at found
    symm
    rw [Option.eq_none_iff_forall_ne_some]
    intro balance stored
    obtain ⟨listed, atIndex⟩ := (snapshot_get _ distinct index balance).mp stored
    exact found balance listed (decide_eq_true ((sameIndex balance).mpr atIndex))
  | some balance =>
    have test := List.find?_some found
    have atIndex := (sameIndex balance).mp (by simpa using test)
    exact ((snapshot_get _ distinct index balance).mpr
      ⟨List.mem_of_find?_eq_some found, atIndex⟩).symm

/-- The two readings of a balance give one amount. -/
theorem amountOr_amountOf (profile : Profile) (balances : List UiTransactionTokenBalance)
    (recorded : Recorded balances) (index : UInt8)
    (faithful : Faithful (((snapshot balances).get index).map Rpc.convertBalance))
    (amount : UInt64) (read : (TokenBalance.amountOr profile
      (((snapshot balances).get index).map Rpc.convertBalance) : Outcome BalanceError UInt64) =
        .ok amount) :
    (amount.toNat : Int) = amountOf ((snapshot balances).get index) := by
  cases stored : (snapshot balances).get index with
  | none =>
    rw [stored] at read
    obtain rfl := Outcome.ok.inj read
    rfl
  | some balance =>
    rw [stored] at read faithful
    obtain ⟨known, numeral⟩ := recorded balance (snapshot_mem balances index balance stored).1
    have derived := amountOr_readsBack (ε := BalanceError) profile known _
      (faithful known numeral)
    obtain rfl := Outcome.ok.inj (derived.symm.trans read)
    exact (amountOf_numeral balance known numeral).symm

/-- The mint of the lookup is that of the account. -/
theorem mint_sole (env : Env) (codecs : RpcCodecs)
    (sameText : env.pubkeyFromStr = codecs.pubkeyFromStr) (reading : Reading) (owner : Pubkey)
    (mint : String) (index : UInt8) (sole : Sole codecs reading owner mint index)
    (known : Pubkey) (found : TokenBalance.mint env
      ⟨(reading.entriesAt index).1.map Rpc.convertBalance,
        (reading.entriesAt index).2.map Rpc.convertBalance⟩ = some known) :
    codecs.pubkeyFromStr mint = some known := by
  obtain ⟨recorded, holder, chosen, _, own⟩ := sole.here
  obtain ⟨text, atText, readable⟩ := Option.bind_eq_some_iff.mp found
  rw [sameText] at readable
  cases before : (reading.entriesAt index).1 with
  | none =>
    simp only [before, Option.or_none] at chosen
    simp only [before, chosen, Option.map_none, Option.none_or, Option.map_some,
      Option.some.injEq] at atText
    have same : recorded.mint = mint := congrArg Prod.snd (of_decide_eq_true own)
    obtain rfl : recorded.mint = text := atText
    exact same ▸ readable
  | some record =>
    simp only [before, Option.map_some, Option.some_or, Option.some.injEq] at atText
    obtain rfl : record.mint = text := atText
    exact sole.before record before ▸ readable

/-- What the lookup makes of an account: its mint as recorded, and its change. -/
theorem fromBalance_change (env : Env) (codecs : RpcCodecs)
    (sameText : env.pubkeyFromStr = codecs.pubkeyFromStr) (reading : Reading)
    (reads : reading.Reads codecs) (unified : UnifiedTx)
    (converted : Rpc.tryFrom codecs reading.tx = .ok unified)
    (distinctPre : DistinctIndices (reading.rendered.preTokenBalances.toDefault []))
    (distinctPost : DistinctIndices (reading.rendered.postTokenBalances.toDefault []))
    (recordedPre : Recorded (reading.rendered.preTokenBalances.toDefault []))
    (recordedPost : Recorded (reading.rendered.postTokenBalances.toDefault []))
    (owner account : Pubkey) (mint : String) (index : UInt8)
    (sole : Sole codecs reading owner mint index) (readable : Readable reading index)
    (numbered : (balancesOf unified).findIndexForWallet account = some index.toNat)
    (leg : TokenLeg) (resolved : TokenLeg.fromBalance env
      ((balancesOf unified).findTokenAccountBalance account) account = .ok leg) :
    codecs.pubkeyFromStr mint = some leg.mint ∧ leg.delta = changeAt reading index := by
  obtain ⟨pre, post⟩ := tryFrom_balances codecs reading reads unified converted
  have lookedUp : (balancesOf unified).findTokenAccountBalance account =
      ⟨(reading.entriesAt index).1.map Rpc.convertBalance,
        (reading.entriesAt index).2.map Rpc.convertBalance⟩ := by
    simp only [TxBalance.findTokenAccountBalance, numbered]
    rw [balancesOf, pre, post, findBalance_snapshot _ distinctPre,
      findBalance_snapshot _ distinctPost]
    rfl
  rw [lookedUp] at resolved
  simp only [TokenLeg.fromBalance, Outcome.bind_ok_iff, Outcome.okOr_eq_ok,
    Outcome.mapError_eq_ok, Outcome.pure_eq, Outcome.ok.injEq] at resolved
  obtain ⟨known, atMint, program, _, delta, difference, rfl⟩ := resolved
  refine ⟨mint_sole env codecs sameText reading owner mint index sole known atMint, ?_⟩
  obtain ⟨before, after, readBefore, readAfter, rfl⟩ :=
    difference_amounts env.profile _ delta difference
  rw [amountOr_amountOf env.profile _ recordedPre index readable.before before readBefore,
    amountOr_amountOf env.profile _ recordedPost index readable.after after readAfter]
  rfl

/-! ## The changes that are added up -/

/-- Raw amounts are numerals of 64 bits. -/
theorem recorded_u64 (balances : List UiTransactionTokenBalance) (recorded : Recorded balances) :
    U64Amounts balances := by
  intro balance member
  obtain ⟨amount, numeral⟩ := recorded balance member
  have bounded := amount.toNat_lt
  have written : balance.uiTokenAmount.amount = toString amount.toNat := numeral
  exact ⟨amount, by rw [written, Numerals.parseI128_toString _ (by omega)]⟩

/-- What is attributed to the owner and the mint is the change of their only account. -/
theorem attributed_sole (codecs : RpcCodecs) (reading : Reading) (owner : Pubkey)
    (mint : String) (index : UInt8) (sole : Sole codecs reading owner mint index) :
    (allIndices.map (fun other => attributed codecs (fun key => key = (owner, mint))
      (reading.entriesAt other).1 (reading.entriesAt other).2)).sum = changeAt reading index := by
  rw [← List.sum_toFinset _ allIndices_nodup, Finset.sum_eq_single index]
  · obtain ⟨recorded, holder, chosen, readable, own⟩ := sole.here
    simp only [attributed, chosen, readable]
    exact if_pos own
  · intro other _ different
    have notHere : ¬ AttributedTo codecs (fun key => key = (owner, mint))
        (reading.entriesAt other).1 (reading.entriesAt other).2 :=
      fun attributedHere => different (sole.only other attributedHere)
    unfold attributed
    split
    · rfl
    · rename_i recorded chosen
      split
      · rfl
      · rename_i holder readable
        exact if_neg fun inside => notHere ⟨recorded, holder, chosen, readable, inside⟩
  · intro outside
    exact absurd (List.mem_toFinset.mpr (mem_allIndices index)) outside

/-- Outside of lamports, what an owner gained or lost after the merge is what the token pass
found. -/
theorem merged_tokens (codecs : RpcCodecs) (profile : Profile) (reading : Reading)
    (reads : reading.Reads codecs) (owner : Pubkey) (mint : String) (notSol : mint ≠ solMint)
    (deltas credited merged : Deltas)
    (computed : computeRawDeltas codecs profile reading.orders reading.tx = .ok deltas)
    (fee : (addFee profile reading.feePayer reading.feeLamports deltas :
      Outcome TxParseError Deltas) = .ok credited)
    (gets : ∀ key, merged.get key = settled key (credited.get key)) :
    ∃ tokens, tokenDeltas codecs profile reading.orders
        (reading.rendered.preTokenBalances.toDefault [])
        (reading.rendered.postTokenBalances.toDefault []) = .ok tokens ∧
      deltaOf merged (owner, mint) = deltaOf tokens (owner, mint) := by
  obtain ⟨rendered, transaction, tokens, recorded, _, _, tokenPass, lamportPass⟩ :=
    computeRawDeltas_ok codecs profile reading.orders reading.tx deltas computed
  obtain rfl := Option.some.inj (reads.recorded.symm.trans recorded)
  have unmerged : settled (owner, mint) (credited.get (owner, mint)) =
      credited.get (owner, mint) := by
    apply if_neg
    simpa [isSol] using notSol
  have unpaid : credited.get (owner, mint) = deltas.get (owner, mint) := by
    unfold addFee at fee
    split at fee
    · obtain rfl := Outcome.ok.inj fee
      rfl
    · obtain ⟨sum, _, stored⟩ := (Outcome.bind_ok_iff _ _ _).mp fee
      obtain rfl := Outcome.ok.inj stored
      have different : (reading.feePayer, solMint) ≠ (owner, mint) :=
        fun same => notSol (congrArg Prod.snd same).symm
      rw [AssocMap.get_insert, if_neg different]
  refine ⟨tokens, tokenPass, ?_⟩
  rw [deltaOf, deltaOf, gets, unmerged, unpaid,
    lamportDeltas_get_other profile _ _ _ tokens deltas lamportPass owner mint notSol]

/-- After the merge the owner's change in the mint is that of the account. -/
theorem merged_change (codecs : RpcCodecs) (profile : Profile) (reading : Reading)
    (reads : reading.Reads codecs)
    (preAmounts : U64Amounts (reading.rendered.preTokenBalances.toDefault []))
    (postAmounts : U64Amounts (reading.rendered.postTokenBalances.toDefault []))
    (owner : Pubkey) (mint : String) (notSol : mint ≠ solMint) (index : UInt8)
    (sole : Sole codecs reading owner mint index) (deltas credited merged : Deltas)
    (computed : computeRawDeltas codecs profile reading.orders reading.tx = .ok deltas)
    (fee : (addFee profile reading.feePayer reading.feeLamports deltas :
      Outcome TxParseError Deltas) = .ok credited)
    (gets : ∀ key, merged.get key = settled key (credited.get key)) :
    deltaOf merged (owner, mint) = changeAt reading index := by
  obtain ⟨tokens, tokenPass, inTokens⟩ := merged_tokens codecs profile reading reads owner mint
    notSol deltas credited merged computed fee gets
  obtain ⟨_, total⟩ := tokenDeltas_totals codecs profile reading.orders
    (fun key => key = (owner, mint)) _ _ tokens tokenPass
    (smallAmounts_of_u64 codecs _ _ _ preAmounts postAmounts)
  rw [inTokens, ← totalOf_key, total]
  exact attributed_sole codecs reading owner mint index sole

/-- A change that is there is stored. -/
theorem change_stored (merged : Deltas) (key : DeltaKey) (changed : deltaOf merged key ≠ 0) :
    ∃ d, merged.get key = some d ∧ d.delta = deltaOf merged key := by
  unfold deltaOf at changed ⊢
  cases found : merged.get key with
  | none => simp [found] at changed
  | some d => exact ⟨d, rfl, by simp⟩

/-- A loss of an owner is listed with its size. -/
theorem loss_listed (merged : Deltas) (owner : Pubkey) (mint : String)
    (lost : deltaOf merged (owner, mint) < 0)
    (sized : deltaOf merged (owner, mint) ≠ -2 ^ 127) :
    ∃ decimals, (mint, -deltaOf merged (owner, mint), decimals) ∈ lossesOf merged owner := by
  obtain ⟨d, stored, same⟩ := change_stored merged (owner, mint) lost.ne
  have size : soldAmount d.delta = -deltaOf merged (owner, mint) := by
    rw [soldAmount, same, if_neg sized]
  refine ⟨d.decimals, List.mem_map.mpr ⟨((owner, mint), d), ?_, by rw [size]⟩⟩
  rw [List.mem_filter, AssocMap.mem_entries]
  exact ⟨stored, decide_eq_true ⟨rfl, same ▸ lost⟩⟩

/-- A gain of an owner is listed. -/
theorem gain_listed (merged : Deltas) (owner : Pubkey) (mint : String)
    (gained : 0 < deltaOf merged (owner, mint)) :
    ∃ decimals, (mint, deltaOf merged (owner, mint), decimals) ∈ gainsOf merged owner := by
  obtain ⟨d, stored, same⟩ := change_stored merged (owner, mint) gained.ne'
  refine ⟨d.decimals, List.mem_map.mpr ⟨((owner, mint), d), ?_, by rw [same]⟩⟩
  rw [List.mem_filter, AssocMap.mem_entries]
  exact ⟨stored, decide_eq_true ⟨rfl, same ▸ gained⟩⟩

/-- The swap of an owner with a loss and a gain reports both. -/
theorem swap_reported (isOnCurve : Pubkey → Bool) (merged : Deltas) (events : List SwapEvent)
    (exact : ExactSwaps isOnCurve merged events) (owner : Pubkey) (loss gain : MintEntry)
    (lost : loss ∈ lossesOf merged owner) (gained : gain ∈ gainsOf merged owner) :
    ∃ event ∈ events, event.trader = owner ∧ loss ∈ event.sold ∧ gain ∈ event.bought := by
  have trades := (exact.traders owner).mpr
    ⟨List.ne_nil_of_mem lost, List.ne_nil_of_mem gained⟩
  obtain ⟨event, member, rfl⟩ := List.mem_map.mp trades
  exact ⟨event, member, rfl, (exact.sold event member).mem_iff.mpr lost,
    (exact.bought event member).mem_iff.mpr gained⟩

/-! ## Agreement -/

/-- A swap from one account of an owner into another is reported of the owner. -/
theorem between_reported (codecs : RpcCodecs) (isOnCurve : Pubkey → Bool)
    (merged : Deltas) (events : List SwapEvent) (exact : ExactSwaps isOnCurve merged events)
    (owner : Pubkey) (inputText outputText : String) (input output : TokenLeg) (info : SwapInfo)
    (inputKnown : codecs.pubkeyFromStr inputText = some input.mint)
    (outputKnown : codecs.pubkeyFromStr outputText = some output.mint)
    (inputDelta : input.delta = deltaOf merged (owner, inputText))
    (outputDelta : output.delta = deltaOf merged (owner, outputText))
    (bounded : input.delta.natAbs < 2 ^ 63)
    (between : Between false input output info) (received : info.outputAmount ≠ 0) :
    ∃ event ∈ events, event.trader = owner ∧ Names codecs info event := by
  have lost : input.delta < 0 := by simpa [MarksInput] using between.marked
  have notLost : 0 ≤ output.delta := by simpa [MarksInput] using between.unmarked
  have moved : output.delta ≠ 0 := by
    intro idle
    have zero := between.outputAmount
    rw [idle] at zero
    exact received (UInt64.toNat_inj.mp zero)
  obtain ⟨inputDecimals, loss⟩ := loss_listed merged owner inputText (inputDelta ▸ lost)
    (by omega)
  obtain ⟨outputDecimals, gain⟩ := gain_listed merged owner outputText (by omega)
  obtain ⟨event, member, trader, sold, bought⟩ :=
    swap_reported isOnCurve merged events exact owner _ _ loss gain
  refine ⟨event, member, trader, ⟨_, sold, ?_, ?_⟩, ⟨_, bought, ?_, ?_⟩⟩
  · rw [inputKnown, between.inputMint]
  · have size := between.inputAmount
    simp only
    omega
  · rw [outputKnown, between.outputMint]
  · have size := between.outputAmount
    simp only
    omega

/-- What the lookup finds between the only accounts of an owner in two mints, a detection
reports of that owner, if something was received and the amounts of the two accounts are read
back from the numbers that are shown. -/
theorem detectors_agree (env : Env) (codecs : RpcCodecs) (isOnCurve : Pubkey → Bool)
    (sameText : env.pubkeyFromStr = codecs.pubkeyFromStr) (reading : Reading)
    (reads : reading.Reads codecs) (unified : UnifiedTx)
    (converted : Rpc.tryFrom codecs reading.tx = .ok unified)
    (distinctPre : DistinctIndices (reading.rendered.preTokenBalances.toDefault []))
    (distinctPost : DistinctIndices (reading.rendered.postTokenBalances.toDefault []))
    (recordedPre : Recorded (reading.rendered.preTokenBalances.toDefault []))
    (recordedPost : Recorded (reading.rendered.postTokenBalances.toDefault []))
    (owner a b : Pubkey) (mintA mintB : String) (indexA indexB : UInt8)
    (numberedA : (balancesOf unified).findIndexForWallet a = some indexA.toNat)
    (numberedB : (balancesOf unified).findIndexForWallet b = some indexB.toNat)
    (soleA : Sole codecs reading owner mintA indexA)
    (soleB : Sole codecs reading owner mintB indexB)
    (readableA : Readable reading indexA) (readableB : Readable reading indexB)
    (notSolA : mintA ≠ solMint) (notSolB : mintB ≠ solMint) (info : SwapInfo)
    (found : getSwapInfoFromBalanceDiff env (balancesOf unified) a b false = .ok info)
    (received : info.outputAmount ≠ 0) (events : List SwapEvent)
    (detected : reading.detect codecs env.profile isOnCurve = .ok events) :
    ∃ event ∈ events, event.trader = owner ∧ Names codecs info event := by
  obtain ⟨deltas, credited, merged, computed, fee, gets, exact⟩ :=
    detectSwaps_merged codecs env.profile isOnCurve reading events detected
  have legs := found
  rw [getSwapInfoFromBalanceDiff, Outcome.bind_ok_iff] at legs
  obtain ⟨legA, resolvedA, rest⟩ := legs
  obtain ⟨legB, resolvedB, _⟩ := (Outcome.bind_ok_iff _ _ _).mp rest
  obtain ⟨knownA, deltaA⟩ := fromBalance_change env codecs sameText reading reads unified converted
    distinctPre distinctPost recordedPre recordedPost owner a mintA indexA soleA readableA
    numberedA legA resolvedA
  obtain ⟨knownB, deltaB⟩ := fromBalance_change env codecs sameText reading reads unified converted
    distinctPre distinctPost recordedPre recordedPost owner b mintB indexB soleB readableB
    numberedB legB resolvedB
  have preAmounts := recorded_u64 _ recordedPre
  have postAmounts := recorded_u64 _ recordedPost
  have changeA := merged_change codecs env.profile reading reads preAmounts postAmounts owner mintA
    notSolA indexA soleA deltas credited merged computed fee gets
  have changeB := merged_change codecs env.profile reading reads preAmounts postAmounts owner mintB
    notSolB indexB soleB deltas credited merged computed fee gets
  rw [← changeA] at deltaA
  rw [← changeB] at deltaB
  rcases found_between false resolvedA resolvedB info found with ⟨between, _⟩ | ⟨between, _⟩
  · exact between_reported codecs isOnCurve merged events exact owner mintA mintB legA legB info
      knownA knownB deltaA deltaB (fromBalance_range _ _ _ _ resolvedA) between received
  · exact between_reported codecs isOnCurve merged events exact owner mintB mintA legB legA info
      knownB knownA deltaB deltaA (fromBalance_range _ _ _ _ resolvedB) between received

/-! ## A trade that both detect -/

/-- The libraries that also read the texts of the token program and of two mints. -/
def tradeCodecs : RpcCodecs :=
  { plainCodecs with
    pubkeyFromStr := fun text =>
      if text = "TokenkegQfeZyiNwAJbNbGKPFXCWuBvf9Ss623VQ5DA" then some Ids.splToken
      else if text = soldMint then some ⟨11⟩
      else if text = boughtMint then some ⟨12⟩
      else plainCodecs.pubkeyFromStr text }

/-- The same libraries for the parsers. -/
def tradeLibraries : Env := { poolLibraries with pubkeyFromStr := tradeCodecs.pubkeyFromStr }

/-- A whole number of units of a mint without decimals, in an account of the trader. -/
def holding (mint : String) (index : UInt8) (amount : Nat) (text : String) :
    UiTransactionTokenBalance :=
  ⟨index, mint, ⟨some (Float64.ofNat amount), 0, text, text⟩,
    .some "11111111111111111111111111111118",
    .some "TokenkegQfeZyiNwAJbNbGKPFXCWuBvf9Ss623VQ5DA"⟩

/-- The trader gives 60 of 100 for 7. -/
def bothMeta : UiTransactionStatusMeta :=
  plainMeta [1000, 20, 30] [995, 20, 30] [holding soldMint 1 100 "100"]
    [holding soldMint 1 40 "40", holding boughtMint 2 7 "7"]

/-- The trade as it is read. -/
def bothReading : Reading where
  orders := default
  tx := plainTx bothMeta
  rendered := bothMeta
  transaction := ⟨[⟨List.replicate 64 7⟩],
    .legacy ⟨⟨1, 0, 0⟩, plainKeys, ⟨List.replicate 32 1⟩, []⟩⟩
  feePayer := ⟨4⟩
  feeLamports := 5

/-- The text of the transaction is decoded. -/
theorem both_decoded : tradeCodecs.decodeTransaction bothReading.tx.transaction.transaction =
    some bothReading.transaction := by
  simp [tradeCodecs, plainCodecs, bothReading, plainTx]

/-- The only account in a mint is the one that is listed. -/
theorem holding_sole (mint : String) (index : UInt8)
    (here : AttributedTo tradeCodecs (fun key => key = (⟨7⟩, mint))
      (bothReading.entriesAt index).1 (bothReading.entriesAt index).2)
    (before : ∀ record, (bothReading.entriesAt index).1 = some record → record.mint = mint)
    (listed : ∀ record ∈ bothMeta.preTokenBalances.toDefault [] ++
      bothMeta.postTokenBalances.toDefault [], record.mint = mint → record.accountIndex = index) :
    Sole tradeCodecs bothReading ⟨7⟩ mint index where
  here := here
  before := before
  only := by
    rintro other ⟨recorded, holder, chosen, _, own⟩
    have same : recorded.mint = mint := congrArg Prod.snd (of_decide_eq_true own)
    rcases Option.or_eq_some_iff.mp chosen with later | ⟨_, earlier⟩
    · obtain ⟨member, rfl⟩ := snapshot_mem _ other recorded later
      exact listed recorded (List.mem_append_right _ member) same
    · obtain ⟨member, rfl⟩ := snapshot_mem _ other recorded earlier
      exact listed recorded (List.mem_append_left _ member) same

/-- The trade is converted, with the accounts that its message lists. -/
theorem both_converted : ∃ unified, Rpc.tryFrom tradeCodecs bothReading.tx = .ok unified ∧
    unified.accountKeys = .new plainKeys none ∧
    getSwapInfoFromBalanceDiff tradeLibraries (balancesOf unified) ⟨5⟩ ⟨6⟩ false =
      .ok ⟨⟨11⟩, ⟨12⟩, 60, 7, Ids.splToken, Ids.splToken, true⟩ := by
  simp only [Rpc.tryFrom, Rpc.unifiedTx, both_decoded]
  exact ⟨_, rfl, rfl, rfl⟩

/-- The detection of the trade succeeds. -/
theorem both_detected : ∃ events,
    bothReading.detect tradeCodecs ⟨true⟩ (fun _ => true) = .ok events := by
  simp only [Reading.detect, detectSwaps, computeRawDeltas, both_decoded]
  exact ⟨_, rfl⟩

/-- The amounts of the trade are recorded. -/
theorem both_recorded : Recorded (bothMeta.preTokenBalances.toDefault []) ∧
    Recorded (bothMeta.postTokenBalances.toDefault []) := by
  constructor
  · intro balance member
    obtain rfl := List.mem_singleton.mp member
    exact ⟨100, rfl⟩
  · intro balance member
    rcases List.mem_pair.mp member with rfl | rfl
    · exact ⟨40, rfl⟩
    · exact ⟨7, rfl⟩

/-- An amount that comes back from what is shown of it. -/
theorem holding_faithful (mint : String) (index : UInt8) (amount : UInt64)
    (finite : (Float64.ofNat amount.toNat).magnitude.isSome)
    (back : ((Float64.ofNat amount.toNat).mul (Float64.ofNat 1)).truncToU64 = amount) :
    Faithful (some (Rpc.convertBalance
      (holding mint index amount.toNat (toString amount.toNat)))) := by
  refine faithful_of_readsBack amount _ rfl (readsBack_of_derived _ _ ?_ fun profile => ?_)
  · intro value shown
    obtain rfl := Option.some.inj shown
    exact finite
  · rw [deriveAmount_fits profile _ (by change 0 ≤ 19; decide)]
    exact congrArg Outcome.ok back

/-- Nothing is recorded, and nothing is read. -/
theorem missing_faithful : Faithful none := fun _ recorded => recorded

/-- So do the amounts of the trade. -/
theorem both_readable : Readable bothReading 1 ∧ Readable bothReading 2 :=
  ⟨⟨holding_faithful soldMint 1 100 (by decide) (by decide),
      holding_faithful soldMint 1 40 (by decide) (by decide)⟩,
    ⟨missing_faithful, holding_faithful boughtMint 2 7 (by decide) (by decide)⟩⟩

/-- Both detect the trade. -/
theorem both_detect : ∃ unified info events,
    Rpc.tryFrom tradeCodecs bothReading.tx = .ok unified ∧
    getSwapInfoFromBalanceDiff tradeLibraries (balancesOf unified) ⟨5⟩ ⟨6⟩ false = .ok info ∧
    bothReading.detect tradeCodecs ⟨true⟩ (fun _ => true) = .ok events ∧
    ∃ event ∈ events, event.trader = ⟨7⟩ ∧ Names tradeCodecs info event := by
  obtain ⟨unified, converted, keys, found⟩ := both_converted
  obtain ⟨events, detected⟩ := both_detected
  refine ⟨unified, _, events, converted, found, detected, ?_⟩
  refine detectors_agree tradeLibraries tradeCodecs (fun _ => true) rfl bothReading
    ⟨rfl, both_decoded⟩ unified converted (by decide) (by decide) both_recorded.1
    both_recorded.2 ⟨7⟩ ⟨5⟩ ⟨6⟩ soldMint boughtMint 1 2 ?_ ?_ ?_ ?_ both_readable.1
    both_readable.2 (by decide) (by decide) _ found (by decide) events detected
  · simp only [balancesOf, TxBalance.findIndexForWallet, keys]
    rfl
  · simp only [balancesOf, TxBalance.findIndexForWallet, keys]
    rfl
  · exact holding_sole soldMint 1 ⟨_, ⟨7⟩, rfl, rfl, by decide⟩
      (by intro record same; obtain rfl := Option.some.inj same; rfl) (by decide)
  · exact holding_sole boughtMint 2 ⟨_, ⟨7⟩, rfl, rfl, by decide⟩
      (by intro record same; cases same) (by decide)

end Graced.DetectorAgreement
