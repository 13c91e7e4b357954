import Graced.AmountReadings
import Graced.Reports
import Mathlib.Algebra.Ring.Int.Defs

/-!
# Several Pump swaps in one transaction

The parser of Pump has no transfers to look at and takes the change of the base vault over
the whole transaction. Every Pump instruction on one curve therefore reports the whole
change, with its sign. Where the change is read as it is recorded, together they report it
once exactly if there is only one of them, or nothing to report.
-/

namespace Graced.PumpTotals

open AmountReadings Reports

/-- The instruction is a buy or a sell of Pump. -/
def swaps (view : IxView StackIx) : Bool :=
  view.program.toOption = some .pump ∧ view.data.toOption.any Dex.Pump.matched

/-- The instruction is a sell. -/
def sells (view : IxView StackIx) : Bool :=
  view.data.toOption.any
    (fun data => Dex.discriminator data = [51, 230, 133, 164, 1, 127, 131, 173])

/-- The Pump swaps among the instructions on which a parser is run. -/
def pumpInstructions (env : Env) (tx : SolanaTx) : List (IxView StackIx) :=
  (dispatched env tx).filter swaps

/-- The Pump swaps that are reported. -/
def pumpSwaps (result : List Parsed) : List DexSwap :=
  (reported result).filter (fun swap => swap.program = .pump)

/-- The amount of the base token in a reported swap. It comes in where lamports go out. -/
def baseAmount (swap : DexSwap) : Nat :=
  if swap.swap.outputMint = Ids.nativeMint then swap.swap.inputAmount.toNat
  else swap.swap.outputAmount.toNat

/-- What a reported swap does to the base vault: a sale pays into it, a purchase out of it. -/
def baseMove (swap : DexSwap) : Int :=
  if swap.swap.outputMint = Ids.nativeMint then baseAmount swap else -(baseAmount swap : Int)

/-- The same, by what the instruction says it is. -/
def namedMove (view : IxView StackIx) (swap : DexSwap) : Int :=
  if sells view then baseAmount swap else -(baseAmount swap : Int)

/-- By how many the sales outnumber the purchases. -/
def netSales (views : List (IxView StackIx)) : Int :=
  ((views.filter sells).length : Int) - (views.filter (fun view => !sells view)).length

/-- The change of a token account that is read, zero if none is. -/
def readChange (profile : Profile) (balance : TokenBalance) : Int :=
  (balance.difference profile).toOption.getD 0

/-- The instruction trades a token on this bonding curve, out of this vault. The token is not
the native one, against which it is traded. -/
def TradesOn (view : IxView StackIx) (curve vault : Pubkey) : Prop :=
  ∃ accs mint, view.accounts = .ok accs ∧ accs.peek 2 = .ok mint ∧ mint ≠ Ids.nativeMint ∧
    accs.peek 3 = .ok curve ∧ accs.peek 4 = .ok vault

/-! ## One instruction -/

/-- The swap between a token and lamports moves the token by the change of its vault. -/
theorem swap_baseMove (change quoteChange : Int) (mint user curve : Pubkey) (swap : Swap)
    (notNative : mint ≠ Ids.nativeMint)
    (swapped : Dex.Pump.swap change quoteChange mint = .ok swap) :
    baseMove ⟨user, curve, .pump, swap⟩ = change ∧
      baseAmount ⟨user, curve, .pump, swap⟩ = change.natAbs := by
  unfold Dex.Pump.swap at swapped
  split at swapped
  · rename_i gained
    simp only [Outcome.bind_ok_iff] at swapped
    obtain ⟨input, atInput, output, _, same⟩ := swapped
    obtain rfl := Outcome.ok.inj same
    have amount := absIntoU64_toNat change input atInput
    have value : baseAmount ⟨user, curve, .pump, ⟨input, output, mint, Ids.nativeMint⟩⟩ =
        change.natAbs := by simp [baseAmount, amount]
    refine ⟨?_, value⟩
    rw [baseMove, if_pos rfl, value]
    omega
  · split at swapped
    · rename_i notGained _
      simp only [Outcome.bind_ok_iff] at swapped
      obtain ⟨input, _, output, atOutput, same⟩ := swapped
      obtain rfl := Outcome.ok.inj same
      have amount := absIntoU64_toNat change output atOutput
      have value : baseAmount ⟨user, curve, .pump, ⟨input, output, Ids.nativeMint, mint⟩⟩ =
          change.natAbs := by simp [baseAmount, notNative, amount]
      refine ⟨?_, value⟩
      rw [baseMove, if_neg notNative, value]
      omega
    · simp at swapped

/-- A parsed swap moves the base token by the whole change of the vault that is read. -/
theorem parse_baseMove (env : Env) (view : IxView StackIx) (curve vault : Pubkey)
    (swap : DexSwap) (trades : TradesOn view curve vault)
    (parsed : Dex.Pump.parse env view = .ok (some swap)) :
    (view.balance.findTokenAccountBalance vault).difference env.profile =
        .ok (readChange env.profile (view.balance.findTokenAccountBalance vault)) ∧
      baseMove swap = readChange env.profile (view.balance.findTokenAccountBalance vault) ∧
      baseAmount swap =
        (readChange env.profile (view.balance.findTokenAccountBalance vault)).natAbs := by
  obtain ⟨accs, mint, resolved, atMint, notNative, atCurve, atVault⟩ := trades
  rw [Dex.Pump.parse] at parsed
  obtain ⟨data, _, parsed⟩ := (Outcome.bind_ok_iff _ _ _).mp parsed
  rw [resolved, Outcome.ok_bind] at parsed
  split at parsed
  · simp only [Outcome.bind_ok_iff, InstructionAccounts.index_ok_iff, Outcome.mapError_eq_ok]
      at parsed
    obtain ⟨_, mintRead, _, vaultRead, _, curveRead, user, _, baseChange, base, quoteChange, _,
      found, swapped, same⟩ := parsed
    obtain rfl := Except.ok.inj (mintRead.symm.trans atMint)
    rw [Except.ok.inj (vaultRead.symm.trans atVault)] at base
    have change : readChange env.profile (view.balance.findTokenAccountBalance vault) =
        baseChange := by
      rw [readChange, base, Outcome.toOption_ok, Option.getD_some]
    obtain rfl := Option.some.inj (Outcome.ok.inj same)
    rw [change]
    exact ⟨base, swap_baseMove baseChange quoteChange _ user _ found notNative swapped⟩
  · simp at parsed

/-- A parser of Pump that succeeds finds a swap exactly in a buy or a sell. -/
theorem parse_isSome (env : Env) (view : IxView StackIx) (yielded : Option DexSwap)
    (parsed : Dex.Pump.parse env view = .ok yielded) :
    yielded.isSome = view.data.toOption.any Dex.Pump.matched := by
  rw [Dex.Pump.parse] at parsed
  obtain ⟨data, hasData, parsed⟩ := (Outcome.bind_ok_iff _ _ _).mp parsed
  obtain ⟨accs, _, parsed⟩ := (Outcome.bind_ok_iff _ _ _).mp parsed
  rw [hasData, Outcome.toOption_ok, Option.any_some]
  by_cases matched : Dex.Pump.matched data = true
  · rw [if_pos matched] at parsed
    simp only [Outcome.bind_ok_iff] at parsed
    obtain ⟨_, _, _, _, _, _, _, _, _, _, _, _, _, _, same⟩ := parsed
    obtain rfl := Outcome.ok.inj same
    simp [matched]
  · rw [if_neg matched] at parsed
    obtain rfl := Outcome.ok.inj parsed
    simp [matched]

/-- Only Pump is labelled as Pump. -/
theorem labelOf_eq_pump (program : Program) :
    Dex.labelOf program = .pump ↔ program = .pump := by
  cases program <;> simp [Dex.labelOf]

/-! ## All of them -/

/-- The reported Pump swaps are those that the Pump instructions were parsed as, in order. -/
theorem pumpSwaps_parsed (env : Env) (tx : SolanaTx) (result : List Parsed)
    (ok : parseTransaction env tx = .ok result) :
    List.Forall₂ (fun view swap => Dex.Pump.parse env view = .ok (some swap))
      (pumpInstructions env tx) (pumpSwaps result) := by
  obtain ⟨succeed, same⟩ := reported_found env tx result ok
  rw [pumpInstructions, pumpSwaps, same]
  generalize dispatched env tx = views at succeed
  induction views with
  | nil => exact .nil
  | cons view rest inductionHypothesis =>
    obtain ⟨⟨program, yielded, known, parsed⟩, later⟩ := List.forall_mem_cons.mp succeed
    have others := inductionHypothesis later
    have atHead : found env view = yielded := by simp [found, known, parsed]
    rw [List.filterMap_cons, atHead]
    by_cases pump : program = .pump
    · subst pump
      have finds := parse_isSome env view yielded parsed
      cases yielded with
      | none =>
        have passed : swaps view = false := by simp [swaps, ← finds]
        rw [List.filter_cons_of_neg (by simp [passed])]
        exact others
      | some swap =>
        have kept : swaps view = true := by simp [swaps, known, ← finds]
        have labelled := Dex.Pump.parse_label env view swap parsed
        rw [List.filter_cons_of_pos kept, List.filter_cons_of_pos (by simp [labelled])]
        exact .cons parsed others
    · have passed : swaps view = false := by simp [swaps, known, pump]
      rw [List.filter_cons_of_neg (by simp [passed])]
      cases yielded with
      | none => exact others
      | some swap =>
        have labelled := Dex.parse_label env view program swap parsed
        rw [List.filter_cons_of_neg (by simp [labelled, labelOf_eq_pump, pump])]
        exact others

/-- A multiple of the size of a change is the change exactly if nothing changed or the factor
is its sign. -/
theorem mul_natAbs_eq_iff (factor change : Int) :
    factor * change.natAbs = change ↔ change = 0 ∨ factor = change.sign := by
  have split : change = change.sign * change.natAbs := (Int.sign_mul_natAbs change).symm
  constructor
  · intro same
    have cancel : (factor - change.sign) * change.natAbs = 0 := by
      rw [Int.sub_mul, same, ← split, Int.sub_self]
    rcases Int.mul_eq_zero.mp cancel with equal | zero
    · right
      omega
    · left
      omega
  · rintro (rfl | rfl)
    · simp
    · exact split.symm

section Totals

variable {env : Env} {curve vault : Pubkey} {balance : TxBalance}

/-- Swaps that each move the whole change add up to a multiple of it. -/
theorem sum_baseMove (views : List (IxView StackIx)) (swaps : List DexSwap)
    (trade : ∀ view ∈ views, TradesOn view curve vault ∧ view.balance = balance)
    (parsed : List.Forall₂ (fun view swap => Dex.Pump.parse env view = .ok (some swap))
      views swaps) :
    (swaps.map baseMove).sum =
      views.length * readChange env.profile (balance.findTokenAccountBalance vault) := by
  induction parsed with
  | nil => simp
  | @cons view swap views swaps atHead _ inductionHypothesis =>
    obtain ⟨⟨trades, same⟩, others⟩ := List.forall_mem_cons.mp trade
    subst same
    obtain ⟨_, move, _⟩ := parse_baseMove env view curve vault swap trades atHead
    rw [List.map_cons, List.sum_cons, move, inductionHypothesis others, List.length_cons,
      Int.natCast_succ, Int.add_mul]
    omega

/-- By the names of the instructions, they add up to a multiple of the size of the change. -/
theorem sum_namedMove (views : List (IxView StackIx)) (swaps : List DexSwap)
    (trade : ∀ view ∈ views, TradesOn view curve vault ∧ view.balance = balance)
    (parsed : List.Forall₂ (fun view swap => Dex.Pump.parse env view = .ok (some swap))
      views swaps) :
    (views.zipWith namedMove swaps).sum =
      netSales views *
        (readChange env.profile (balance.findTokenAccountBalance vault)).natAbs := by
  unfold netSales
  induction parsed with
  | nil => simp
  | @cons view swap views swaps atHead _ inductionHypothesis =>
    obtain ⟨⟨trades, same⟩, others⟩ := List.forall_mem_cons.mp trade
    subst same
    obtain ⟨_, _, amount⟩ := parse_baseMove env view curve vault swap trades atHead
    rw [List.zipWith_cons_cons, List.sum_cons, inductionHypothesis others, namedMove, amount]
    cases sold : sells view with
    | true =>
      simp only [sold, List.filter_cons, List.length_cons, Bool.not_true, if_true,
        Bool.false_eq_true, if_false, Int.natCast_succ, Int.sub_mul, Int.add_mul]
      omega
    | false =>
      simp only [sold, List.filter_cons, List.length_cons, Bool.not_false, if_true,
        Bool.false_eq_true, if_false, Int.natCast_succ, Int.sub_mul, Int.add_mul]
      omega

/-- Where a swap is parsed, the change is read off the amounts that the snapshots come to. -/
theorem readChange_readsBack (views : List (IxView StackIx)) (swaps : List DexSwap)
    (trade : ∀ view ∈ views, TradesOn view curve vault ∧ view.balance = balance)
    (parsed : List.Forall₂ (fun view swap => Dex.Pump.parse env view = .ok (some swap))
      views swaps)
    (any : views ≠ []) (before after : UInt64)
    (readsBefore : ReadsBack before (balance.findTokenAccountBalance vault).before)
    (readsAfter : ReadsBack after (balance.findTokenAccountBalance vault).after) :
    readChange env.profile (balance.findTokenAccountBalance vault) =
      (after.toNat : Int) - before.toNat := by
  cases parsed with
  | nil => exact absurd rfl any
  | @cons view swap views swaps atHead _ =>
    obtain ⟨trades, same⟩ := trade view List.mem_cons_self
    subst same
    obtain ⟨found, _⟩ := parse_baseMove env view curve vault swap trades atHead
    exact difference_readsBack env.profile _ before after readsBefore readsAfter _ found

end Totals

/-- The balances that all parsers of a transaction look at. -/
def balanceOf (tx : SolanaTx) : TxBalance := ⟨tx.accountKeys, tx.metadata⟩

/-- Every dex parser looks at the balances of the whole transaction. -/
theorem dispatched_balance (env : Env) (tx : SolanaTx) (view : IxView StackIx)
    (member : view ∈ dispatched env tx) : view.balance = balanceOf tx := by
  obtain ⟨root, isRoot, atRoot⟩ := List.mem_flatMap.mp member
  obtain ⟨listed, _, viewed⟩ := List.mem_filterMap.mp isRoot
  obtain ⟨tree, _, rfl⟩ := Option.map_eq_some_iff.mp viewed
  rw [dexViews] at atRoot
  cases known : (tx.view tree).program.toOption with
  | none => simp [known] at atRoot
  | some program =>
    rw [known, Option.elim_some, dexViewsOf] at atRoot
    split at atRoot
    · split at atRoot
      · obtain ⟨child, _, rfl⟩ := List.mem_map.mp atRoot
        rfl
      · simp at atRoot
    · split at atRoot
      · obtain rfl := List.mem_singleton.mp atRoot
        rfl
      · simp at atRoot

/-- A multiple of a number is the number exactly if that is zero or the factor is one. -/
theorem mul_eq_self_iff (count : Nat) (change : Int) :
    count * change = change ↔ change = 0 ∨ count = 1 := by
  constructor
  · intro same
    have cancel : (count - 1 : Int) * change = 0 := by
      rw [Int.sub_mul, same, Int.one_mul, Int.sub_self]
    rcases Int.mul_eq_zero.mp cancel with single | zero
    · right
      omega
    · exact .inl zero
  · rintro (rfl | rfl)
    · simp
    · simp

/-- The Pump swaps on one curve and vault that a transaction reports add up to the recorded
change of the vault exactly if that is as many times the change that is read as there are
swaps, and, told apart by what the instructions say they are, exactly if it is its size times
the surplus of sales. What is read comes of the numbers that the snapshots show. Where these
give back the recorded amounts, the swaps add up exactly if nothing changed or there is one of
them, and told apart by name exactly if nothing changed or one more instruction names the
direction of the change than the other. -/
theorem pump_total_iff (env : Env) (tx : SolanaTx) (result : List Parsed) (curve vault : Pubkey)
    (before after : UInt64) (ok : parseTransaction env tx = .ok result)
    (trade : ∀ view ∈ pumpInstructions env tx, TradesOn view curve vault)
    (recorded : Records before ((balanceOf tx).findTokenAccountBalance vault).before ∧
      Records after ((balanceOf tx).findTokenAccountBalance vault).after) :
    List.Forall₂ (fun view swap => Dex.Pump.parse env view = .ok (some swap))
      (pumpInstructions env tx) (pumpSwaps result) ∧
    (((pumpSwaps result).map baseMove).sum = (after.toNat : Int) - before.toNat ↔
      (pumpInstructions env tx).length *
          readChange env.profile ((balanceOf tx).findTokenAccountBalance vault) =
        (after.toNat : Int) - before.toNat) ∧
    (((pumpInstructions env tx).zipWith namedMove (pumpSwaps result)).sum =
        (after.toNat : Int) - before.toNat ↔
      netSales (pumpInstructions env tx) *
          (readChange env.profile ((balanceOf tx).findTokenAccountBalance vault)).natAbs =
        (after.toNat : Int) - before.toNat) ∧
    (pumpInstructions env tx ≠ [] → ∀ readBefore readAfter : UInt64,
      ReadsBack readBefore ((balanceOf tx).findTokenAccountBalance vault).before →
      ReadsBack readAfter ((balanceOf tx).findTokenAccountBalance vault).after →
      readChange env.profile ((balanceOf tx).findTokenAccountBalance vault) =
        (readAfter.toNat : Int) - readBefore.toNat) ∧
    (Faithful ((balanceOf tx).findTokenAccountBalance vault).before →
      Faithful ((balanceOf tx).findTokenAccountBalance vault).after →
      (((pumpSwaps result).map baseMove).sum = (after.toNat : Int) - before.toNat ↔
        after = before ∨ (pumpInstructions env tx).length = 1) ∧
      (((pumpInstructions env tx).zipWith namedMove (pumpSwaps result)).sum =
          (after.toNat : Int) - before.toNat ↔
        after = before ∨ netSales (pumpInstructions env tx) =
          ((after.toNat : Int) - before.toNat).sign)) := by
  have parsed := pumpSwaps_parsed env tx result ok
  have tradeHere : ∀ view ∈ pumpInstructions env tx,
      TradesOn view curve vault ∧ view.balance = balanceOf tx := by
    intro view member
    exact ⟨trade view member, dispatched_balance env tx view (List.mem_filter.mp member).1⟩
  have total := sum_baseMove _ _ tradeHere parsed
  have named := sum_namedMove _ _ tradeHere parsed
  rw [total, named]
  refine ⟨parsed, .rfl, .rfl, readChange_readsBack _ _ tradeHere parsed, ?_⟩
  intro faithfulBefore faithfulAfter
  have same : after = before ↔ (after.toNat : Int) - before.toNat = 0 := by
    rw [← UInt64.toNat_inj]
    omega
  rw [same]
  by_cases empty : pumpInstructions env tx = []
  · refine ⟨by simp [empty, eq_comm], ?_⟩
    have surplus : netSales (pumpInstructions env tx) = 0 := by rw [empty]; rfl
    rw [surplus, Int.zero_mul, eq_comm, iff_self_or]
    exact fun zero => Int.sign_eq_zero_iff_zero.mp zero.symm
  · rw [readChange_readsBack _ _ tradeHere parsed empty before after
      (faithfulBefore before recorded.1) (faithfulAfter after recorded.2)]
    exact ⟨mul_eq_self_iff _ _, mul_natAbs_eq_iff _ _⟩

/-! ## One and two purchases -/

/-- A number of purchases on one curve, after which the vault, account 4, went from one amount
to another and the curve, account 3, from 1000 lamports to 1600. -/
def buysTx (count : Nat) (before after : UiTokenAmount) : SolanaTx where
  instructions := List.replicate count
    ⟨2, [2, 2, 6, 3, 4, 2, 0], [102, 6, 61, 18, 1, 218, 235, 234]⟩
  accountKeys := poolKeys .pump
  metadata := ⟨[0, 0, 0, 1000], [0, 0, 0, 1600], .empty, [], [⟨4, "", before, "", ""⟩],
    [⟨4, "", after, "", ""⟩]⟩

/-- The view of a purchase. -/
def buyView (count position : Nat) (before after : UiTokenAmount) : IxView StackIx :=
  (buysTx count before after).view
    ⟨⟨2, [2, 2, 6, 3, 4, 2, 0], [102, 6, 61, 18, 1, 218, 235, 234]⟩, [], [UInt8.ofNat position]⟩

/-- The purchase of this amount. -/
def purchase (amount : UInt64) : DexSwap := ⟨⟨2⟩, ⟨3⟩, .pump, ⟨600, amount, Ids.nativeMint, ⟨6⟩⟩⟩

/-- A hundred tokens. -/
def hundred : UiTokenAmount := ⟨some (Float64.ofNat 100), 0, "100", "100"⟩

/-- Forty of them. -/
def forty : UiTokenAmount := ⟨some (Float64.ofNat 40), 0, "40", "40"⟩

/-- 251 units of a token with six decimals. -/
def fewUnits : UiTokenAmount := ⟨some ⟨0x3F307314CA925FE9⟩, 6, "251", "0.000251"⟩

/-- No unit of it. -/
def noUnits : UiTokenAmount := ⟨some (Float64.ofNat 0), 6, "0", "0"⟩

/-- A purchase trades on the curve out of the vault. -/
theorem tradesOn_buyView (count position : Nat) (before after : UiTokenAmount) :
    TradesOn (buyView count position before after) ⟨3⟩ ⟨4⟩ :=
  ⟨⟨poolKeys .pump, [2, 2, 6, 3, 4, 2, 0], 0, Program.pump.pubkey⟩, ⟨6⟩, rfl, rfl, by decide, rfl,
    rfl⟩

/-- A hundred tokens and forty tokens are read back. -/
theorem faithful_hundred_forty :
    Faithful (some ⟨4, "", hundred, "", ""⟩) ∧ Faithful (some ⟨4, "", forty, "", ""⟩) := by
  constructor
  · refine faithful_of_readsBack 100 _ rfl (readsBack_of_derived _ _ ?_ ?_)
    · rintro value shown
      obtain rfl := Option.some.inj shown
      decide
    · rintro ⟨_ | _⟩ <;> rfl
  · refine faithful_of_readsBack 40 _ rfl (readsBack_of_derived _ _ ?_ ?_)
    · rintro value shown
      obtain rfl := Option.some.inj shown
      decide
    · rintro ⟨_ | _⟩ <;> rfl

/-- One purchase is reported as the change of the vault. -/
theorem pump_total_of_one :
    ((pumpSwaps [.dex (purchase 60)]).map baseMove).sum = (40 : Int) - 100 ↔
      (40 : UInt64) = 100 ∨
        (pumpInstructions poolLibraries (buysTx 1 hundred forty)).length = 1 := by
  have trade : ∀ view ∈ pumpInstructions poolLibraries (buysTx 1 hundred forty),
      TradesOn view ⟨3⟩ ⟨4⟩ := by
    have only : pumpInstructions poolLibraries (buysTx 1 hundred forty) =
        [buyView 1 0 hundred forty] := rfl
    intro view member
    rw [only] at member
    obtain rfl := List.mem_singleton.mp member
    exact tradesOn_buyView 1 0 hundred forty
  obtain ⟨_, _, _, _, clean⟩ := pump_total_iff poolLibraries (buysTx 1 hundred forty)
    [.dex (purchase 60)] ⟨3⟩ ⟨4⟩ 100 40 rfl trade ⟨rfl, rfl⟩
  exact (clean faithful_hundred_forty.1 faithful_hundred_forty.2).1

/-- Two purchases that together took 60 out of the vault are reported as 60 each. One that took
out 251 units is reported as 250. -/
theorem pump_total_of_two :
    (parseTransaction poolLibraries (buysTx 2 hundred forty) =
        .ok [.dex (purchase 60), .dex (purchase 60)] ∧
      pumpInstructions poolLibraries (buysTx 2 hundred forty) =
        [buyView 2 0 hundred forty, buyView 2 1 hundred forty] ∧
      (∀ view ∈ [buyView 2 0 hundred forty, buyView 2 1 hundred forty],
        TradesOn view ⟨3⟩ ⟨4⟩) ∧
      (Records 100 ((balanceOf (buysTx 2 hundred forty)).findTokenAccountBalance ⟨4⟩).before ∧
        Records 40 ((balanceOf (buysTx 2 hundred forty)).findTokenAccountBalance ⟨4⟩).after) ∧
      ((pumpSwaps [.dex (purchase 60), .dex (purchase 60)]).map baseMove).sum = -120 ∧
      ([buyView 2 0 hundred forty, buyView 2 1 hundred forty].zipWith namedMove
        [purchase 60, purchase 60]).sum = -120) ∧
    parseTransaction poolLibraries (buysTx 1 fewUnits noUnits) = .ok [.dex (purchase 250)] ∧
      (Records 251 ((balanceOf (buysTx 1 fewUnits noUnits)).findTokenAccountBalance ⟨4⟩).before ∧
        Records 0 ((balanceOf (buysTx 1 fewUnits noUnits)).findTokenAccountBalance ⟨4⟩).after) ∧
      ((pumpSwaps [.dex (purchase 250)]).map baseMove).sum = -250 := by
  refine ⟨⟨rfl, rfl, ?_, ⟨rfl, rfl⟩, by decide, by decide⟩, by decide +kernel, ⟨rfl, rfl⟩,
    by decide⟩
  intro view member
  rcases List.mem_pair.mp member with rfl | rfl
  · exact tradesOn_buyView 2 0 hundred forty
  · exact tradesOn_buyView 2 1 hundred forty

end Graced.PumpTotals
