import Graced.LastGreatest
import Graced.LegAgreement

/-!
# The two transfers of a swap

Among the transfers of an instruction, the one in which the user pays is the last of the
largest that have one of the two accounts on the user's side, and it counts only with the
user's signature. The one in which the user is paid is the last of the largest that have
the remaining account on the opposite side. If both exist, the swap is read from these two
alone, whatever else moved, and the order of the two accounts decides nothing but the
direction.

The amount of a transfer is carried through a signed integer. It arrives unchanged up to
2 ^ 63, and as its complement beyond.
-/

namespace Graced.LegSelection

open LastGreatest LegAgreement

/-- Transfers are compared by their amounts. -/
def amountOf (transfer : TokenTransfer) : Nat := transfer.amount.toNat

theorem largest_eq_choose (transfers : List TokenTransfer) :
    largest transfers = choose amountOf transfers := by
  induction transfers with
  | nil => rfl
  | cons transfer rest inductionHypothesis =>
    rw [largest, choose, inductionHypothesis]
    cases choose amountOf rest with
    | none => rfl
    | some best => exact if_congr UInt64.lt_iff_toNat_lt rfl rfl

/-- What is found on a side is the last of the largest. -/
theorem findLeg_eq_some_iff (transfers : List TokenTransfer) (side : Side)
    (accepts : Pubkey → Bool) (best : TokenTransfer) :
    findLeg transfers side accepts = some best ↔
      Chosen amountOf (fun transfer => accepts (side.accountOf transfer) = true) transfers
        best := by
  rw [findLeg, largest_eq_choose]
  exact choose_filter_eq_some_iff _ transfers best

/-- Nothing is found on a side exactly if nothing is there. -/
theorem findLeg_eq_none_iff (transfers : List TokenTransfer) (side : Side)
    (accepts : Pubkey → Bool) :
    findLeg transfers side accepts = none ↔
      ∀ transfer ∈ transfers, accepts (side.accountOf transfer) = false := by
  rw [findLeg, largest_eq_choose, choose_eq_none_iff, List.filter_eq_nil_iff]
  simp

/-- The account of a pair that is left beside this one. -/
def counterpartOf (a b account : Pubkey) : Pubkey := if account = a then b else a

/-- The account of a transfer on the user's side. -/
def userAccountOf (isPoolAccount : Bool) (transfer : TokenTransfer) : Pubkey :=
  (Side.forUserLeg isPoolAccount).accountOf transfer

/-- The account of a transfer on the opposite side. -/
def poolAccountOf (isPoolAccount : Bool) (transfer : TokenTransfer) : Pubkey :=
  (Side.forUserLeg isPoolAccount).opposite.accountOf transfer

/-- Of the transfers with one of two accounts on the user's side, this is the last of the
largest. -/
def Pays (transfers : List TokenTransfer) (a b : Pubkey) (isPoolAccount : Bool)
    (paid : TokenTransfer) : Prop :=
  Chosen amountOf
    (fun transfer => userAccountOf isPoolAccount transfer = a ∨
      userAccountOf isPoolAccount transfer = b) transfers paid

/-- The two transfers between which a swap is read. -/
structure Selects (transfers : List TokenTransfer) (a b user : Pubkey) (isPoolAccount : Bool)
    (paid received : TokenTransfer) : Prop where
  several : 2 ≤ transfers.length
  pays : Pays transfers a b isPoolAccount paid
  signed : paid.signer = user
  returns : Chosen amountOf
    (fun transfer => poolAccountOf isPoolAccount transfer =
      counterpartOf a b (userAccountOf isPoolAccount paid)) transfers received

/-- One of the two transfers is missing. -/
def SelectsNothing (transfers : List TokenTransfer) (a b user : Pubkey)
    (isPoolAccount : Bool) : Prop :=
  transfers.length < 2 ∨
  (∀ transfer ∈ transfers, userAccountOf isPoolAccount transfer ≠ a ∧
    userAccountOf isPoolAccount transfer ≠ b) ∨
  (∃ paid, Pays transfers a b isPoolAccount paid ∧ paid.signer ≠ user) ∨
  ∃ paid, Pays transfers a b isPoolAccount paid ∧ ∀ transfer ∈ transfers,
    poolAccountOf isPoolAccount transfer ≠
      counterpartOf a b (userAccountOf isPoolAccount paid)

/-- The mint that a transfer names, or else the one on record for an account. -/
def mintOf (env : Env) (balance : TxBalance) (transfer : TokenTransfer) (account : Pubkey) :
    Option Pubkey :=
  transfer.mint.or ((balance.findTokenAccountBalance account).mint env)

/-- The direction and the mints of a swap are those of the two transfers. -/
structure ReadFrom (env : Env) (balance : TxBalance) (a : Pubkey) (isPoolAccount : Bool)
    (paid received : TokenTransfer) (info : SwapInfo) : Prop where
  direction : info.aToB = true ↔ userAccountOf isPoolAccount paid = a
  inputMint : mintOf env balance paid (userAccountOf isPoolAccount paid) = some info.inputMint
  outputMint : mintOf env balance received (poolAccountOf isPoolAccount received) =
    some info.outputMint

/-- The same swap, seen from the accounts in the other order. -/
def exchanged (info : SwapInfo) : SwapInfo := { info with aToB := !info.aToB }

/-! ## What is selected -/

section Selection

variable {env : Env} {balance : TxBalance} {transfers : List TokenTransfer}
  {a b user : Pubkey} {isPoolAccount : Bool} {paid received : TokenTransfer}

/-- The last of the largest is found on the user's side. -/
theorem findLeg_eq_paid_iff :
    findLeg transfers (Side.forUserLeg isPoolAccount)
      (fun account => [a, b].contains account) = some paid ↔
      Pays transfers a b isPoolAccount paid := by
  rw [findLeg_eq_some_iff]
  simp [Pays, userAccountOf]

/-- Nothing is found on the user's side exactly if neither account is there. -/
theorem findLeg_eq_unpaid_iff :
    findLeg transfers (Side.forUserLeg isPoolAccount)
      (fun account => [a, b].contains account) = none ↔
      ∀ transfer ∈ transfers, userAccountOf isPoolAccount transfer ≠ a ∧
        userAccountOf isPoolAccount transfer ≠ b := by
  rw [findLeg_eq_none_iff]
  simp [userAccountOf]

/-- The last of the largest is found on the opposite side. -/
theorem findLeg_eq_received_iff (counterpart : Pubkey) :
    findLeg transfers (Side.forUserLeg isPoolAccount).opposite
      (fun account => account = counterpart) = some received ↔
      Chosen amountOf (fun transfer => poolAccountOf isPoolAccount transfer = counterpart)
        transfers received := by
  rw [findLeg_eq_some_iff]
  simp [poolAccountOf]

/-- Nothing is found on the opposite side exactly if the account is not there. -/
theorem findLeg_eq_unreceived_iff (counterpart : Pubkey) :
    findLeg transfers (Side.forUserLeg isPoolAccount).opposite
      (fun account => account = counterpart) = none ↔
      ∀ transfer ∈ transfers, poolAccountOf isPoolAccount transfer ≠ counterpart := by
  rw [findLeg_eq_none_iff]
  simp [poolAccountOf]

/-- Some transfer is chosen if one is on the user's side. -/
theorem pays_or_none (transfers : List TokenTransfer) (a b : Pubkey) (isPoolAccount : Bool) :
    (∃ paid, Pays transfers a b isPoolAccount paid) ∨
      ∀ transfer ∈ transfers, userAccountOf isPoolAccount transfer ≠ a ∧
        userAccountOf isPoolAccount transfer ≠ b := by
  cases found : findLeg transfers (Side.forUserLeg isPoolAccount)
      (fun account => [a, b].contains account) with
  | none => exact .inr (findLeg_eq_unpaid_iff.mp found)
  | some paid => exact .inl ⟨paid, findLeg_eq_paid_iff.mp found⟩

/-- Either two transfers are selected, or one of them is missing. -/
theorem selects_or_nothing (transfers : List TokenTransfer) (a b user : Pubkey)
    (isPoolAccount : Bool) :
    (∃ paid received, Selects transfers a b user isPoolAccount paid received) ∨
      SelectsNothing transfers a b user isPoolAccount := by
  rcases Nat.lt_or_ge transfers.length 2 with few | several
  · exact .inr (.inl few)
  rcases pays_or_none transfers a b isPoolAccount with ⟨paid, pays⟩ | none
  · by_cases signed : paid.signer = user
    · cases found : findLeg transfers (Side.forUserLeg isPoolAccount).opposite
          (fun account => account = counterpartOf a b (userAccountOf isPoolAccount paid)) with
      | none =>
        have unpaid := (findLeg_eq_unreceived_iff _).mp found
        exact .inr (.inr (.inr (.inr ⟨paid, pays, unpaid⟩)))
      | some received =>
        have returns := (findLeg_eq_received_iff _).mp found
        exact .inl ⟨paid, received, several, pays, signed, returns⟩
    · exact .inr (.inr (.inr (.inl ⟨paid, pays, signed⟩)))
  · exact .inr (.inr (.inl none))

/-- The swap between two transfers, as far as their accounts are on record. -/
def readSwap (env : Env) (balance : TxBalance) (a : Pubkey) (isPoolAccount : Bool)
    (paid received : TokenTransfer) : Except SwapInfoError (Option SwapInfo) := do
  let input ← resolveLeg env balance paid.mint (userAccountOf isPoolAccount paid) paid.amount
  let output ← resolveLeg env balance received.mint (poolAccountOf isPoolAccount received)
    received.amount
  .ok (some {
    aToB := userAccountOf isPoolAccount paid = a
    inputMint := input.mint
    outputMint := output.mint
    inputAmount := unsignedAbs input.delta
    outputAmount := unsignedAbs output.delta
    inputTokenProgram := input.tokenProgram
    outputTokenProgram := output.tokenProgram })

/-- Nothing but the two selected transfers is read. -/
theorem of_selects (selects : Selects transfers a b user isPoolAccount paid received) :
    getSwapInfoFromTokenTransfers env balance transfers a b user isPoolAccount =
      readSwap env balance a isPoolAccount paid received := by
  have enough : ¬ transfers.length < 2 := selects.several.not_gt
  have userLeg := findLeg_eq_paid_iff.mpr selects.pays
  have poolLeg := (findLeg_eq_received_iff _).mpr selects.returns
  have counterpart : (if (Side.forUserLeg isPoolAccount).accountOf paid = a then b else a) =
      counterpartOf a b (userAccountOf isPoolAccount paid) := rfl
  simp only [getSwapInfoFromTokenTransfers, if_neg enough, userLeg, selects.signed, ne_eq,
    not_true_eq_false, if_false, decide_eq_true_eq, counterpart, poolLeg]
  rfl

/-- Without the two transfers there is no swap. -/
theorem of_nothing (nothing : SelectsNothing transfers a b user isPoolAccount) :
    getSwapInfoFromTokenTransfers env balance transfers a b user isPoolAccount = .ok none := by
  rw [getSwapInfoFromTokenTransfers]
  split
  · rfl
  · next enough =>
    rcases nothing with few | none | ⟨paid, pays, unsigned⟩ | ⟨paid, pays, none⟩
    · exact absurd few enough
    · simp only [findLeg_eq_unpaid_iff.mpr none]
    · simp only [findLeg_eq_paid_iff.mpr pays, if_pos unsigned]
    · have poolLeg := (findLeg_eq_unreceived_iff _).mpr none
      have counterpart : (if (Side.forUserLeg isPoolAccount).accountOf paid = a then b else a) =
          counterpartOf a b (userAccountOf isPoolAccount paid) := rfl
      simp only [findLeg_eq_paid_iff.mpr pays, decide_eq_true_eq, counterpart, poolLeg, ite_self]

/-- What is read is a swap. -/
theorem readSwap_ne_none : readSwap env balance a isPoolAccount paid received ≠ .ok none := by
  intro impossible
  simp [readSwap, Outcome.exceptBind_ok_iff] at impossible

/-- A side that can be resolved has its mint from the transfer or from the record, and the
amount of the transfer as a signed integer. -/
theorem resolveLeg_ok {transfer : TokenTransfer} {account : Pubkey} {leg : TokenLeg}
    (resolved : resolveLeg env balance transfer.mint account transfer.amount = .ok leg) :
    mintOf env balance transfer account = some leg.mint ∧ leg.delta = asI64 transfer.amount := by
  rw [resolveLeg] at resolved
  rw [mintOf]
  cases named : transfer.mint.or ((balance.findTokenAccountBalance account).mint env) with
  | none =>
    rw [named] at resolved
    cases resolved
  | some mint =>
    simp only [named] at resolved
    cases program : (balance.findTokenAccountBalance account).tokenProgram env with
    | none =>
      rw [program] at resolved
      cases resolved
    | some tokenProgram =>
      rw [program] at resolved
      obtain rfl := Except.ok.inj resolved
      exact ⟨rfl, rfl⟩

/-- The swap that is read has the mints, the direction and the amounts of its transfers, the
latter as they come back from a signed integer. -/
theorem readSwap_some {info : SwapInfo}
    (read : readSwap env balance a isPoolAccount paid received = .ok (some info)) :
    ReadFrom env balance a isPoolAccount paid received info ∧
      info.inputAmount = unsignedAbs (asI64 paid.amount) ∧
      info.outputAmount = unsignedAbs (asI64 received.amount) := by
  simp only [readSwap, Outcome.exceptBind_ok_iff] at read
  obtain ⟨input, inputResolved, output, outputResolved, same⟩ := read
  obtain rfl := Option.some.inj (Except.ok.inj same)
  obtain ⟨inputMint, inputAmount⟩ := resolveLeg_ok inputResolved
  obtain ⟨outputMint, outputAmount⟩ := resolveLeg_ok outputResolved
  exact ⟨⟨decide_eq_true_iff, inputMint, outputMint⟩, by rw [inputAmount], by rw [outputAmount]⟩

end Selection

/-! ## The accounts in the other order -/

section Exchange

variable {transfers : List TokenTransfer} {a b user : Pubkey} {isPoolAccount : Bool}
  {paid received : TokenTransfer}

/-- The user pays in the same transfer. -/
theorem pays_exchange :
    Pays transfers b a isPoolAccount paid ↔ Pays transfers a b isPoolAccount paid := by
  simp only [Pays, or_comm]

/-- The account beside one of two is the same in both orders. -/
theorem counterpartOf_exchange (distinct : a ≠ b) (account : Pubkey)
    (known : account = a ∨ account = b) :
    counterpartOf b a account = counterpartOf a b account := by
  rcases known with rfl | rfl
  · simp [counterpartOf, distinct]
  · simp [counterpartOf, distinct.symm]

/-- The same two transfers are selected. -/
theorem selects_exchange (distinct : a ≠ b)
    (selects : Selects transfers a b user isPoolAccount paid received) :
    Selects transfers b a user isPoolAccount paid received where
  several := selects.several
  pays := pays_exchange.mpr selects.pays
  signed := selects.signed
  returns := by
    rw [counterpartOf_exchange distinct _ selects.pays.isCandidate]
    exact selects.returns

/-- The same transfer is missing. -/
theorem selectsNothing_exchange (distinct : a ≠ b)
    (nothing : SelectsNothing transfers a b user isPoolAccount) :
    SelectsNothing transfers b a user isPoolAccount := by
  rcases nothing with few | none | ⟨paid, pays, unsigned⟩ | ⟨paid, pays, none⟩
  · exact .inl few
  · exact .inr (.inl fun transfer member => (none transfer member).symm)
  · exact .inr (.inr (.inl ⟨paid, pays_exchange.mpr pays, unsigned⟩))
  · refine .inr (.inr (.inr ⟨paid, pays_exchange.mpr pays, ?_⟩))
    rw [counterpartOf_exchange distinct _ pays.isCandidate]
    exact none

/-- Only the direction depends on the order of the accounts. -/
theorem readSwap_exchange (env : Env) (balance : TxBalance) (distinct : a ≠ b)
    (pays : Pays transfers a b isPoolAccount paid) :
    readSwap env balance b isPoolAccount paid received =
      (readSwap env balance a isPoolAccount paid received).map (Option.map exchanged) := by
  have direction : decide (userAccountOf isPoolAccount paid = b) =
      !decide (userAccountOf isPoolAccount paid = a) := by
    rcases pays.isCandidate with same | same
    · simp [same, distinct]
    · simp [same, distinct.symm]
  rw [readSwap, readSwap, direction]
  cases resolveLeg env balance paid.mint (userAccountOf isPoolAccount paid) paid.amount with
  | error error => rfl
  | ok input =>
    cases resolveLeg env balance received.mint (poolAccountOf isPoolAccount received)
        received.amount with
    | error error => rfl
    | ok output => rfl

end Exchange

/-- A swap is read from the transfer in which the user pays and the one in which they are
paid, and none is found exactly if one of these is missing; the order of the two accounts
decides the direction and nothing else. -/
theorem sides_of_selection (env : Env) (balance : TxBalance) (transfers : List TokenTransfer)
    (a b user : Pubkey) (isPoolAccount : Bool) (distinct : a ≠ b) :
    (∀ info, getSwapInfoFromTokenTransfers env balance transfers a b user isPoolAccount =
        .ok (some info) →
      ∃ paid received, Selects transfers a b user isPoolAccount paid received ∧
        ReadFrom env balance a isPoolAccount paid received info) ∧
    (getSwapInfoFromTokenTransfers env balance transfers a b user isPoolAccount = .ok none ↔
      SelectsNothing transfers a b user isPoolAccount) ∧
    getSwapInfoFromTokenTransfers env balance transfers b a user isPoolAccount =
      (getSwapInfoFromTokenTransfers env balance transfers a b user isPoolAccount).map
        (Option.map exchanged) := by
  rcases selects_or_nothing transfers a b user isPoolAccount with
    ⟨paid, received, selects⟩ | nothing
  · rw [of_selects selects, of_selects (selects_exchange distinct selects)]
    refine ⟨?_, ?_, readSwap_exchange env balance distinct selects.pays⟩
    · exact fun info read => ⟨paid, received, selects, (readSwap_some read).1⟩
    · refine iff_of_false readSwap_ne_none fun nothing => ?_
      have unread : getSwapInfoFromTokenTransfers env balance transfers a b user isPoolAccount =
          .ok none := of_nothing nothing
      rw [of_selects selects] at unread
      exact readSwap_ne_none unread
  · rw [of_nothing nothing, of_nothing (selectsNothing_exchange distinct nothing)]
    exact ⟨by simp, iff_of_true rfl nothing, rfl⟩

/-- The swap between two vaults, named in the other order than the one in which the user pays
and is paid. -/
theorem sides_of_exchanged_vaults :
    getSwapInfoFromTokenTransfers vaultLibraries (vaultBalances 1000 1100 500 450)
        [feeTransfer, vaultReceived 50, vaultPaid 100] ⟨5⟩ ⟨4⟩ ⟨2⟩ true =
      .ok (some ⟨Ids.nativeMint, otherMint, 100, 50, Ids.splToken, Ids.splToken, false⟩) := by
  have sides := sides_of_selection vaultLibraries (vaultBalances 1000 1100 500 450)
    [feeTransfer, vaultReceived 50, vaultPaid 100] ⟨4⟩ ⟨5⟩ ⟨2⟩ true (by decide)
  rw [sides.2.2]
  rfl

/-! ## The amounts -/

/-- A swap has the amounts of its two transfers, with and without the details. -/
structure AmountsKept (paid received : TokenTransfer) (info : SwapInfo) : Prop where
  input : info.inputAmount = paid.amount
  output : info.outputAmount = received.amount
  swapInput : info.toSwap.inputAmount = paid.amount
  swapOutput : info.toSwap.outputAmount = received.amount

/-- The amounts of the two transfers are reported unchanged if and only if neither is beyond
2 ^ 63. -/
theorem amounts_kept_iff (env : Env) (balance : TxBalance) (transfers : List TokenTransfer)
    (a b user : Pubkey) (isPoolAccount : Bool) (paid received : TokenTransfer)
    (info : SwapInfo) (selects : Selects transfers a b user isPoolAccount paid received)
    (found : getSwapInfoFromTokenTransfers env balance transfers a b user isPoolAccount =
      .ok (some info)) :
    AmountsKept paid received info ↔
      paid.amount.toNat ≤ 2 ^ 63 ∧ received.amount.toNat ≤ 2 ^ 63 := by
  rw [of_selects selects] at found
  obtain ⟨_, inputAmount, outputAmount⟩ := readSwap_some found
  rw [← unsignedAbs_asI64_iff, ← unsignedAbs_asI64_iff, ← inputAmount, ← outputAmount]
  constructor
  · exact fun kept => ⟨kept.input, kept.output⟩
  · exact fun ⟨input, output⟩ => ⟨input, output, input, output⟩

/-- The two transfers of a swap between the vaults, whatever the amounts. -/
theorem selects_vaults (paid received : UInt64) :
    Selects [feeTransfer, vaultReceived received, vaultPaid paid] ⟨4⟩ ⟨5⟩ ⟨2⟩ true
      (vaultPaid paid) (vaultReceived received) where
  several := by simp
  pays := ⟨[feeTransfer, vaultReceived received], [], rfl, .inl rfl,
    by simp [userAccountOf, feeTransfer, vaultReceived, Side.forUserLeg, Side.accountOf],
    by simp⟩
  signed := rfl
  returns := ⟨[feeTransfer], [vaultPaid paid], rfl, rfl,
    by simp [poolAccountOf, counterpartOf, userAccountOf, feeTransfer, vaultPaid,
      Side.forUserLeg, Side.opposite, Side.accountOf],
    by simp [poolAccountOf, counterpartOf, userAccountOf, vaultPaid, Side.forUserLeg,
      Side.opposite, Side.accountOf]⟩

/-- A swap of 2 ^ 63 units is reported as it is. -/
theorem amounts_kept_at_sign_bit :
    AmountsKept (vaultPaid 9223372036854775808) (vaultReceived 50)
      ⟨Ids.nativeMint, otherMint, 9223372036854775808, 50, Ids.splToken, Ids.splToken, true⟩ :=
  (amounts_kept_iff vaultLibraries (vaultBalances 1000 1100 500 450) _ _ _ _ _ _ _ _
    (selects_vaults 9223372036854775808 50) rfl).mpr (by decide)

/-- A swap of 2 ^ 63 + 1000 units is reported as one of 2 ^ 63 - 1000. -/
theorem amounts_complemented :
    Selects [feeTransfer, vaultReceived 50, vaultPaid 9223372036854776808] ⟨4⟩ ⟨5⟩ ⟨2⟩ true
      (vaultPaid 9223372036854776808) (vaultReceived 50) ∧
    getSwapInfoFromTokenTransfers vaultLibraries (vaultBalances 1000 1100 500 450)
        [feeTransfer, vaultReceived 50, vaultPaid 9223372036854776808] ⟨4⟩ ⟨5⟩ ⟨2⟩ true =
      .ok (some ⟨Ids.nativeMint, otherMint, 9223372036854774808, 50, Ids.splToken,
        Ids.splToken, true⟩) ∧
    ¬ AmountsKept (vaultPaid 9223372036854776808) (vaultReceived 50)
      ⟨Ids.nativeMint, otherMint, 9223372036854774808, 50, Ids.splToken, Ids.splToken, true⟩ := by
  refine ⟨selects_vaults _ _, rfl, fun kept => ?_⟩
  exact absurd kept.input (by decide)

end Graced.LegSelection
