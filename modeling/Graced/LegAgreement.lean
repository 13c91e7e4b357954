import Graced.AmountReadings
import Graced.Dispatch

/-!
# Two ways to the same sides

A swap between two token accounts settles in two transfers: what the user pays reaches,
or leaves, one of the accounts, and what the user receives moves on the opposite side of
the other. Among any other transfers that leave both accounts alone these two are found.
If the balances of the accounts changed by the two amounts, their signs tell the same
story, as long as the recorded amounts are read back from the numbers that are shown, and
can be compared as signed integers.
-/

namespace Graced.LegAgreement

open AmountReadings

/-- Two accounts in one of their two orders. -/
def Pairs (first second a b : Pubkey) : Prop :=
  (first = a ∧ second = b) ∨ (first = b ∧ second = a)

/-- The mint and the token program that the snapshots record for an account. -/
structure Recorded (env : Env) (balance : TxBalance) (account mint tokenProgram : Pubkey) :
    Prop where
  mint : (balance.findTokenAccountBalance account).mint env = some mint
  tokenProgram : (balance.findTokenAccountBalance account).tokenProgram env = some tokenProgram

/-- The snapshots show an account with these raw amounts before and after. -/
structure Shown (balance : TxBalance) (account : Pubkey) (before after : UInt64) : Prop where
  before : Records before (balance.findTokenAccountBalance account).before
  after : Records after (balance.findTokenAccountBalance account).after

/-- The recorded amounts of an account are read back from the numbers that are shown. -/
structure Readable (balance : TxBalance) (account : Pubkey) : Prop where
  before : Faithful (balance.findTokenAccountBalance account).before
  after : Faithful (balance.findTokenAccountBalance account).after

/-- The swap settles in these two transfers: `paid` moves tokens of the account `first` on
the user's side, `received` tokens of the account `second` on the opposite side. Neither
connects the accounts, and no other transfer touches them. -/
structure Settles (transfers : List TokenTransfer) (side : Side) (first second user : Pubkey)
    (paid received : TokenTransfer) (others : List TokenTransfer) : Prop where
  all : transfers.Perm (paid :: received :: others)
  paidAt : side.accountOf paid = first
  signed : paid.signer = user
  paidApart : side.opposite.accountOf paid ≠ second
  receivedAt : side.opposite.accountOf received = second
  receivedApart : side.accountOf received ≠ first ∧ side.accountOf received ≠ second
  untouched : ∀ transfer ∈ others, ∀ side : Side,
    side.accountOf transfer ≠ first ∧ side.accountOf transfer ≠ second

/-- How an account changes when it takes in, or pays out, what the user paid. -/
def userMove (isPoolAccount : Bool) (amount : UInt64) : Int :=
  if isPoolAccount then amount.toNat else -(amount.toNat : Int)

/-- A transfer names the mint or leaves it to the snapshots. -/
def NamesAtMost (transfer : TokenTransfer) (mint : Pubkey) : Prop :=
  transfer.mint = none ∨ transfer.mint = some mint

/-! ## The transfers -/

/-- A side is found where exactly one transfer is on it. -/
theorem findLeg_only (transfers others : List TokenTransfer) (side : Side)
    (accepts : Pubkey → Bool) (only : TokenTransfer) (all : transfers.Perm (only :: others))
    (accepted : accepts (side.accountOf only) = true)
    (refused : ∀ transfer ∈ others, accepts (side.accountOf transfer) = false) :
    findLeg transfers side accepts = some only := by
  have rest : others.filter (fun transfer => accepts (side.accountOf transfer)) = [] := by
    rw [List.filter_eq_nil_iff]
    intro transfer member
    simp [refused transfer member]
  have kept := all.filter (fun transfer => accepts (side.accountOf transfer))
  rw [List.filter_cons, if_pos accepted, rest] at kept
  rw [findLeg, List.perm_singleton.mp kept]
  rfl

/-- A side takes its mint from the transfer or else from the snapshots. -/
theorem resolveLeg_recorded (env : Env) (balance : TxBalance) (transfer : TokenTransfer)
    (account mint tokenProgram : Pubkey) (names : NamesAtMost transfer mint)
    (recorded : Recorded env balance account mint tokenProgram) :
    resolveLeg env balance transfer.mint account transfer.amount =
      .ok ⟨mint, tokenProgram, asI64 transfer.amount⟩ := by
  rcases names with unnamed | named
  · simp [resolveLeg, unnamed, recorded.mint, recorded.tokenProgram]
  · simp [resolveLeg, named, recorded.tokenProgram]

section Tiers

variable {env : Env} {balance : TxBalance} {transfers others : List TokenTransfer}
  {a b first second user : Pubkey} {isPoolAccount : Bool} {paid received : TokenTransfer}
  {firstMint firstProgram secondMint secondProgram : Pubkey}

/-- The transfers tell the two sides of a swap that settles in them. -/
theorem tokenTransfers_settle (distinct : a ≠ b) (accounts : Pairs first second a b)
    (settles : Settles transfers (Side.forUserLeg isPoolAccount) first second user paid received
      others)
    (fits : paid.amount.toNat < 2 ^ 63 ∧ received.amount.toNat < 2 ^ 63)
    (names : NamesAtMost paid firstMint ∧ NamesAtMost received secondMint)
    (recorded : Recorded env balance first firstMint firstProgram ∧
      Recorded env balance second secondMint secondProgram) :
    getSwapInfoFromTokenTransfers env balance transfers a b user isPoolAccount =
      .ok (some ⟨firstMint, secondMint, paid.amount, received.amount, firstProgram,
        secondProgram, first = a⟩) := by
  have enough : ¬ transfers.length < 2 := by
    rw [settles.all.length_eq]
    simp
  have userLeg : findLeg transfers (Side.forUserLeg isPoolAccount)
      (fun account => [a, b].contains account) = some paid := by
    apply findLeg_only transfers (received :: others) _ _ paid settles.all
    · rcases accounts with ⟨rfl, rfl⟩ | ⟨rfl, rfl⟩ <;> simp [settles.paidAt]
    · intro transfer member
      have apart : (Side.forUserLeg isPoolAccount).accountOf transfer ≠ first ∧
          (Side.forUserLeg isPoolAccount).accountOf transfer ≠ second := by
        rcases List.mem_cons.mp member with rfl | other
        · exact settles.receivedApart
        · exact settles.untouched transfer other _
      rcases accounts with ⟨rfl, rfl⟩ | ⟨rfl, rfl⟩ <;> simp [apart]
  have counterpart : (if first = a then b else a) = second := by
    rcases accounts with ⟨rfl, rfl⟩ | ⟨rfl, rfl⟩
    · simp
    · simp [distinct.symm]
  have poolLeg : findLeg transfers (Side.forUserLeg isPoolAccount).opposite
      (fun account => account = second) = some received := by
    apply findLeg_only transfers (paid :: others) _ _ received
      (settles.all.trans (List.Perm.swap _ _ _))
    · simp [settles.receivedAt]
    · intro transfer member
      rcases List.mem_cons.mp member with rfl | other
      · simp [settles.paidApart]
      · simp [(settles.untouched transfer other _).2]
  have input := resolveLeg_recorded env balance paid first firstMint firstProgram names.1
    recorded.1
  have output := resolveLeg_recorded env balance received second secondMint secondProgram
    names.2 recorded.2
  simp only [getSwapInfoFromTokenTransfers, if_neg enough, userLeg, settles.signed,
    settles.paidAt, ne_eq, not_true_eq_false, if_false, decide_eq_true_eq, counterpart, poolLeg,
    settles.receivedAt, input, output]
  simp [bind, Except.bind, (unsignedAbs_asI64_iff paid.amount).mpr fits.1.le,
    (unsignedAbs_asI64_iff received.amount).mpr fits.2.le]

/-- The change of a balance that can be compared as a signed integer. -/
theorem difference_shown (account mint : Pubkey) (before after : UInt64)
    (known : (balance.findTokenAccountBalance account).mint env = some mint)
    (shown : Shown balance account before after) (readable : Readable balance account)
    (fits : before.toNat < 2 ^ 63 ∧ after.toNat < 2 ^ 63) :
    (balance.findTokenAccountBalance account).difference env.profile =
      .ok ((after.toNat : Int) - before.toNat) := by
  have present : ¬ ((balance.findTokenAccountBalance account).before.isNone ∧
      (balance.findTokenAccountBalance account).after.isNone) := by
    rintro ⟨noneBefore, noneAfter⟩
    rw [Option.isNone_iff_eq_none] at noneBefore noneAfter
    simp [TokenBalance.mint, noneBefore, noneAfter] at known
  have inRange : -2 ^ 63 ≤ (after.toNat : Int) - before.toNat ∧
      (after.toNat : Int) - before.toNat < 2 ^ 63 := by omega
  simp only [TokenBalance.difference, if_neg present,
    amountOr_readsBack env.profile before _ (readable.before before shown.before),
    amountOr_readsBack env.profile after _ (readable.after after shown.after),
    Outcome.ok_bind, TokenBalance.toI64, tryI64, if_pos fits.1, if_pos fits.2,
    Outcome.okOr_some, checkedSubI64, if_pos inRange]

/-- The balances tell the side of an account. -/
theorem fromBalance_shown (account mint tokenProgram : Pubkey) (before after : UInt64)
    (recorded : Recorded env balance account mint tokenProgram)
    (shown : Shown balance account before after) (readable : Readable balance account)
    (fits : before.toNat < 2 ^ 63 ∧ after.toNat < 2 ^ 63) :
    TokenLeg.fromBalance env (balance.findTokenAccountBalance account) account =
      .ok ⟨mint, tokenProgram, (after.toNat : Int) - before.toNat⟩ := by
  have changed := difference_shown account mint before after recorded.mint shown readable fits
  simp [TokenLeg.fromBalance, recorded.mint, recorded.tokenProgram, changed]

/-- The signs of the two changes tell the two sides. -/
theorem balanceDiff_settle (mints : firstMint ≠ secondMint) (accounts : Pairs first second a b)
    (distinct : a ≠ b) (positive : 0 < paid.amount.toNat ∧ 0 < received.amount.toNat)
    (input : TokenLeg.fromBalance env (balance.findTokenAccountBalance first) first =
      .ok ⟨firstMint, firstProgram, userMove isPoolAccount paid.amount⟩)
    (output : TokenLeg.fromBalance env (balance.findTokenAccountBalance second) second =
      .ok ⟨secondMint, secondProgram, -userMove isPoolAccount received.amount⟩) :
    getSwapInfoFromBalanceDiff env balance a b isPoolAccount =
      .ok ⟨firstMint, secondMint, paid.amount, received.amount, firstProgram, secondProgram,
        first = a⟩ := by
  have amounts : unsignedAbs (userMove isPoolAccount paid.amount) = paid.amount ∧
      unsignedAbs (-userMove isPoolAccount received.amount) = received.amount := by
    cases isPoolAccount <;> simp [unsignedAbs, userMove]
  have goesIn : TokenLeg.isInput
      ⟨firstMint, firstProgram, userMove isPoolAccount paid.amount⟩ isPoolAccount = true := by
    cases isPoolAccount <;> simp [TokenLeg.isInput, userMove] <;> omega
  have comesOut : TokenLeg.isInput
      ⟨secondMint, secondProgram, -userMove isPoolAccount received.amount⟩ isPoolAccount =
        false := by
    cases isPoolAccount <;> simp [TokenLeg.isInput, userMove]
  rcases accounts with ⟨rfl, rfl⟩ | ⟨rfl, rfl⟩
  · simp [getSwapInfoFromBalanceDiff, input, output, goesIn, comesOut, amounts]
  · simp [getSwapInfoFromBalanceDiff, input, output, goesIn, comesOut, amounts, mints,
      distinct.symm]

/-- Both tiers find the same sides of a swap that settles in two transfers between accounts
of different mints, where the snapshots show the two movements, their amounts are read back
and no balance reaches the sign bit. -/
theorem tiers_agree {firstBefore firstAfter secondBefore secondAfter : UInt64}
    (distinct : a ≠ b) (mints : firstMint ≠ secondMint) (accounts : Pairs first second a b)
    (settles : Settles transfers (Side.forUserLeg isPoolAccount) first second user paid received
      others)
    (amounts : (0 < paid.amount.toNat ∧ paid.amount.toNat < 2 ^ 63) ∧
      0 < received.amount.toNat ∧ received.amount.toNat < 2 ^ 63)
    (names : NamesAtMost paid firstMint ∧ NamesAtMost received secondMint)
    (recorded : Recorded env balance first firstMint firstProgram ∧
      Recorded env balance second secondMint secondProgram)
    (shown : Shown balance first firstBefore firstAfter ∧
      Shown balance second secondBefore secondAfter)
    (readable : Readable balance first ∧ Readable balance second)
    (moved : (firstAfter.toNat : Int) - firstBefore.toNat = userMove isPoolAccount paid.amount ∧
      (secondAfter.toNat : Int) - secondBefore.toNat =
        -userMove isPoolAccount received.amount)
    (signed : (firstBefore.toNat < 2 ^ 63 ∧ firstAfter.toNat < 2 ^ 63) ∧
      secondBefore.toNat < 2 ^ 63 ∧ secondAfter.toNat < 2 ^ 63) :
    ∃ info, getSwapInfoFromBalanceDiff env balance a b isPoolAccount = .ok info ∧
      getSwapInfoFromTokenTransfers env balance transfers a b user isPoolAccount =
        .ok (some info) := by
  have input := fromBalance_shown first firstMint firstProgram firstBefore firstAfter
    recorded.1 shown.1 readable.1 signed.1
  have output := fromBalance_shown second secondMint secondProgram secondBefore secondAfter
    recorded.2 shown.2 readable.2 signed.2
  rw [moved.1] at input
  rw [moved.2] at output
  refine ⟨_, balanceDiff_settle mints accounts distinct ⟨amounts.1.1, amounts.2.1⟩ input output,
    ?_⟩
  exact tokenTransfers_settle distinct accounts settles ⟨amounts.1.2, amounts.2.2⟩ names recorded

end Tiers

/-! ## Two vaults -/

/-- `EPjFWdd5AufqSSqeM2qN1xzybapC8G4wEGGkZwyTDt1v` -/
def otherMint : Pubkey := ⟨0xc6fa7af3bedbad3a3d65f36aabc97431b1bbe4c2d2f6e0e47ca60203452f5d61⟩

/-- Libraries that also read the name of a second mint. -/
def vaultLibraries : Env := { poolLibraries with
  pubkeyFromStr := fun text =>
    if text = "EPjFWdd5AufqSSqeM2qN1xzybapC8G4wEGGkZwyTDt1v" then some otherMint
    else poolLibraries.pubkeyFromStr text }

/-- A vault that holds a whole number of units of a mint without decimals. -/
def vaultHolding (accountIndex : UInt8) (mint : String) (amount : Nat) :
    TransactionTokenBalance :=
  ⟨accountIndex, mint, ⟨some (Float64.ofNat amount), 0, toString amount, toString amount⟩, "",
    "TokenkegQfeZyiNwAJbNbGKPFXCWuBvf9Ss623VQ5DA"⟩

/-- The snapshots of the two vaults, accounts 4 and 5. -/
def vaultBalances (firstBefore firstAfter secondBefore secondAfter : Nat) : TxBalance where
  keys := poolKeys .orca
  metadata := ⟨[], [], .empty, [],
    [vaultHolding 4 "So11111111111111111111111111111111111111112" firstBefore,
      vaultHolding 5 "EPjFWdd5AufqSSqeM2qN1xzybapC8G4wEGGkZwyTDt1v" secondBefore],
    [vaultHolding 4 "So11111111111111111111111111111111111111112" firstAfter,
      vaultHolding 5 "EPjFWdd5AufqSSqeM2qN1xzybapC8G4wEGGkZwyTDt1v" secondAfter]⟩

/-- What the user, key 2, pays into the vault 4. -/
def vaultPaid (amount : UInt64) : TokenTransfer := ⟨⟨6⟩, none, ⟨4⟩, ⟨2⟩, amount, false⟩

/-- What the user receives out of the vault 5, in a transfer that the pool, key 3, signs. -/
def vaultReceived (amount : UInt64) : TokenTransfer :=
  ⟨⟨5⟩, some otherMint, ⟨7⟩, ⟨3⟩, amount, false⟩

/-- A fee that touches no vault. -/
def feeTransfer : TokenTransfer := ⟨⟨6⟩, none, ⟨9⟩, ⟨2⟩, 5000, false⟩

/-- The swap settles in the two vaults, whatever the amounts. -/
theorem settles_vaults (paid received : UInt64) :
    Settles [feeTransfer, vaultReceived received, vaultPaid paid] (Side.forUserLeg true) ⟨4⟩ ⟨5⟩
      ⟨2⟩ (vaultPaid paid) (vaultReceived received) [feeTransfer] where
  all := (List.Perm.swap _ _ _).trans ((List.Perm.swap _ _ _).cons _ |>.trans (.swap _ _ _))
  paidAt := rfl
  signed := rfl
  paidApart := by simp [vaultPaid, Side.forUserLeg, Side.opposite, Side.accountOf]
  receivedAt := rfl
  receivedApart := by simp [vaultReceived, Side.forUserLeg, Side.accountOf]
  untouched := by
    intro transfer member side
    obtain rfl := List.mem_singleton.mp member
    cases side <;> decide

/-- The snapshots record both vaults, whatever they hold. -/
theorem recorded_vaults (firstBefore firstAfter secondBefore secondAfter : Nat) :
    Recorded vaultLibraries (vaultBalances firstBefore firstAfter secondBefore secondAfter) ⟨4⟩
        Ids.nativeMint Ids.splToken ∧
      Recorded vaultLibraries (vaultBalances firstBefore firstAfter secondBefore secondAfter) ⟨5⟩
        otherMint Ids.splToken :=
  ⟨⟨rfl, rfl⟩, ⟨rfl, rfl⟩⟩

/-- What a vault holds is read back if its number is finite and comes to it. -/
theorem faithful_vaultHolding (accountIndex : UInt8) (mint : String) (amount : UInt64)
    (finite : (Float64.ofNat amount.toNat).magnitude.isSome)
    (derived : ∀ profile, (deriveAmount profile (vaultHolding accountIndex mint amount.toNat) :
      Outcome Empty UInt64) = .ok amount) :
    Faithful (some (vaultHolding accountIndex mint amount.toNat)) := by
  refine faithful_of_readsBack amount _ rfl (readsBack_of_derived _ _ ?_ derived)
  rintro value shown
  obtain rfl := Option.some.inj shown
  exact finite

/-- A swap of 100 against 50 is seen alike by both tiers. -/
theorem tiers_agree_on_vaults :
    ∃ info, getSwapInfoFromBalanceDiff vaultLibraries (vaultBalances 1000 1100 500 450) ⟨4⟩ ⟨5⟩
        true = .ok info ∧
      getSwapInfoFromTokenTransfers vaultLibraries (vaultBalances 1000 1100 500 450)
        [feeTransfer, vaultReceived 50, vaultPaid 100] ⟨4⟩ ⟨5⟩ ⟨2⟩ true = .ok (some info) := by
  have shown :
      Shown (vaultBalances 1000 1100 500 450) ⟨4⟩ 1000 1100 ∧
        Shown (vaultBalances 1000 1100 500 450) ⟨5⟩ 500 450 :=
    ⟨⟨rfl, rfl⟩, ⟨rfl, rfl⟩⟩
  have readable :
      Readable (vaultBalances 1000 1100 500 450) ⟨4⟩ ∧
        Readable (vaultBalances 1000 1100 500 450) ⟨5⟩ := by
    refine ⟨⟨?_, ?_⟩, ⟨?_, ?_⟩⟩
    · exact faithful_vaultHolding 4 _ 1000 (by decide) (by rintro ⟨_ | _⟩ <;> rfl)
    · exact faithful_vaultHolding 4 _ 1100 (by decide) (by rintro ⟨_ | _⟩ <;> rfl)
    · exact faithful_vaultHolding 5 _ 500 (by decide) (by rintro ⟨_ | _⟩ <;> rfl)
    · exact faithful_vaultHolding 5 _ 450 (by decide) (by rintro ⟨_ | _⟩ <;> rfl)
  exact tiers_agree (by decide) (by decide) (.inl ⟨rfl, rfl⟩) (settles_vaults 100 50) (by decide)
    ⟨.inl rfl, .inr rfl⟩ (recorded_vaults 1000 1100 500 450) shown readable (by decide) (by decide)

/-- The snapshots of the two vaults where the first, of a mint with nine decimals, goes from
nothing to fifteen units. -/
def fineBalances : TxBalance where
  keys := poolKeys .orca
  metadata := ⟨[], [], .empty, [],
    [⟨4, "So11111111111111111111111111111111111111112", ⟨some (Float64.ofNat 0), 9, "0", "0"⟩, "",
        "TokenkegQfeZyiNwAJbNbGKPFXCWuBvf9Ss623VQ5DA"⟩,
      vaultHolding 5 "EPjFWdd5AufqSSqeM2qN1xzybapC8G4wEGGkZwyTDt1v" 500],
    [⟨4, "So11111111111111111111111111111111111111112",
        ⟨some ⟨0x3E501B2B29A4692B⟩, 9, "15", "0.000000015"⟩, "",
        "TokenkegQfeZyiNwAJbNbGKPFXCWuBvf9Ss623VQ5DA"⟩,
      vaultHolding 5 "EPjFWdd5AufqSSqeM2qN1xzybapC8G4wEGGkZwyTDt1v" 450]⟩

/-- A vault that holds 2 ^ 63 units is beyond the tier of the balances, while the transfers
show the same swap of 4096 against 2048 as ever. Where the balances record a payment of
fifteen units, the number that is shown comes to fourteen. -/
theorem tiers_differ_at_sign_bit :
    (Settles [feeTransfer, vaultReceived 2048, vaultPaid 4096] (Side.forUserLeg true) ⟨4⟩ ⟨5⟩ ⟨2⟩
        (vaultPaid 4096) (vaultReceived 2048) [feeTransfer] ∧
      Recorded vaultLibraries (vaultBalances (2 ^ 63) (2 ^ 63 + 4096) 8192 6144) ⟨4⟩
        Ids.nativeMint Ids.splToken ∧
      Recorded vaultLibraries (vaultBalances (2 ^ 63) (2 ^ 63 + 4096) 8192 6144) ⟨5⟩
        otherMint Ids.splToken ∧
      Shown (vaultBalances (2 ^ 63) (2 ^ 63 + 4096) 8192 6144) ⟨4⟩
        (UInt64.ofNat (2 ^ 63)) (UInt64.ofNat (2 ^ 63 + 4096)) ∧
      Shown (vaultBalances (2 ^ 63) (2 ^ 63 + 4096) 8192 6144) ⟨5⟩ 8192 6144 ∧
      getSwapInfoFromBalanceDiff vaultLibraries
        (vaultBalances (2 ^ 63) (2 ^ 63 + 4096) 8192 6144) ⟨4⟩ ⟨5⟩ true =
          .err (.other .i64Convert) ∧
      getSwapInfoFromTokenTransfers vaultLibraries
        (vaultBalances (2 ^ 63) (2 ^ 63 + 4096) 8192 6144)
        [feeTransfer, vaultReceived 2048, vaultPaid 4096] ⟨4⟩ ⟨5⟩ ⟨2⟩ true =
          .ok (some ⟨Ids.nativeMint, otherMint, 4096, 2048, Ids.splToken, Ids.splToken, true⟩)) ∧
    Settles [feeTransfer, vaultReceived 50, vaultPaid 15] (Side.forUserLeg true) ⟨4⟩ ⟨5⟩ ⟨2⟩
        (vaultPaid 15) (vaultReceived 50) [feeTransfer] ∧
      (Recorded vaultLibraries fineBalances ⟨4⟩ Ids.nativeMint Ids.splToken ∧
        Recorded vaultLibraries fineBalances ⟨5⟩ otherMint Ids.splToken) ∧
      (Shown fineBalances ⟨4⟩ 0 15 ∧ Shown fineBalances ⟨5⟩ 500 450) ∧
      getSwapInfoFromBalanceDiff vaultLibraries fineBalances ⟨4⟩ ⟨5⟩ true =
        .ok ⟨Ids.nativeMint, otherMint, 14, 50, Ids.splToken, Ids.splToken, true⟩ ∧
      getSwapInfoFromTokenTransfers vaultLibraries fineBalances
        [feeTransfer, vaultReceived 50, vaultPaid 15] ⟨4⟩ ⟨5⟩ ⟨2⟩ true =
          .ok (some ⟨Ids.nativeMint, otherMint, 15, 50, Ids.splToken, Ids.splToken, true⟩) := by
  refine ⟨⟨settles_vaults 4096 2048, (recorded_vaults _ _ _ _).1, (recorded_vaults _ _ _ _).2,
    ⟨rfl, rfl⟩, ⟨rfl, rfl⟩, rfl, rfl⟩, settles_vaults 15 50, ⟨⟨rfl, rfl⟩, ⟨rfl, rfl⟩⟩,
    ⟨⟨rfl, rfl⟩, ⟨rfl, rfl⟩⟩, ?_, rfl⟩
  decide +kernel

end Graced.LegAgreement
