import Graced.LegAgreement

/-!
# Directions from signs

Two changes of balances tell the sides of a swap if exactly one of them is marked as an
input: a gain of an account of the pool, or a loss of one of the user. Whatever is not
marked is the output, also an account that did not change, so the test is one-sided: an
idle account is taken for an output and never for an input.

The direction is told by mints. Between two accounts of one mint it is the same whichever
comes first.
-/

namespace Graced.SignHeuristic

open LegAgreement

/-- A change that marks an input: what goes in raises an account of the pool, or lowers one
of the user. -/
def MarksInput (isPoolAccount : Bool) (delta : Int) : Prop :=
  (isPoolAccount = true ∧ 0 < delta) ∨ (isPoolAccount = false ∧ delta < 0)

/-- One of two changes marks an input and the other does not. -/
def OneInput (isPoolAccount : Bool) (delta other : Int) : Prop :=
  (MarksInput isPoolAccount delta ∧ ¬ MarksInput isPoolAccount other) ∨
    (¬ MarksInput isPoolAccount delta ∧ MarksInput isPoolAccount other)

/-- One account gained and the other lost. -/
def TwoSided (delta other : Int) : Prop :=
  (0 < delta ∧ other < 0) ∨ (delta < 0 ∧ 0 < other)

/-- A swap goes from one side into the other, by as much as each of them changed. -/
structure Between (isPoolAccount : Bool) (input output : TokenLeg) (info : SwapInfo) :
    Prop where
  marked : MarksInput isPoolAccount input.delta
  unmarked : ¬ MarksInput isPoolAccount output.delta
  inputMint : info.inputMint = input.mint
  outputMint : info.outputMint = output.mint
  inputAmount : info.inputAmount.toNat = input.delta.natAbs
  outputAmount : info.outputAmount.toNat = output.delta.natAbs
  inputMoved : info.inputAmount ≠ 0
  inputTokenProgram : info.inputTokenProgram = input.tokenProgram
  outputTokenProgram : info.outputTokenProgram = output.tokenProgram

/-- The same swap, seen from two sides in the other order. Between sides of one mint the
direction stays. -/
def exchanged (a b : TokenLeg) (info : SwapInfo) : SwapInfo :=
  { info with aToB := if a.mint = b.mint then info.aToB else !info.aToB }

/-- The same failure, seen from two sides in the other order. -/
def exchangedError : SwapInfoError → SwapInfoError
  | .failedHeuristic aIsInput bIsInput => .failedHeuristic bIsInput aIsInput
  | error => error

/-- What is found between two sides, seen from them in the other order. -/
def exchangedResult (a b : TokenLeg) :
    Outcome SwapInfoError SwapInfo → Outcome SwapInfoError SwapInfo
  | .ok info => .ok (exchanged a b info)
  | .err error => .err (exchangedError error)
  | .panic => .panic

theorem isInput_iff (leg : TokenLeg) (isPoolAccount : Bool) :
    leg.isInput isPoolAccount = true ↔ MarksInput isPoolAccount leg.delta := by
  cases isPoolAccount <;> simp [TokenLeg.isInput, MarksInput]

/-- The two tests differ exactly if there is one input. -/
theorem isInput_ne_iff (a b : TokenLeg) (isPoolAccount : Bool) :
    a.isInput isPoolAccount ≠ b.isInput isPoolAccount ↔
      OneInput isPoolAccount a.delta b.delta := by
  rw [OneInput, ← isInput_iff, ← isInput_iff]
  cases a.isInput isPoolAccount <;> cases b.isInput isPoolAccount <;> simp

/-- Two accounts that moved against each other have one input, from both viewpoints. -/
theorem oneInput_of_twoSided (isPoolAccount : Bool) (delta other : Int)
    (twoSided : TwoSided delta other) : OneInput isPoolAccount delta other := by
  rcases twoSided with ⟨gained, lost⟩ | ⟨lost, gained⟩
  · cases isPoolAccount
    · exact .inr ⟨by simp [MarksInput]; omega, .inr ⟨rfl, lost⟩⟩
    · exact .inl ⟨.inl ⟨rfl, gained⟩, by simp [MarksInput]; omega⟩
  · cases isPoolAccount
    · exact .inl ⟨.inr ⟨rfl, lost⟩, by simp [MarksInput]; omega⟩
    · exact .inr ⟨by simp [MarksInput]; omega, .inl ⟨rfl, gained⟩⟩

/-- A change that can be told by a signed integer has a magnitude that can be told. -/
theorem fromBalance_range (env : Env) (balance : TokenBalance) (account : Pubkey)
    (leg : TokenLeg) (resolved : TokenLeg.fromBalance env balance account = .ok leg) :
    leg.delta.natAbs < 2 ^ 63 := by
  simp only [TokenLeg.fromBalance, Outcome.bind_ok_iff, Outcome.okOr_eq_ok,
    Outcome.mapError_eq_ok, Outcome.pure_eq, Outcome.ok.injEq] at resolved
  obtain ⟨mint, _, tokenProgram, _, delta, found, rfl⟩ := resolved
  exact TokenBalance.difference_range _ _ _ found

theorem unsignedAbs_toNat (value : Int) (range : value.natAbs < 2 ^ 63) :
    (unsignedAbs value).toNat = value.natAbs := by
  rw [unsignedAbs]
  exact UInt64.toNat_ofNat_of_lt' (by change _ < 2 ^ 64; omega)

/-- The swap between two sides, the first of which is the input. -/
def swapBetween (a input output : TokenLeg) : SwapInfo where
  aToB := input.mint = a.mint
  inputMint := input.mint
  outputMint := output.mint
  inputAmount := unsignedAbs input.delta
  outputAmount := unsignedAbs output.delta
  inputTokenProgram := input.tokenProgram
  outputTokenProgram := output.tokenProgram

theorem between (isPoolAccount : Bool) (a input output : TokenLeg)
    (inputRange : input.delta.natAbs < 2 ^ 63) (outputRange : output.delta.natAbs < 2 ^ 63)
    (marked : MarksInput isPoolAccount input.delta)
    (unmarked : ¬ MarksInput isPoolAccount output.delta) :
    Between isPoolAccount input output (swapBetween a input output) where
  marked := marked
  unmarked := unmarked
  inputMint := rfl
  outputMint := rfl
  inputAmount := unsignedAbs_toNat _ inputRange
  outputAmount := unsignedAbs_toNat _ outputRange
  inputMoved := by
    have moved : input.delta ≠ 0 := by
      rcases marked with ⟨_, gained⟩ | ⟨_, lost⟩
      · exact gained.ne'
      · exact lost.ne
    rw [swapBetween, ne_eq, ← UInt64.toNat_inj, unsignedAbs_toNat _ inputRange]
    simpa using moved
  inputTokenProgram := rfl
  outputTokenProgram := rfl

section Resolved

variable {env : Env} {balance : TxBalance} {accountA accountB : Pubkey} {a b : TokenLeg}

/-- Three results are possible between two sides. -/
theorem of_resolved (isPoolAccount : Bool)
    (resolvedA : TokenLeg.fromBalance env (balance.findTokenAccountBalance accountA) accountA =
      .ok a)
    (resolvedB : TokenLeg.fromBalance env (balance.findTokenAccountBalance accountB) accountB =
      .ok b) :
    getSwapInfoFromBalanceDiff env balance accountA accountB isPoolAccount =
      if a.isInput isPoolAccount = b.isInput isPoolAccount then
        .err (.failedHeuristic (a.isInput isPoolAccount) (b.isInput isPoolAccount))
      else if a.isInput isPoolAccount then .ok (swapBetween a a b)
      else .ok (swapBetween a b a) := by
  rw [getSwapInfoFromBalanceDiff, resolvedA, resolvedB]
  simp only [Outcome.ok_bind]
  congr 1
  split <;> rfl

/-- A swap is found exactly if there is one input. -/
theorem accepted_iff (isPoolAccount : Bool)
    (resolvedA : TokenLeg.fromBalance env (balance.findTokenAccountBalance accountA) accountA =
      .ok a)
    (resolvedB : TokenLeg.fromBalance env (balance.findTokenAccountBalance accountB) accountB =
      .ok b) :
    (∃ info, getSwapInfoFromBalanceDiff env balance accountA accountB isPoolAccount = .ok info) ↔
      OneInput isPoolAccount a.delta b.delta := by
  rw [of_resolved isPoolAccount resolvedA resolvedB, ← isInput_ne_iff]
  split
  · next same => simp [same]
  · next differ =>
    refine iff_of_true ?_ differ
    split
    · exact ⟨_, rfl⟩
    · exact ⟨_, rfl⟩

/-- The swap that is found goes from the marked side into the other. -/
theorem found_between (isPoolAccount : Bool)
    (resolvedA : TokenLeg.fromBalance env (balance.findTokenAccountBalance accountA) accountA =
      .ok a)
    (resolvedB : TokenLeg.fromBalance env (balance.findTokenAccountBalance accountB) accountB =
      .ok b) (info : SwapInfo)
    (found : getSwapInfoFromBalanceDiff env balance accountA accountB isPoolAccount = .ok info) :
    (Between isPoolAccount a b info ∧ info.aToB = true) ∨
      (Between isPoolAccount b a info ∧ (info.aToB = true ↔ b.mint = a.mint)) := by
  have rangeA := fromBalance_range _ _ _ _ resolvedA
  have rangeB := fromBalance_range _ _ _ _ resolvedB
  rw [of_resolved isPoolAccount resolvedA resolvedB] at found
  split at found
  · cases found
  · next differ =>
    split at found
    · next aMarked =>
      obtain rfl := Outcome.ok.inj found
      have bUnmarked : ¬ b.isInput isPoolAccount = true := fun bMarked =>
        differ (aMarked.trans bMarked.symm)
      rw [isInput_iff] at aMarked bUnmarked
      exact .inl ⟨between isPoolAccount a a b rangeA rangeB aMarked bUnmarked,
        decide_eq_true rfl⟩
    · next aUnmarked =>
      obtain rfl := Outcome.ok.inj found
      have bMarked : b.isInput isPoolAccount = true := by
        rw [Bool.not_eq_true] at aUnmarked
        simpa [aUnmarked] using differ
      rw [isInput_iff] at aUnmarked bMarked
      exact .inr ⟨between isPoolAccount a b a rangeB rangeA bMarked aUnmarked,
        decide_eq_true_iff⟩

/-- The sides in the other order give the same swap, or the same failure. -/
theorem exchange_resolved (isPoolAccount : Bool)
    (resolvedA : TokenLeg.fromBalance env (balance.findTokenAccountBalance accountA) accountA =
      .ok a)
    (resolvedB : TokenLeg.fromBalance env (balance.findTokenAccountBalance accountB) accountB =
      .ok b) :
    getSwapInfoFromBalanceDiff env balance accountB accountA isPoolAccount =
      exchangedResult a b
        (getSwapInfoFromBalanceDiff env balance accountA accountB isPoolAccount) := by
  have mints : decide (b.mint = a.mint) = decide (a.mint = b.mint) := decide_eq_decide.mpr eq_comm
  rw [of_resolved isPoolAccount resolvedA resolvedB, of_resolved isPoolAccount resolvedB resolvedA]
  cases a.isInput isPoolAccount <;> cases b.isInput isPoolAccount
  · rfl
  · by_cases same : a.mint = b.mint <;>
      simp [exchangedResult, exchanged, swapBetween, same, mints]
  · by_cases same : a.mint = b.mint <;>
      simp [exchangedResult, exchanged, swapBetween, same]
  · rfl

end Resolved

/-- A swap is found exactly if one of the two changes marks an input and the other does not;
it goes from the one into the other. The order of the sides decides the direction if their
mints differ, and nothing else. -/
theorem one_input_accepted (env : Env) (balance : TxBalance) (accountA accountB : Pubkey)
    (isPoolAccount : Bool) (a b : TokenLeg)
    (resolvedA : TokenLeg.fromBalance env (balance.findTokenAccountBalance accountA) accountA =
      .ok a)
    (resolvedB : TokenLeg.fromBalance env (balance.findTokenAccountBalance accountB) accountB =
      .ok b) :
    ((∃ info, getSwapInfoFromBalanceDiff env balance accountA accountB isPoolAccount =
        .ok info) ↔ OneInput isPoolAccount a.delta b.delta) ∧
    (TwoSided a.delta b.delta → OneInput isPoolAccount a.delta b.delta) ∧
    (¬ OneInput isPoolAccount a.delta b.delta →
      getSwapInfoFromBalanceDiff env balance accountA accountB isPoolAccount =
        .err (.failedHeuristic (a.isInput isPoolAccount) (b.isInput isPoolAccount))) ∧
    (∀ info, getSwapInfoFromBalanceDiff env balance accountA accountB isPoolAccount = .ok info →
      (Between isPoolAccount a b info ∧ info.aToB = true) ∨
      (Between isPoolAccount b a info ∧ (info.aToB = true ↔ b.mint = a.mint))) ∧
    getSwapInfoFromBalanceDiff env balance accountB accountA isPoolAccount =
      exchangedResult a b
        (getSwapInfoFromBalanceDiff env balance accountA accountB isPoolAccount) := by
  refine ⟨accepted_iff isPoolAccount resolvedA resolvedB, oneInput_of_twoSided isPoolAccount _ _,
    ?_, found_between isPoolAccount resolvedA resolvedB,
    exchange_resolved isPoolAccount resolvedA resolvedB⟩
  intro notOne
  rw [← isInput_ne_iff, not_not] at notOne
  rw [of_resolved isPoolAccount resolvedA resolvedB, if_pos notOne]

/-- The two vaults of a swap in which the second gave 50 for 100. -/
theorem one_input_of_vaults :
    getSwapInfoFromBalanceDiff vaultLibraries (vaultBalances 1000 1100 500 450) ⟨5⟩ ⟨4⟩ true =
      .ok ⟨Ids.nativeMint, otherMint, 100, 50, Ids.splToken, Ids.splToken, false⟩ := by
  have accepted := one_input_accepted vaultLibraries (vaultBalances 1000 1100 500 450) ⟨4⟩ ⟨5⟩
    true ⟨Ids.nativeMint, Ids.splToken, 100⟩ ⟨otherMint, Ids.splToken, -50⟩ rfl rfl
  rw [accepted.2.2.2.2]
  rfl

/-- Two vaults of one mint. -/
def twinBalances : TxBalance where
  keys := poolKeys .orca
  metadata := ⟨[], [], .empty, [],
    [vaultHolding 4 "So11111111111111111111111111111111111111112" 1000,
      vaultHolding 5 "So11111111111111111111111111111111111111112" 500],
    [vaultHolding 4 "So11111111111111111111111111111111111111112" 1100,
      vaultHolding 5 "So11111111111111111111111111111111111111112" 450]⟩

/-- A vault that gained is found opposite one that did not change, and the direction between
two vaults of one mint is the same in both orders. -/
theorem idle_output_accepted :
    TokenLeg.fromBalance vaultLibraries
        ((vaultBalances 1000 1100 500 500).findTokenAccountBalance ⟨4⟩) ⟨4⟩ =
      .ok ⟨Ids.nativeMint, Ids.splToken, 100⟩ ∧
    TokenLeg.fromBalance vaultLibraries
        ((vaultBalances 1000 1100 500 500).findTokenAccountBalance ⟨5⟩) ⟨5⟩ =
      .ok ⟨otherMint, Ids.splToken, 0⟩ ∧
    ¬ TwoSided 100 0 ∧
    getSwapInfoFromBalanceDiff vaultLibraries (vaultBalances 1000 1100 500 500) ⟨4⟩ ⟨5⟩ true =
      .ok ⟨Ids.nativeMint, otherMint, 100, 0, Ids.splToken, Ids.splToken, true⟩ ∧
    getSwapInfoFromBalanceDiff vaultLibraries twinBalances ⟨4⟩ ⟨5⟩ true =
      .ok ⟨Ids.nativeMint, Ids.nativeMint, 100, 50, Ids.splToken, Ids.splToken, true⟩ ∧
    getSwapInfoFromBalanceDiff vaultLibraries twinBalances ⟨5⟩ ⟨4⟩ true =
      .ok ⟨Ids.nativeMint, Ids.nativeMint, 100, 50, Ids.splToken, Ids.splToken, true⟩ :=
  ⟨rfl, rfl, by simp [TwoSided], rfl, rfl, rfl⟩

end Graced.SignHeuristic
