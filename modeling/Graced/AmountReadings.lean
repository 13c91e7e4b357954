import Graced.BalanceDiff
import Graced.Balances
import Graced.Rounding

/-!
# Two readings of one amount

A token balance has its amount twice, as a numeral and as the number shown to users, which
may be missing. The balance differences read the numeral. Everything else rebuilds the
amount from the number that is shown: it is multiplied by a power of ten, rounded, and cut
down. That loses what rounding takes below the amount, what a double cannot hold, and all
of an amount that is not shown.
-/

namespace Graced.AmountReadings

open BalanceDiff Float64

/-- The amount comes back: its power of ten is a machine word, and the number that is shown
(nothing is taken for zero) comes to the amount and not to the next one when it is scaled and
rounded. -/
def Recoverable (shown : Option ℚ) (decimals amount : Nat) : Prop :=
  decimals ≤ 19 ∧
    match shown with
    | none => amount = 0
    | some x => Reaches (x * 10 ^ decimals) amount ∧
        (amount + 1 < 2 ^ 64 → ¬ Reaches (x * 10 ^ decimals) (amount + 1))

/-- A power of ten that is a machine word is a double. -/
theorem power_short (decimals : Nat) (few : decimals ≤ 19) :
    10 ^ decimals < 2 ^ 64 ∧ 2 ^ ((10 ^ decimals).log2 - 52) ∣ 10 ^ decimals := by
  have checked : ∀ d < 20, 10 ^ d < 2 ^ 64 ∧ 10 ^ d % 2 ^ ((10 ^ d).log2 - 52) = 0 := by decide
  obtain ⟨fits, divides⟩ := checked decimals (by omega)
  exact ⟨fits, Nat.dvd_of_mod_eq_zero divides⟩

/-- Where the power of ten fits, no build notices it. -/
theorem deriveAmount_fits {ε : Type} (profile : Profile) (balance : TransactionTokenBalance)
    (few : balance.uiTokenAmount.decimals.toNat ≤ 19) :
    (deriveAmount profile balance : Outcome ε UInt64) =
      .ok (((balance.uiTokenAmount.uiAmount.getD (ofNat 0)).mul
        (ofNat (10 ^ balance.uiTokenAmount.decimals.toNat))).truncToU64) := by
  have fits := (power_short _ few).1
  have ten : (10 : UInt64).toNat = 10 := rfl
  have power : (profile.pow64 10 balance.uiTokenAmount.decimals.toNat : Outcome ε UInt64) =
      .ok (UInt64.ofNat (10 ^ balance.uiTokenAmount.decimals.toNat)) := by
    rw [Profile.pow64, ten, if_neg (by omega)]
  rw [deriveAmount, power, Outcome.ok_bind, UInt64.toNat_ofNat_of_lt' fits]
  rfl

/-- A larger power of ten panics in a build that checks. -/
theorem deriveAmount_overflow {ε : Type} (balance : TransactionTokenBalance)
    (many : 20 ≤ balance.uiTokenAmount.decimals.toNat) :
    (deriveAmount ⟨true⟩ balance : Outcome ε UInt64) = .panic := by
  have large : 2 ^ 64 ≤ 10 ^ balance.uiTokenAmount.decimals.toNat :=
    (by decide : 2 ^ 64 ≤ 10 ^ 20).trans (Nat.pow_le_pow_right (by decide) many)
  have ten : (10 : UInt64).toNat = 10 := rfl
  have power : ((⟨true⟩ : Profile).pow64 10 balance.uiTokenAmount.decimals.toNat :
      Outcome ε UInt64) = .panic := by
    rw [Profile.pow64, ten, if_pos ⟨rfl, large⟩]
  rw [deriveAmount, power, Outcome.panic_bind]

/-- What is not shown is taken for zero. -/
theorem deriveAmount_missing {ε : Type} (profile : Profile) (balance : TransactionTokenBalance)
    (missing : balance.uiTokenAmount.uiAmount = none)
    (few : balance.uiTokenAmount.decimals.toNat ≤ 19) :
    (deriveAmount profile balance : Outcome ε UInt64) = .ok 0 := by
  obtain ⟨fits, short⟩ := power_short _ few
  rw [deriveAmount_fits profile balance few, missing, Option.getD_none]
  refine congrArg Outcome.ok (UInt64.toNat_inj.mp (Nat.lt_one_iff.mp (Nat.not_le.mp ?_)))
  rw [le_trunc_mul_iff _ 0 magnitude_zero _ (Nat.pow_pos (by decide)).ne' fits short 1 (by decide),
    zero_mul, reaches_zero_iff]
  decide

/-- What is computed is the amount if it is at least that and not more. -/
theorem eq_iff_reaches (computed amount : UInt64) (reaches : Nat → Prop)
    (atLeast : ∀ target < 2 ^ 64, target ≤ computed.toNat ↔ reaches target) :
    computed = amount ↔
      reaches amount.toNat ∧ (amount.toNat + 1 < 2 ^ 64 → ¬ reaches (amount.toNat + 1)) := by
  have bounded := amount.toNat_lt
  have computedBounded := computed.toNat_lt
  rw [← UInt64.toNat_inj, ← atLeast _ bounded]
  constructor
  · intro same
    refine ⟨same.ge, fun next => ?_⟩
    rw [← atLeast _ next]
    omega
  · rintro ⟨reached, exceeded⟩
    by_cases next : amount.toNat + 1 < 2 ^ 64
    · have short := exceeded next
      rw [← atLeast _ next] at short
      omega
    · omega

/-- Every build computes the amount exactly if it is recoverable from the number that is
shown. -/
theorem derived_iff {ε : Type} (balance : TransactionTokenBalance) (amount : UInt64)
    (finite : ∀ value, balance.uiTokenAmount.uiAmount = some value → value.magnitude.isSome) :
    (∀ profile, (deriveAmount profile balance : Outcome ε UInt64) = .ok amount) ↔
      Recoverable (balance.uiTokenAmount.uiAmount.bind magnitude)
        balance.uiTokenAmount.decimals.toNat amount.toNat := by
  unfold Recoverable
  rcases Nat.lt_or_ge 19 balance.uiTokenAmount.decimals.toNat with many | few
  · refine iff_of_false (fun computed => ?_) fun recoverable => absurd recoverable.1 (by omega)
    have panics := computed ⟨true⟩
    rw [deriveAmount_overflow balance many] at panics
    simp at panics
  · obtain ⟨fits, short⟩ := power_short _ few
    have positive : 10 ^ balance.uiTokenAmount.decimals.toNat ≠ 0 := (Nat.pow_pos (by decide)).ne'
    have uniform : ∀ computed, (∀ profile, (deriveAmount profile balance :
        Outcome ε UInt64) = .ok computed) →
          ((∀ profile, (deriveAmount profile balance : Outcome ε UInt64) = .ok amount) ↔
            computed = amount) := by
      intro computed derived
      simp only [derived, Outcome.ok.injEq]
      exact ⟨fun same => same ⟨true⟩, fun same _ => same⟩
    rw [and_iff_right few]
    cases shown : balance.uiTokenAmount.uiAmount with
    | none =>
      rw [uniform 0 fun profile => deriveAmount_missing profile _ shown few, eq_comm,
        ← UInt64.toNat_inj]
      rfl
    | some value =>
      obtain ⟨x, exactly⟩ := Option.isSome_iff_exists.mp (finite value shown)
      have derived : ∀ profile, (deriveAmount profile balance : Outcome ε UInt64) =
          .ok ((value.mul (ofNat (10 ^ balance.uiTokenAmount.decimals.toNat))).truncToU64) := by
        intro profile
        rw [deriveAmount_fits profile balance few]
        simp only [shown, Option.getD_some]
      rw [uniform _ derived, Option.bind_some, exactly, eq_iff_reaches _ amount _
        (le_trunc_mul_iff _ x exactly _ positive fits short)]
      push_cast
      rfl

/-- The numeral of an amount is read as that amount. -/
theorem amountOf_numeral (balance : UiTransactionTokenBalance) (amount : UInt64)
    (numeral : balance.uiTokenAmount.amount = toString amount.toNat) :
    amountOf (some balance) = amount.toNat := by
  have bounded := amount.toNat_lt
  rw [amountOf, Option.bind_some, numeral, Numerals.parseI128_toString _ (by omega)]
  rfl

/-- Both readings are the amount, in every build, exactly if it is recoverable from the number
that is shown. -/
theorem readings_agree_iff {ε : Type} (balance : UiTransactionTokenBalance) (amount : UInt64)
    (numeral : balance.uiTokenAmount.amount = toString amount.toNat)
    (finite : ∀ value, balance.uiTokenAmount.uiAmount = some value → value.magnitude.isSome) :
    (amountOf (some balance) = amount.toNat ∧ ∀ profile,
        (deriveAmount profile (Rpc.convertBalance balance) : Outcome ε UInt64) = .ok amount) ↔
      Recoverable (balance.uiTokenAmount.uiAmount.bind magnitude)
        balance.uiTokenAmount.decimals.toNat amount.toNat := by
  rw [and_iff_right (amountOf_numeral balance amount numeral)]
  exact derived_iff (Rpc.convertBalance balance) amount finite

/-! ## Recorded amounts -/

/-- This raw amount is recorded. What is not recorded is nothing. -/
def Records (amount : UInt64) : Option TransactionTokenBalance → Prop
  | none => amount = 0
  | some balance => balance.uiTokenAmount.amount = toString amount.toNat

/-- This amount is read back from the number that is shown. -/
def ReadsBack (amount : UInt64) : Option TransactionTokenBalance → Prop
  | none => amount = 0
  | some balance =>
    (∀ value, balance.uiTokenAmount.uiAmount = some value → value.magnitude.isSome) ∧
      Recoverable (balance.uiTokenAmount.uiAmount.bind magnitude)
        balance.uiTokenAmount.decimals.toNat amount.toNat

/-- Whatever amount is recorded is read back. -/
def Faithful (recorded : Option TransactionTokenBalance) : Prop :=
  ∀ amount, Records amount recorded → ReadsBack amount recorded

/-- One amount is recorded. -/
theorem Records.unique {amount other : UInt64} {recorded : Option TransactionTokenBalance}
    (left : Records amount recorded) (right : Records other recorded) : amount = other := by
  cases recorded with
  | none => exact Eq.trans left (Eq.symm right)
  | some balance =>
    have amountBounded := amount.toNat_lt
    have otherBounded := other.toNat_lt
    have numerals : toString amount.toNat = toString other.toNat := Eq.trans (Eq.symm left) right
    have read := Numerals.parseI128_toString amount.toNat (by omega)
    rw [numerals, Numerals.parseI128_toString _ (by omega)] at read
    exact UInt64.toNat_inj.mp (Int.ofNat.inj (Option.some.inj read)).symm

/-- A snapshot is faithful if the amount in it is read back. -/
theorem faithful_of_readsBack (amount : UInt64) (recorded : Option TransactionTokenBalance)
    (records : Records amount recorded) (reads : ReadsBack amount recorded) :
    Faithful recorded := by
  intro other recordsOther
  rw [← records.unique recordsOther]
  exact reads

/-- What is read back is what the parsers compute. -/
theorem amountOr_readsBack {ε : Type} (profile : Profile) (amount : UInt64)
    (recorded : Option TransactionTokenBalance) (reads : ReadsBack amount recorded) :
    (TokenBalance.amountOr profile recorded : Outcome ε UInt64) = .ok amount := by
  cases recorded with
  | none =>
    obtain rfl : amount = 0 := reads
    rfl
  | some balance => exact (derived_iff balance amount reads.1).mpr reads.2 profile

/-- A finite number is read back as the amount that it comes to in every build. -/
theorem readsBack_of_derived (amount : UInt64) (balance : TransactionTokenBalance)
    (finite : ∀ value, balance.uiTokenAmount.uiAmount = some value → value.magnitude.isSome)
    (derived : ∀ profile, (deriveAmount profile balance : Outcome Empty UInt64) = .ok amount) :
    ReadsBack amount (some balance) :=
  ⟨finite, (derived_iff balance amount finite).mp derived⟩

/-- A difference is that of the amounts of its two sides. -/
theorem difference_amounts (profile : Profile) (balance : TokenBalance) (delta : Int)
    (found : balance.difference profile = .ok delta) : ∃ before after,
      (TokenBalance.amountOr profile balance.before : Outcome BalanceError UInt64) = .ok before ∧
      (TokenBalance.amountOr profile balance.after : Outcome BalanceError UInt64) = .ok after ∧
      delta = (after.toNat : Int) - before.toNat := by
  have signed (amount : UInt64) (value : Int) (converted : tryI64 amount = some value) :
      value = amount.toNat := by
    unfold tryI64 at converted
    split at converted
    · exact (Option.some.inj converted).symm
    · cases converted
  rw [TokenBalance.difference] at found
  split at found
  · cases found
  · simp only [Outcome.bind_ok_iff, TokenBalance.toI64, Outcome.okOr_eq_ok] at found
    obtain ⟨before, readBefore, first, firstFits, after, readAfter, second, secondFits,
      subtracted⟩ := found
    refine ⟨before, after, readBefore, readAfter, ?_⟩
    unfold checkedSubI64 at subtracted
    split at subtracted
    · rw [← signed before first firstFits, ← signed after second secondFits]
      exact (Option.some.inj subtracted).symm
    · cases subtracted

/-- The change of an account whose snapshots are read back is the change of what is read. -/
theorem difference_readsBack (profile : Profile) (balance : TokenBalance) (before after : UInt64)
    (readsBefore : ReadsBack before balance.before) (readsAfter : ReadsBack after balance.after)
    (change : Int) (found : balance.difference profile = .ok change) :
    change = (after.toNat : Int) - before.toNat := by
  obtain ⟨earlier, later, atEarlier, atLater, rfl⟩ :=
    difference_amounts profile balance change found
  obtain rfl : before = earlier :=
    Outcome.ok.inj ((amountOr_readsBack profile before _ readsBefore).symm.trans atEarlier)
  obtain rfl : after = later :=
    Outcome.ok.inj ((amountOr_readsBack profile after _ readsAfter).symm.trans atLater)
  rfl

/-! ## Some balances -/

/-- A balance of a mint with these decimals. -/
def shownBalance (uiAmount : Option Float64) (decimals : UInt8) (amount uiAmountString : String) :
    UiTransactionTokenBalance :=
  ⟨1, "EPjFWdd5AufqSSqeM2qN1xzybapC8G4wEGGkZwyTDt1v",
    ⟨uiAmount, decimals, amount, uiAmountString⟩, .skip, .skip⟩

/-- An amount that is not shown is taken for zero. The double nearest to 0.29 comes to less than
29 hundredths. Twenty decimals overflow the power of ten. -/
theorem amounts_misread :
    (amountOf (some (shownBalance none 6 "5000000" "5")) = 5000000 ∧
      ∀ profile, (deriveAmount profile (Rpc.convertBalance (shownBalance none 6 "5000000" "5")) :
        Outcome Empty UInt64) = .ok 0) ∧
    (amountOf (some (shownBalance (some ⟨0x3FD28F5C28F5C28F⟩) 2 "29" "0.29")) = 29 ∧
      (∃ x, (⟨0x3FD28F5C28F5C28F⟩ : Float64).magnitude = some x ∧ |x - 29 / 100| ≤ 1 / 2 ^ 55) ∧
      ∀ profile, (deriveAmount profile (Rpc.convertBalance
        (shownBalance (some ⟨0x3FD28F5C28F5C28F⟩) 2 "29" "0.29")) : Outcome Empty UInt64) =
          .ok 28) ∧
    (amountOf (some (shownBalance none 20 "0" "0")) = 0 ∧
      (deriveAmount ⟨true⟩ (Rpc.convertBalance (shownBalance none 20 "0" "0")) :
        Outcome Empty UInt64) = .panic) := by
  refine ⟨⟨by decide, fun profile => ?_⟩, ⟨by decide, ?_, fun profile => ?_⟩, by decide, by decide⟩
  · exact deriveAmount_missing profile _ rfl (by decide)
  · have decoded : (⟨0x3FD28F5C28F5C28F⟩ : Float64).decode =
        .finite false 5224175567749775 (-54) := by decide
    refine ⟨exact 5224175567749775 (-54), by simp only [magnitude, decoded], ?_⟩
    rw [exact, abs_le]
    constructor <;> norm_num
  · rw [deriveAmount_fits profile _ (by decide)]
    decide

/-- One half, with one decimal, is five. -/
theorem readings_agree_on_half :
    amountOf (some (shownBalance (some ⟨0x3FE0000000000000⟩) 1 "5" "0.5")) = (5 : UInt64).toNat ∧
      ∀ profile,
        (deriveAmount profile (Rpc.convertBalance
          (shownBalance (some ⟨0x3FE0000000000000⟩) 1 "5" "0.5")) : Outcome Empty UInt64) =
        .ok 5 := by
  have half : (⟨0x3FE0000000000000⟩ : Float64).magnitude = some (1 / 2) := by
    have decoded : (⟨0x3FE0000000000000⟩ : Float64).decode =
        .finite false 4503599627370496 (-53) := by decide
    simp only [magnitude, decoded, exact]
    norm_num
  refine (readings_agree_iff (shownBalance (some ⟨0x3FE0000000000000⟩) 1 "5" "0.5") 5 (by decide)
    ?_).mpr ⟨by decide, ?_⟩
  · rintro value shown
    obtain rfl := Option.some.inj shown
    exact Option.isSome_of_eq_some half
  · have five : (5 : UInt64).toNat = 5 ∧ (1 : UInt8).toNat = 1 := ⟨rfl, rfl⟩
    have spacings : spacingBelow 5 = 2 ^ (-50 : Int) ∧ spacingBelow 6 = 2 ^ (-50 : Int) :=
      ⟨rfl, rfl⟩
    simp only [shownBalance, Option.bind_some, half, five.1, five.2]
    rw [reaches_iff_of_small _ 5 (by decide) (by decide), spacings.1]
    refine ⟨by norm_num, fun _ => ?_⟩
    rw [reaches_iff_of_small _ 6 (by decide) (by decide), spacings.2]
    norm_num

end Graced.AmountReadings
