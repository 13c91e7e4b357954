import Graced.Ledger
import Graced.LegSides

/-!
# Sums that leave their range

The walk over a route adds to a balance with a plain addition, which panics or wraps, and to
the input with a saturating one, which clamps. The totals of an undecoded leg are added up
plainly too. Each of these sums is exact exactly as long as the unbounded one is a word: on
the way of the walk up to its end or the first refused swap, and for the totals up to the
first transfer that names no mint. The walk in unbounded integers ends at the first swap that
is short, so that the amounts are its amounts only if the walk over words notices one as well.
-/

namespace Graced

namespace SwapGraph

open FirstInput

/-- The additions of one round are exact: the capital is not clamped, and the credit neither
panics nor wraps. -/
structure ExactRound (entry : Pubkey) (walk drawn : Walk) (s : Swap) : Prop where
  capital : s.inputMint = entry → walk.netInput.toNat + (walk.missing s).toNat < 2 ^ 64
  credit : (drawn.available s.outputMint).toNat + s.outputAmount.toNat < 2 ^ 64

/-- All additions of the walk are exact. A swap that is refused adds nothing. -/
def ExactWalk (profile : Profile) (entry : Pubkey) : Walk → List Swap → Prop
  | _, [] => True
  | walk, s :: rest => ∀ drawn, draw entry walk s = .ok drawn →
    ExactRound entry walk drawn s ∧
      ∀ next, step profile entry walk s = .ok next → ExactWalk profile entry next rest

/-- The walk in unbounded integers. The first swap that is short ends it, with the mint it
lacks and how much. -/
def Ledger.walk (entry : Pubkey) : Ledger → List Swap → Except (Pubkey × Nat) Ledger
  | ledger, [] => .ok ledger
  | ledger, s :: rest =>
    if short entry ledger s then .error (s.inputMint, ledger.shortfall s)
    else walk entry (ledger.execute entry s) rest

/-- The net amounts of a route in unbounded integers: what was put in of its first mint, and
what is held of its last. -/
def Ledger.net (first : Swap) (rest : List Swap) : Except (Pubkey × Nat) (Nat × Nat) := do
  let final ← walk first.inputMint start (first :: rest)
  .ok (final.netInput,
    final.balance ((first :: rest).getLast (List.cons_ne_nil first rest)).outputMint)

/-- The walk over a route ends in an error, or has the net amounts of the walk in unbounded
integers; and none of its sums wraps, panics or is clamped. -/
structure Netted (profile : Profile) (first : Swap) (rest : List Swap) : Prop where
  result : (∃ error, swap profile ⟨first :: rest⟩ = .err error) ∨
    ∃ net, swap profile ⟨first :: rest⟩ = .ok net ∧
      Ledger.net first rest = .ok (net.inputAmount.toNat, net.outputAmount.toNat)
  additions : ExactWalk profile first.inputMint .start (first :: rest)

/-- Netting a list of swaps does not overflow. -/
def NettingExact (profile : Profile) : List Swap → Prop
  | [] => ∃ error, swap profile ⟨[]⟩ = .err error
  | first :: rest => Netted profile first rest

/-- A swap of the route passes a test at the ledger before it. -/
def Somewhere (test : Pubkey → Ledger → Swap → Bool) (entry : Pubkey) (swaps : List Swap) : Prop :=
  ∃ before s later, swaps = before ++ s :: later ∧ test entry (.after entry before) s

/-- Every ledger that the walk gets to fits, and if some swap is short then some swap is
noticed. -/
structure Contained (first : Swap) (rest : List Swap) : Prop where
  fits : ∀ reached, Reached first.inputMint .start (first :: rest) reached → reached.Fits
  noticed : Somewhere short first.inputMint (first :: rest) →
    Somewhere SwapGraph.noticed first.inputMint (first :: rest)

/-- The same, of a list that may be empty. -/
def NettingContained : List Swap → Prop
  | [] => True
  | first :: rest => Contained first rest

section Route

variable {profile : Profile} {entry : Pubkey} {ledger : Ledger} {state : Walk}

/-- The additions of a round are exact exactly if the executed ledger fits. -/
theorem exactRound_iff (follows : Follows ledger state) (fits : ledger.Fits) (s : Swap) :
    ExactRound entry state (state.drawn entry s) s ↔ (ledger.execute entry s).Fits := by
  have credit : ((state.drawn entry s).available s.outputMint).toNat + s.outputAmount.toNat <
      2 ^ 64 ↔ (ledger.execute entry s).balance s.outputMint < 2 ^ 64 := by
    have overflow := overflows_iff follows entry s
    rw [Walk.Overflows] at overflow
    omega
  have input : state.netInput.toNat = ledger.netInput := by
    have bounded := fits.2
    rw [follows.netInput]
    omega
  have capital : (s.inputMint = entry →
      state.netInput.toNat + (state.missing s).toNat < 2 ^ 64) ↔
        (ledger.execute entry s).netInput < 2 ^ 64 := by
    rw [missing_follows follows, Ledger.shortfall_toNat, input, Ledger.execute]
    by_cases same : s.inputMint = entry
    · simp [same]
    · simpa [same] using fits.2
  constructor
  · rintro ⟨exactCapital, exactCredit⟩
    refine ⟨?_, capital.mp exactCapital⟩
    intro mint
    by_cases same : s.outputMint = mint
    · exact same ▸ credit.mp exactCredit
    · have held := fits.1 mint
      rw [Ledger.execute_balance, if_neg same]
      omega
  · rintro ⟨balances, exactInput⟩
    exact ⟨capital.mpr exactInput, credit.mpr (balances s.outputMint)⟩

/-- The additions of the walk are exact exactly if every ledger that it gets to fits. -/
theorem exactWalk_iff (swaps : List Swap) (follows : Follows ledger state) (fits : ledger.Fits) :
    ExactWalk profile entry state swaps ↔
      ∀ reached, Reached entry ledger swaps reached → reached.Fits := by
  induction swaps generalizing ledger state with
  | nil =>
    refine iff_of_true trivial ?_
    intro reached stays
    exact (reaches_nil _ _ ledger reached).mp stays ▸ fits
  | cons s rest inductionHypothesis =>
    rw [ExactWalk, draw_refuses follows]
    cases verdict : noticed entry ledger s with
    | true =>
      refine iff_of_true (by simp) ?_
      intro reached gotThere
      rcases (reaches_cons _ _ ledger reached s rest).mp gotThere with rfl | ⟨passed, _⟩
      · exact fits
      · simp [verdict] at passed
    | false =>
      have onwards (reached : Ledger) : Reached entry ledger (s :: rest) reached ↔
          reached = ledger ∨ Reached entry (ledger.execute entry s) rest reached := by
        refine (reaches_cons _ _ ledger reached s rest).trans ?_
        simp [verdict, Reached]
      simp only [Bool.false_eq_true, if_false, Outcome.ok.injEq, forall_eq', onwards,
        forall_eq_or_imp, fits, true_and]
      rw [exactRound_iff follows fits]
      constructor
      · rintro ⟨executedFits, continued⟩
        obtain ⟨stepped, nextFollows⟩ := step_settles follows profile entry s verdict executedFits.1
        exact (inductionHypothesis nextFollows executedFits).mp (continued _ stepped)
      · intro later
        have executedFits : (ledger.execute entry s).Fits := later _ ⟨[], rest, rfl, rfl, rfl⟩
        obtain ⟨stepped, nextFollows⟩ := step_settles follows profile entry s verdict executedFits.1
        refine ⟨executedFits, ?_⟩
        intro next alsoStepped
        obtain rfl := Outcome.ok.inj (stepped.symm.trans alsoStepped)
        exact (inductionHypothesis nextFollows executedFits).mpr later

end Route

/-- A test is passed nowhere exactly if no swap is found. -/
theorem not_somewhere_iff (test : Pubkey → Ledger → Swap → Bool) (entry : Pubkey)
    (swaps : List Swap) :
    ¬ Somewhere test entry swaps ↔
      firstWhere (Ledger.execute entry) (test entry) .start swaps = none := by
  rw [firstWhere_eq_none_iff]
  simp only [Somewhere, not_exists, not_and, Bool.not_eq_true]
  rfl

/-- The walk in unbounded integers gets to its end exactly if no swap is short. -/
theorem ledgerWalk_ok_iff (entry : Pubkey) (ledger final : Ledger) (swaps : List Swap) :
    Ledger.walk entry ledger swaps = .ok final ↔
      firstWhere (Ledger.execute entry) (short entry) ledger swaps = none ∧
        final = swaps.foldl (Ledger.execute entry) ledger := by
  induction swaps generalizing ledger with
  | nil => simp [Ledger.walk, eq_comm]
  | cons s rest inductionHypothesis =>
    cases verdict : short entry ledger s with
    | true =>
      rw [firstWhere_here _ _ ledger s rest verdict]
      simp [Ledger.walk, verdict]
    | false =>
      rw [firstWhere_later _ _ ledger s rest verdict, Ledger.walk, if_neg (by simp [verdict])]
      exact inductionHypothesis _

theorem start_fits : Ledger.start.Fits := ⟨fun _ => Nat.two_pow_pos 64, Nat.two_pow_pos 64⟩

/-- Netting a route does not overflow exactly if every ledger that the walk gets to fits and
the walk notices a swap if some swap is short. -/
theorem nettingExact_iff (profile : Profile) (swaps : List Swap) :
    NettingExact profile swaps ↔ NettingContained swaps := by
  cases swaps with
  | nil => exact iff_of_true ⟨_, rfl⟩ trivial
  | cons first rest =>
    have additions : ExactWalk profile first.inputMint .start (first :: rest) ↔
        ∀ reached, Reached first.inputMint .start (first :: rest) reached → reached.Fits :=
      exactWalk_iff (first :: rest) start_follows start_fits
    have ends (fits : ∀ reached, Reached first.inputMint .start (first :: rest) reached →
        reached.Fits) :=
      swap_ends profile (first :: rest) (List.cons_ne_nil first rest)
        (fun reached gotThere => (fits reached gotThere).1)
    simp only [List.head_cons] at ends
    constructor
    · intro netted
      have fits := additions.mp netted.additions
      refine ⟨fits, fun someShort => ?_⟩
      by_contra unnoticed
      have passed := (not_somewhere_iff noticed _ _).mp unnoticed
      rcases netted.result with ⟨error, failed⟩ | ⟨net, _, unbounded⟩
      · rcases ends fits with ⟨_, _, refused, _⟩ | ⟨_, _, succeeded, _⟩
        · exact absurd (refused.symm.trans passed) (by simp)
        · simp [failed] at succeeded
      · obtain ⟨final, walked, _⟩ := (Outcome.exceptBind_ok_iff _ _ _).mp unbounded
        exact (not_somewhere_iff short _ _).mpr ((ledgerWalk_ok_iff _ _ _ _).mp walked).1 someShort
    · intro contained
      refine ⟨?_, additions.mpr contained.fits⟩
      rcases ends contained.fits with
        ⟨found, s, _, failed⟩ | ⟨passed, net, succeeded, input, output⟩
      · exact .inl ⟨_, failed⟩
      · have last : (Ledger.after first.inputMint (first :: rest)).Fits :=
          contained.fits _ ⟨first :: rest, [], by simp, passed, rfl⟩
        have noneShort : ¬ Somewhere short first.inputMint (first :: rest) := fun someShort =>
          (not_somewhere_iff noticed _ _).mpr passed (contained.noticed someShort)
        have walked : Ledger.walk first.inputMint .start (first :: rest) =
            .ok (.after first.inputMint (first :: rest)) :=
          (ledgerWalk_ok_iff _ _ _ _).mpr ⟨(not_somewhere_iff short _ _).mp noneShort, rfl⟩
        have bounded := last.2
        refine .inr ⟨net, succeeded, ?_⟩
        rw [Ledger.net, walked, output, input, min_eq_left (by omega)]
        rfl

end SwapGraph

namespace Routes

/-- All additions to the totals are exact. A transfer without a mint ends them. -/
def ExactTotals (profile : Profile) : AssocMap Pubkey UInt64 → List TokenTransfer → Prop
  | _, [] => True
  | sums, transfer :: rest => ∀ mint, transfer.mint = some mint →
    ((sums.get mint).getD 0).toNat + transfer.amount.toNat < 2 ^ 64 ∧
      ∀ total, (profile.add64 ((sums.get mint).getD 0) transfer.amount :
        Outcome RouteError UInt64) = .ok total → ExactTotals profile (sums.insert mint total) rest

/-- Adding up transfers does not overflow: it ends in an error or in the totals of the
transfers, and no sum wraps or panics. -/
structure TotalsExact (profile : Profile) (transfers : List TokenTransfer) : Prop where
  result : (∃ error, totals profile .empty transfers = .err error) ∨
    ∃ sums, totals profile .empty transfers = .ok sums ∧
      ∀ mint, ((sums.get mint).getD 0).toNat = mintTotal transfers mint
  additions : ExactTotals profile .empty transfers

/-- The transfers before the first that names no mint. -/
def namedBefore (transfers : List TokenTransfer) : List TokenTransfer :=
  transfers.takeWhile (fun transfer => transfer.mint.isSome)

/-- The totals of the transfers that are added up are words. -/
def TotalsFit (transfers : List TokenTransfer) : Prop :=
  ∀ mint, mintTotal (namedBefore transfers) mint < 2 ^ 64

theorem namedBefore_unnamed (transfer : TokenTransfer) (rest : List TokenTransfer)
    (unnamed : transfer.mint = none) : namedBefore (transfer :: rest) = [] := by
  simp [namedBefore, unnamed]

theorem namedBefore_named (transfer : TokenTransfer) (rest : List TokenTransfer) (mint : Pubkey)
    (named : transfer.mint = some mint) :
    namedBefore (transfer :: rest) = transfer :: namedBefore rest := by
  simp [namedBefore, named]

/-- One more sum leaves room for the others exactly if there was room for it with them. -/
theorem insert_fits_iff (sums : AssocMap Pubkey UInt64) (transfer : TokenTransfer)
    (rest : List TokenTransfer) (mint : Pubkey) (total : UInt64)
    (named : transfer.mint = some mint)
    (sum : total.toNat = ((sums.get mint).getD 0).toNat + transfer.amount.toNat) :
    (∀ other, (((sums.insert mint total).get other).getD 0).toNat + mintTotal rest other <
      2 ^ 64) ↔
      ∀ other, ((sums.get other).getD 0).toNat + mintTotal (transfer :: rest) other <
        2 ^ 64 := by
  apply forall_congr'
  intro other
  rw [mintTotal_cons, named, AssocMap.get_insert]
  by_cases same : mint = other
  · subst same
    rw [if_pos rfl, if_pos rfl, Option.getD_some, sum]
    omega
  · simp [same]

/-- The additions are exact exactly if the totals of what is added up fit. -/
theorem exactTotals_iff (profile : Profile) (sums : AssocMap Pubkey UInt64)
    (transfers : List TokenTransfer) :
    ExactTotals profile sums transfers ↔
      ∀ mint, ((sums.get mint).getD 0).toNat + mintTotal (namedBefore transfers) mint <
        2 ^ 64 := by
  have present (mint : Pubkey) : ((sums.get mint).getD 0).toNat < 2 ^ 64 := UInt64.toNat_lt _
  induction transfers generalizing sums with
  | nil => exact iff_of_true trivial present
  | cons transfer rest inductionHypothesis =>
    cases named : transfer.mint with
    | none =>
      rw [ExactTotals, namedBefore_unnamed transfer rest named]
      exact iff_of_true (by simp [named]) present
    | some mint =>
      rw [ExactTotals, namedBefore_named transfer rest mint named]
      simp only [named, Option.some.injEq, forall_eq']
      by_cases room : ((sums.get mint).getD 0).toNat + transfer.amount.toNat < 2 ^ 64
      · obtain ⟨total, added, sum⟩ := add64_fits (ε := RouteError) profile _ _ room
        simp only [added, Outcome.ok.injEq, forall_eq', room, true_and]
        exact (inductionHypothesis (sums.insert mint total) (fun _ => UInt64.toNat_lt _)).trans
          (insert_fits_iff sums transfer (namedBefore rest) mint total named sum)
      · refine iff_of_false (fun both => room both.1) ?_
        intro fits
        have atMint := fits mint
        rw [mintTotal_cons, if_pos named] at atMint
        omega

/-- While the sums fit, a transfer without a mint is an error. -/
theorem totals_unnamed (profile : Profile) (sums : AssocMap Pubkey UInt64)
    (transfers : List TokenTransfer)
    (fits : ∀ mint, ((sums.get mint).getD 0).toNat + mintTotal (namedBefore transfers) mint <
      2 ^ 64) (unnamed : ∃ transfer ∈ transfers, transfer.mint = none) :
    totals profile sums transfers = .err .unknownMint := by
  induction transfers generalizing sums with
  | nil => simp at unnamed
  | cons transfer rest inductionHypothesis =>
    cases named : transfer.mint with
    | none => simp [totals, named]
    | some mint =>
      rw [namedBefore_named transfer rest mint named] at fits
      have room := fits mint
      rw [mintTotal_cons, if_pos named] at room
      obtain ⟨total, added, sum⟩ := add64_fits (ε := RouteError) profile
        ((sums.get mint).getD 0) transfer.amount (by omega)
      have later : ∃ transfer ∈ rest, transfer.mint = none := by
        obtain ⟨found, member, missing⟩ := unnamed
        rcases List.mem_cons.mp member with rfl | inRest
        · simp [named] at missing
        · exact ⟨found, inRest, missing⟩
      simp only [totals, named, added, Outcome.ok_bind]
      exact inductionHypothesis _
        ((insert_fits_iff sums transfer (namedBefore rest) mint total named sum).mpr fits) later

/-- Adding up transfers does not overflow exactly if what is added up fits. -/
theorem totalsExact_iff (profile : Profile) (transfers : List TokenTransfer) :
    TotalsExact profile transfers ↔ TotalsFit transfers := by
  have additions : ExactTotals profile .empty transfers ↔ TotalsFit transfers := by
    rw [exactTotals_iff]
    simp [TotalsFit]
  constructor
  · intro totalsExact
    exact additions.mp totalsExact.additions
  · intro fits
    refine ⟨?_, additions.mpr fits⟩
    by_cases unnamed : ∃ transfer ∈ transfers, transfer.mint = none
    · exact .inl ⟨_, totals_unnamed profile .empty transfers (by simpa [TotalsFit] using fits)
        unnamed⟩
    · have named : ∀ transfer ∈ transfers, transfer.mint ≠ none := by
        intro transfer member missing
        exact unnamed ⟨transfer, member, missing⟩
      have all : namedBefore transfers = transfers := by
        apply List.takeWhile_eq_self_iff.mpr
        intro transfer member
        exact Option.isSome_iff_ne_none.mpr (named transfer member)
      obtain ⟨sums, added, sumsExact, _⟩ := totals_exact profile .empty transfers named
        (by simpa [TotalsFit, all] using fits)
      exact .inr ⟨sums, added, by simpa using sumsExact⟩

end Routes

open SwapGraph Routes

/-- For every list of swaps, netting does not overflow if and only if every ledger that the
walk gets to fits and, if some swap is short, some swap is noticed; and for every list of
transfers, adding them up does not overflow if and only if the totals of those before the
first without a mint fit. -/
theorem netting_exact_iff (profile : Profile) (swaps : List Swap)
    (transfers : List TokenTransfer) :
    (NettingExact profile swaps ↔ NettingContained swaps) ∧
      (TotalsExact profile transfers ↔ TotalsFit transfers) :=
  ⟨nettingExact_iff profile swaps, totalsExact_iff profile transfers⟩

/-- Two legs that each pay out 2 ^ 63 units of one mint. -/
def halvesRoute : List Swap :=
  [⟨1, 9223372036854775808, ⟨0xA⟩, ⟨0xB⟩⟩, ⟨1, 9223372036854775808, ⟨0xA⟩, ⟨0xB⟩⟩]

/-- Two transfers of 2 ^ 63 units of one mint. -/
def halvesTransfers : List TokenTransfer :=
  [⟨⟨1⟩, some ⟨0xB⟩, ⟨2⟩, ⟨3⟩, 9223372036854775808, false⟩,
    ⟨⟨1⟩, some ⟨0xB⟩, ⟨2⟩, ⟨3⟩, 9223372036854775808, false⟩]

/-- The credits of both legs wrap to nothing, or panic in a build that checks, and so do the
amounts of both transfers. -/
theorem halves_overflow :
    swap ⟨false⟩ ⟨halvesRoute⟩ = .ok ⟨2, 0, ⟨0xA⟩, ⟨0xB⟩⟩ ∧
      swap ⟨true⟩ ⟨halvesRoute⟩ = .panic ∧
      totals ⟨true⟩ .empty halvesTransfers = .panic ∧
      (∀ profile, ¬ NettingExact profile halvesRoute) ∧
      ∀ profile, ¬ TotalsExact profile halvesTransfers := by
  refine ⟨by decide, by decide, rfl, ?_, ?_⟩
  · intro profile netted
    have contained := (nettingExact_iff profile halvesRoute).mp netted
    have last := contained.fits _ ⟨halvesRoute, [], rfl, by decide, rfl⟩
    exact absurd (last.1 ⟨0xB⟩) (by decide)
  · intro profile exactTotals
    have fits := (totalsExact_iff profile halvesTransfers).mp exactTotals
    exact absurd (fits ⟨0xB⟩) (by decide)

end Graced
