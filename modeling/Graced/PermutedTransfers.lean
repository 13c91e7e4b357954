import Graced.RouteLinks

/-!
# Transfers in another order

The totals of a leg do not depend on the order of its transfers, only on how the map of the
totals is walked. Permuted transfers are therefore worth another order of the totals. The one
exception is a leg that cannot be added up, in a build that notices overflows: whether it
panics or misses a mint first depends on which transfer comes first.
-/

namespace Graced.PermutedTransfers

open Routes RouteLinks

/-- A leg and the same leg with its transfers in another order. A build that notices overflows
may notice one before it comes to a transfer whose mint is not known, or not; there the mints
must be known. -/
inductive Permuted (profile : Profile) : Route → Route → Prop where
  | same (route : Route) : Permuted profile route route
  | permuted (program : Program) (path : Path) (transfers others : List TokenTransfer) :
      transfers.Perm others →
      (profile.overflowChecks = true → ∀ transfer ∈ transfers, transfer.mint ≠ none) →
      Permuted profile (.undecoded program path transfers) (.undecoded program path others)

variable {profile : Profile}

/-! ## Totals -/

/-- Adding up goes on after a transfer whose mint is known and whose total is returned. -/
theorem totals_cons_ok_iff (sums final : AssocMap Pubkey UInt64) (transfer : TokenTransfer)
    (rest : List TokenTransfer) :
    totals profile sums (transfer :: rest) = .ok final ↔ ∃ mint, transfer.mint = some mint ∧
      (profile.overflowChecks = true →
        ((sums.get mint).getD 0).toNat + transfer.amount.toNat < 2 ^ 64) ∧
      totals profile (sums.insert mint ((sums.get mint).getD 0 + transfer.amount)) rest =
        .ok final := by
  cases named : transfer.mint with
  | none => simp [totals, named]
  | some mint =>
    simp only [totals, named, Outcome.bind_ok_iff, add64_ok_iff, Option.some.injEq,
      exists_eq_left']
    constructor
    · rintro ⟨_, ⟨fits, rfl⟩, later⟩
      exact ⟨fits, later⟩
    · rintro ⟨fits, later⟩
      exact ⟨_, ⟨fits, rfl⟩, later⟩

/-- Only the contents of the map matter. -/
theorem totals_agree (transfers : List TokenTransfer) (sums others final : AssocMap Pubkey UInt64)
    (agree : ∀ mint, sums.get mint = others.get mint)
    (added : totals profile sums transfers = .ok final) :
    ∃ otherFinal, totals profile others transfers = .ok otherFinal ∧
      ∀ mint, final.get mint = otherFinal.get mint := by
  induction transfers generalizing sums others with
  | nil =>
    obtain rfl := Outcome.ok.inj added
    exact ⟨others, rfl, agree⟩
  | cons transfer rest inductionHypothesis =>
    obtain ⟨mint, named, fits, later⟩ := (totals_cons_ok_iff sums final transfer rest).mp added
    rw [agree] at fits later
    obtain ⟨otherFinal, otherLater, same⟩ := inductionHypothesis _
      (others.insert mint ((others.get mint).getD 0 + transfer.amount)) (by simp [agree]) later
    exact ⟨otherFinal, (totals_cons_ok_iff _ _ _ _).mpr ⟨mint, named, fits, otherLater⟩, same⟩

/-- Two transfers can be added in either order. -/
theorem totals_swap (first second : TokenTransfer) (rest : List TokenTransfer)
    (sums final : AssocMap Pubkey UInt64)
    (added : totals profile sums (first :: second :: rest) = .ok final) :
    ∃ otherFinal, totals profile sums (second :: first :: rest) = .ok otherFinal ∧
      ∀ mint, final.get mint = otherFinal.get mint := by
  simp only [totals_cons_ok_iff] at added ⊢
  obtain ⟨mint, named, fits, other, otherNamed, otherFits, later⟩ := added
  by_cases same : mint = other
  · subst same
    simp only [AssocMap.get_insert, if_pos, Option.getD_some] at otherFits later
    -- the two sums are the same number, and so are the totals after each one
    have sumOfBoth (checks : profile.overflowChecks = true) :
        ((sums.get mint).getD 0).toNat + first.amount.toNat + second.amount.toNat < 2 ^ 64 := by
      have whole := otherFits checks
      rwa [UInt64.toNat_add, Nat.mod_eq_of_lt (fits checks)] at whole
    obtain ⟨otherFinal, otherLater, agree⟩ := totals_agree rest _
      ((sums.insert mint ((sums.get mint).getD 0 + second.amount)).insert mint
        ((sums.get mint).getD 0 + second.amount + first.amount)) final (by
          intro key
          simp only [AssocMap.get_insert]
          split
          · rw [UInt64.add_assoc, UInt64.add_comm first.amount, ← UInt64.add_assoc]
          · rfl) later
    refine ⟨otherFinal, ⟨mint, otherNamed, fun checks => ?_, mint, named, fun checks => ?_, ?_⟩,
      agree⟩
    · have bound := sumOfBoth checks
      omega
    · have bound := sumOfBoth checks
      simp only [AssocMap.get_insert, if_pos, Option.getD_some]
      rw [UInt64.toNat_add, Nat.mod_eq_of_lt (by omega)]
      omega
    · simpa only [AssocMap.get_insert, if_pos, Option.getD_some] using otherLater
  · have different : ¬ other = mint := fun equal => same equal.symm
    simp only [AssocMap.get_insert, if_neg same] at otherFits later
    obtain ⟨otherFinal, otherLater, agree⟩ := totals_agree rest _
      ((sums.insert other ((sums.get other).getD 0 + second.amount)).insert mint
        ((sums.get mint).getD 0 + first.amount)) final (by
          intro key
          simp only [AssocMap.get_insert]
          by_cases here : mint = key
          · have notOther : ¬ other = key := fun there => different (there.trans here.symm)
            simp [here, notOther]
          · simp [here]) later
    refine ⟨otherFinal, ⟨other, otherNamed, otherFits, mint, named, ?_, ?_⟩, agree⟩
    · simpa [different] using fits
    · simpa [different] using otherLater

/-- Permuted transfers have the same totals. -/
theorem totals_perm {transfers others : List TokenTransfer} (permuted : transfers.Perm others)
    (sums final : AssocMap Pubkey UInt64)
    (added : totals profile sums transfers = .ok final) :
    ∃ otherFinal, totals profile sums others = .ok otherFinal ∧
      ∀ mint, final.get mint = otherFinal.get mint := by
  induction permuted generalizing sums final with
  | nil => exact ⟨final, added, fun _ => rfl⟩
  | cons transfer _ inductionHypothesis =>
    obtain ⟨mint, named, fits, later⟩ := (totals_cons_ok_iff _ _ _ _).mp added
    obtain ⟨otherFinal, otherLater, agree⟩ := inductionHypothesis _ _ later
    exact ⟨otherFinal, (totals_cons_ok_iff _ _ _ _).mpr ⟨mint, named, fits, otherLater⟩, agree⟩
  | swap second first rest => exact totals_swap first second rest sums final added
  | trans _ _ firstHypothesis secondHypothesis =>
    obtain ⟨middle, atMiddle, agree⟩ := firstHypothesis sums final added
    obtain ⟨otherFinal, atEnd, agreeToo⟩ := secondHypothesis sums middle atMiddle
    exact ⟨otherFinal, atEnd, fun mint => (agree mint).trans (agreeToo mint)⟩

/-- Transfers whose mints are known never fail for an unknown mint. -/
theorem totals_named (sums : AssocMap Pubkey UInt64) (transfers : List TokenTransfer)
    (named : ∀ transfer ∈ transfers, transfer.mint ≠ none) (error : RouteError) :
    totals profile sums transfers ≠ .err error := by
  induction transfers generalizing sums with
  | nil => simp [totals]
  | cons transfer rest inductionHypothesis =>
    obtain ⟨mint, known⟩ := Option.ne_none_iff_exists'.mp (named transfer List.mem_cons_self)
    intro failed
    simp only [totals, known] at failed
    rcases (Outcome.bind_err_iff _ _ _).mp failed with impossible | ⟨total, _, later⟩
    · exact add64_ne_err profile _ _ error impossible
    · exact inductionHypothesis _
        (fun other among => named other (List.mem_cons_of_mem _ among)) later

/-- Transfers that cannot be added up fail alike in another order. -/
theorem totals_perm_failed {transfers others : List TokenTransfer}
    (permuted : transfers.Perm others)
    (known : profile.overflowChecks = true → ∀ transfer ∈ transfers, transfer.mint ≠ none)
    (failed : ∀ sums, totals profile .empty transfers ≠ .ok sums) :
    totals profile .empty others = totals profile .empty transfers := by
  have failedToo : ∀ sums, totals profile .empty others ≠ .ok sums := by
    intro sums added
    obtain ⟨otherSums, otherAdded, _⟩ := totals_perm permuted.symm .empty sums added
    exact failed otherSums otherAdded
  by_cases checks : profile.overflowChecks = true
  · -- all mints are known, and both panic
    have named := known checks
    have namedToo : ∀ transfer ∈ others, transfer.mint ≠ none := fun transfer member =>
      named transfer (permuted.mem_iff.mpr member)
    cases here : totals profile .empty transfers with
    | ok sums => exact absurd here (failed sums)
    | err error => exact absurd here (totals_named _ _ named error)
    | panic =>
      cases there : totals profile .empty others with
      | ok sums => exact absurd there (failedToo sums)
      | err error => exact absurd there (totals_named _ _ namedToo error)
      | panic => rfl
  · -- nothing panics, and both lack a mint
    have unchecked : profile.overflowChecks = false := Bool.eq_false_iff.mpr checks
    cases here : totals profile .empty transfers with
    | ok sums => exact absurd here (failed sums)
    | panic => exact absurd here (totals_unchecked profile unchecked _ _)
    | err error =>
      obtain rfl := totals_err profile _ _ _ here
      cases there : totals profile .empty others with
      | ok sums => exact absurd there (failedToo sums)
      | panic => exact absurd there (totals_unchecked profile unchecked _ _)
      | err other =>
        obtain rfl := totals_err profile _ _ _ there
        rfl

/-! ## Legs and routes -/

/-- The shape of a leg with permuted transfers is the one that another order gives the leg
itself. -/
theorem shapeOf_permuted (route other : Route) (permuted : Permuted profile route other)
    (order : IterationOrder Pubkey UInt64) :
    ∃ arranged, shapeOf profile order other = shapeOf profile arranged route := by
  cases permuted with
  | same => exact ⟨order, rfl⟩
  | permuted program path transfers others permuted known =>
    by_cases adds : ∃ sums, totals profile .empty transfers = .ok sums
    · obtain ⟨sums, added⟩ := adds
      obtain ⟨otherSums, otherAdded, agree⟩ := totals_perm permuted .empty sums added
      have entries := AssocMap.entries_perm sums otherSums agree
      refine ⟨⟨fun listed =>
          if listed = sums.entries then order.arrange otherSums.entries else listed,
        fun listed => ?_⟩, ?_⟩
      · split
        · next same => exact same ▸ (order.complete _).trans entries.symm
        · exact .refl _
      · simp only [shapeOf, candidatesFromTransfers, added, otherAdded, Outcome.ok_bind, if_pos]
    · have alike := totals_perm_failed permuted known (not_exists.mp adds)
      exact ⟨order, by simp only [shapeOf, candidatesFromTransfers, alike]⟩

/-- The shapes of permuted legs are those that other orders give the legs themselves. -/
theorem shapes_permuted (routes others : List Route)
    (permuted : List.Forall₂ (Permuted profile) routes others)
    (orders : Nat → IterationOrder Pubkey UInt64) :
    ∃ arranged, shapes profile orders others = shapes profile arranged routes := by
  unfold shapes
  generalize 0 = offset
  induction permuted generalizing offset with
  | nil => exact ⟨orders, rfl⟩
  | @cons route other routes others head _ inductionHypothesis =>
    obtain ⟨first, here⟩ := shapeOf_permuted route other head (orders offset)
    obtain ⟨arranged, later⟩ := inductionHypothesis (offset + 1)
    refine ⟨fun index => if index = offset then first else arranged index, ?_⟩
    have unchanged : Outcome.collect (fun entry => shapeOf profile
          (if entry.2 = offset then first else arranged entry.2) entry.1)
          (routes.zipIdx (offset + 1)) =
        Outcome.collect (fun entry => shapeOf profile (arranged entry.2) entry.1)
          (routes.zipIdx (offset + 1)) := by
      refine Outcome.collect_congr _ _ _ fun entry listed => ?_
      have after : offset + 1 ≤ entry.2 := (List.mem_zipIdx listed).1
      rw [if_neg (by omega)]
    simp only [List.zipIdx_cons, Outcome.collect, if_pos]
    rw [here, later, unchanged]

/-- The swaps of a permuted route are those of the route in another order, and so is the net
swap. -/
theorem results_permuted (routes others : List Route)
    (permuted : List.Forall₂ (Permuted profile) routes others)
    (orders : Nat → IterationOrder Pubkey UInt64) :
    ∃ arranged, toSwaps profile orders others = toSwaps profile arranged routes ∧
      Routes.swap profile orders others = Routes.swap profile arranged routes := by
  obtain ⟨arranged, shaped⟩ := shapes_permuted routes others permuted orders
  have resolved : toSwaps profile orders others = toSwaps profile arranged routes := by
    rw [toSwaps, toSwaps, shaped]
  have undecoded : others.any (fun route => !route.isDecoded) =
      routes.any (fun route => !route.isDecoded) := by
    clear shaped resolved
    induction permuted with
    | nil => rfl
    | cons head _ inductionHypothesis =>
      rw [List.any_cons, List.any_cons, inductionHypothesis]
      cases head <;> rfl
  have decoded (f : Route → Option Swap)
      (skips : ∀ program path transfers, f (.undecoded program path transfers) = none) :
      others.filterMap f = routes.filterMap f := by
    clear shaped resolved undecoded
    induction permuted with
    | nil => rfl
    | cons head _ inductionHypothesis =>
      cases head <;> simp [List.filterMap_cons, inductionHypothesis, skips]
  have sameKinds : swaps profile orders others = swaps profile arranged routes := by
    rw [swaps, swaps, resolved, undecoded, decoded _ fun _ _ _ => rfl]
  exact ⟨arranged, resolved, by rw [Routes.swap, Routes.swap, sameKinds]⟩

end Graced.PermutedTransfers
