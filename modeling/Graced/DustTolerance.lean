import Graced.NetSwap

/-!
# How much may be missing

A swap may lack five of ten thousand parts of its input. The test multiplies both amounts
and saturates both products: from a fifth of the greatest word on, five times the input is
the greatest product there is, and nothing is too much to be missing. Below that the test
is the exact one. A route is judged as it should be exactly if the first swap that is short
by more than the tolerance and the first such swap below that bound tell the same.
-/

namespace Graced.SwapGraph

open FirstInput

/-- What the error tells of a swap: the mint it lacks, and how much. -/
def report (found : Ledger × Swap) : Pubkey × Nat :=
  (found.2.inputMint, found.1.shortfall found.2)

/-- The first swap of a route that a test picks, as the error tells of it. -/
def firstReport (test : Pubkey → Ledger → Swap → Bool) (entry : Pubkey) (swaps : List Swap) :
    Option (Pubkey × Nat) :=
  (firstWhere (Ledger.execute entry) (test entry) .start swaps).map report

/-- The dust tolerance is exact on a route: it is refused exactly if some swap is short, the
error tells of the first such swap, and without one there is a net swap. -/
structure DustExact (profile : Profile) (swaps : List Swap) (entry : Pubkey) : Prop where
  refused_iff : (∃ mint amount, swap profile ⟨swaps⟩ = .err (.imbalancedRoute mint amount)) ↔
    ∃ before s later, swaps = before ++ s :: later ∧ short entry (.after entry before) s
  first : ∀ before s later, swaps = before ++ s :: later →
    short entry (.after entry before) s →
    (∀ earlier t between, before = earlier ++ t :: between →
      short entry (.after entry earlier) t = false) →
    swap profile ⟨swaps⟩ = .err (.imbalancedRoute s.inputMint
      (UInt64.ofNat ((Ledger.after entry before).shortfall s)))
  otherwise : (∀ before s later, swaps = before ++ s :: later →
    short entry (.after entry before) s = false) → ∃ net, swap profile ⟨swaps⟩ = .ok net

/-- A route is short nowhere exactly if no swap is found. -/
theorem firstReport_eq_none_iff (entry : Pubkey) (swaps : List Swap) :
    firstReport short entry swaps = none ↔ ∀ before s later, swaps = before ++ s :: later →
      short entry (.after entry before) s = false := by
  rw [firstReport, Option.map_eq_none_iff, firstWhere_eq_none_iff]
  rfl

/-- The first short swap is the one that is found. -/
theorem firstReport_of_first (entry : Pubkey) (before later : List Swap) (s : Swap)
    (isShort : short entry (.after entry before) s)
    (earliest : ∀ earlier t between, before = earlier ++ t :: between →
      short entry (.after entry earlier) t = false) :
    firstReport short entry (before ++ s :: later) =
      some (s.inputMint, (Ledger.after entry before).shortfall s) := by
  have found : firstWhere (Ledger.execute entry) (short entry) .start (before ++ s :: later) =
      some (.after entry before, s) := by
    rw [firstWhere_eq_some_iff]
    exact ⟨before, later, rfl, rfl, isShort, (firstWhere_eq_none_iff _ _ _ _).mpr earliest⟩
  rw [firstReport, found]
  rfl

/-- A route with a short swap has a first one. -/
theorem exists_first_short (entry : Pubkey) (swaps : List Swap)
    (isShort : firstReport short entry swaps ≠ none) :
    ∃ before s later, swaps = before ++ s :: later ∧ short entry (.after entry before) s ∧
      ∀ earlier t between, before = earlier ++ t :: between →
        short entry (.after entry earlier) t = false := by
  rw [firstReport, ne_eq, Option.map_eq_none_iff] at isShort
  obtain ⟨⟨ledger, s⟩, found⟩ := Option.ne_none_iff_exists'.mp isShort
  obtain ⟨before, later, split, rfl, shortHere, nothing⟩ :=
    (firstWhere_eq_some_iff _ _ _ _ _ _).mp found
  exact ⟨before, s, later, split, shortHere, (firstWhere_eq_none_iff _ _ _ _).mp nothing⟩

/-- What the walk reports is the first swap that is noticed. -/
theorem swap_reports (profile : Profile) (swaps : List Swap) (nonempty : swaps ≠ [])
    (fits : Fits swaps) :
    match firstReport noticed (swaps.head nonempty).inputMint swaps with
    | some (mint, missing) => missing < 2 ^ 64 ∧
        swap profile ⟨swaps⟩ = .err (.imbalancedRoute mint (UInt64.ofNat missing))
    | none => ∃ net, swap profile ⟨swaps⟩ = .ok net := by
  have same : firstReport noticed (swaps.head nonempty).inputMint swaps =
      (firstRefused (swaps.head nonempty).inputMint .start swaps).map report := rfl
  rw [same]
  rcases swap_ends profile swaps nonempty (reached_fits _ swaps fits) with
    ⟨found, s, refused, failed⟩ | ⟨passed, net, succeeded, _⟩
  · rw [refused]
    refine ⟨?_, failed⟩
    have bounded := (UInt64.ofNat (found.shortfall s)).toNat_lt
    rwa [Ledger.shortfall_toNat] at bounded
  · rw [passed]
    exact ⟨net, succeeded⟩

/-- For every route whose totals fit, the dust tolerance is exact if and only if the first
short swap and the first noticed one tell the same mint and amount, or there is neither. -/
theorem dust_exact_iff (profile : Profile) (swaps : List Swap) (nonempty : swaps ≠ [])
    (fits : Fits swaps) :
    DustExact profile swaps (swaps.head nonempty).inputMint ↔
      firstReport short (swaps.head nonempty).inputMint swaps =
        firstReport noticed (swaps.head nonempty).inputMint swaps := by
  have reports := swap_reports profile swaps nonempty fits
  generalize (swaps.head nonempty).inputMint = entry at reports ⊢
  have shortSomewhere : firstReport short entry swaps ≠ none ↔
      ∃ before s later, swaps = before ++ s :: later ∧ short entry (.after entry before) s := by
    rw [ne_eq, firstReport_eq_none_iff]
    simp
  constructor
  · intro exactTolerance
    cases isNoticed : firstReport noticed entry swaps with
    | none =>
      rw [isNoticed] at reports
      obtain ⟨net, succeeded⟩ := reports
      by_contra isShort
      obtain ⟨mint, amount, failed⟩ :=
        exactTolerance.refused_iff.mpr (shortSomewhere.mp isShort)
      simp [succeeded] at failed
    | some told =>
      rw [isNoticed] at reports
      obtain ⟨bounded, failed⟩ := reports
      have isShort := shortSomewhere.mpr (exactTolerance.refused_iff.mp ⟨_, _, failed⟩)
      obtain ⟨before, s, later, rfl, shortHere, nothing⟩ :=
        exists_first_short entry swaps isShort
      have expected := exactTolerance.first before s later rfl shortHere nothing
      rw [failed, Outcome.err.injEq, SwapGraphError.imbalancedRoute.injEq] at expected
      obtain ⟨sameMint, sameWord⟩ := expected
      have sameAmount : told.2 = (Ledger.after entry before).shortfall s := by
        have words := congrArg UInt64.toNat sameWord
        rwa [Ledger.shortfall_toNat, UInt64.toNat_ofNat_of_lt' bounded] at words
      rw [firstReport_of_first entry before later s shortHere nothing, ← sameMint, ← sameAmount]
  · intro same
    rw [← same] at reports
    refine ⟨?_, ?_, ?_⟩
    · rw [← shortSomewhere]
      cases isShort : firstReport short entry swaps with
      | none =>
        rw [isShort] at reports
        obtain ⟨net, succeeded⟩ := reports
        simp [succeeded]
      | some told =>
        rw [isShort] at reports
        exact iff_of_true ⟨_, _, reports.2⟩ (by simp)
    · rintro before s later rfl shortHere nothing
      rw [firstReport_of_first entry before later s shortHere nothing] at reports
      exact reports.2
    · intro nothing
      rw [(firstReport_eq_none_iff entry swaps).mpr nothing] at reports
      exact reports

/-- A route that lacks one of ten thousand parts of a mint, and then nine of ten. -/
def leakyRoute : List Swap :=
  [⟨5, 9999, ⟨0xA⟩, ⟨0xB⟩⟩, ⟨10000, 10, ⟨0xB⟩, ⟨0xC⟩⟩, ⟨100, 7, ⟨0xC⟩, ⟨0xD⟩⟩]

/-- The first is dust, the second is not. -/
theorem dust_exact_of_leak : DustExact ⟨true⟩ leakyRoute ⟨0xA⟩ :=
  (dust_exact_iff ⟨true⟩ leakyRoute (by decide) (fits_of_total _ (by decide) (by decide))).mpr
    (by decide)

/-- A route whose second swap asks for a quarter of the greatest word, where one unit is
there. -/
def drainedRoute : List Swap :=
  [⟨1, 1, ⟨0xA⟩, ⟨0xB⟩⟩, ⟨4611686018427387904, 1, ⟨0xB⟩, ⟨0xC⟩⟩]

/-- The second swap lacks almost all of its input, and the route is accepted. -/
theorem drained_accepted :
    Fits drainedRoute ∧ short ⟨0xA⟩ (.after ⟨0xA⟩ (drainedRoute.take 1)) drainedRoute[1] ∧
      swap ⟨true⟩ ⟨drainedRoute⟩ = .ok ⟨1, 1, ⟨0xA⟩, ⟨0xC⟩⟩ ∧
      ¬ DustExact ⟨true⟩ drainedRoute ⟨0xA⟩ := by
  have isShort : short ⟨0xA⟩ (.after ⟨0xA⟩ (drainedRoute.take 1)) drainedRoute[1] = true := by
    decide
  have accepted : swap ⟨true⟩ ⟨drainedRoute⟩ = .ok ⟨1, 1, ⟨0xA⟩, ⟨0xC⟩⟩ := by decide
  refine ⟨fits_of_total _ (by decide) (by decide), isShort, accepted, ?_⟩
  intro exactTolerance
  obtain ⟨mint, amount, failed⟩ := exactTolerance.refused_iff.mpr ⟨_, _, [], rfl, isShort⟩
  simp [accepted] at failed

end Graced.SwapGraph
