import Graced.RoutePasses

/-!
# Legs and their links

The two passes over a route give a leg a direction only by linking it: its input is what
the leg before pays out, or its output is what the leg after takes in. A leg stays
without a direction exactly where no known neighbour offers such a link.

On a chain of swaps every leg is linked to the one before, so that one decoded leg is
enough to read all others.
-/

namespace Graced.RouteLinks

open Routes

/-- One of the two directions of a leg with these sides. -/
def Oriented (a b : MintAmount) (swap : Swap) : Prop :=
  swap = ⟨a.amount, b.amount, a.mint, b.mint⟩ ∨ swap = ⟨b.amount, a.amount, b.mint, a.mint⟩

/-- The leg just before is known and pays out this mint. -/
def LinkBefore (final : List LegShape) (index : Nat) (mint : Pubkey) : Prop :=
  ∃ place before, index = place + 1 ∧ final[place]? = some (.known before) ∧
    before.outputMint = mint

/-- The leg just after is known and takes in this mint. -/
def LinkAfter (final : List LegShape) (index : Nat) (mint : Pubkey) : Prop :=
  ∃ after, final[index + 1]? = some (.known after) ∧ after.inputMint = mint

/-- The swap of a leg joins that of a neighbour. -/
def Linked (final : List LegShape) (index : Nat) (swap : Swap) : Prop :=
  LinkBefore final index swap.inputMint ∨ LinkAfter final index swap.outputMint

/-- No known neighbour offers one of these mints. -/
def Unlinkable (final : List LegShape) (index : Nat) (a b : MintAmount) : Prop :=
  ∀ mint, mint = a.mint ∨ mint = b.mint →
    ¬ LinkBefore final index mint ∧ ¬ LinkAfter final index mint

/-- What was found for a route entry: the swap it was decoded as, or its two sides in a
direction that links it. -/
def Resolved (profile : Profile) (order : IterationOrder Pubkey UInt64) (final : List LegShape)
    (index : Nat) : Route → Prop
  | .decoded dex => final[index]? = some (.known dex.swap)
  | .undecoded _ _ transfers => ∃ a b swap,
    candidatesFromTransfers profile order transfers = .ok (.candidates a b) ∧
      final[index]? = some (.known swap) ∧ Oriented a b swap ∧ Linked final index swap

/-- The direction of a route entry was not found: it was not decoded, and no known
neighbour of it offers one of the mints of its two sides. -/
def Unresolved (profile : Profile) (order : IterationOrder Pubkey UInt64)
    (final : List LegShape) (index : Nat) : Route → Prop
  | .decoded _ => False
  | .undecoded _ _ transfers => ∃ a b,
    candidatesFromTransfers profile order transfers = .ok (.candidates a b) ∧
      final[index]? = some (.candidates a b) ∧ Unlinkable final index a b

/-- A leg that was found has a direction. -/
theorem Resolved.known {profile : Profile} {order : IterationOrder Pubkey UInt64}
    {final : List LegShape} {index : Nat} {route : Route}
    (resolved : Resolved profile order final index route) :
    ∃ swap, final[index]? = some (.known swap) := by
  cases route with
  | decoded dex => exact ⟨dex.swap, resolved⟩
  | undecoded program path transfers =>
    obtain ⟨_, _, swap, _, known, _⟩ := resolved
    exact ⟨swap, known⟩

/-- A leg that was not found has none. -/
theorem Unresolved.unknown {profile : Profile} {order : IterationOrder Pubkey UInt64}
    {final : List LegShape} {index : Nat} {route : Route}
    (left : Unresolved profile order final index route) :
    ∃ a b, final[index]? = some (.candidates a b) := by
  cases route with
  | decoded dex => exact left.elim
  | undecoded program path transfers =>
    obtain ⟨a, b, _, unknown, _⟩ := left
    exact ⟨a, b, unknown⟩

/-! ## One leg of a pass -/

/-- A side that is recognised gives the leg one of its two directions, with the shared
mint in the role that was asked for. -/
theorem resolve_some (a b : MintAmount) (held : Pubkey) (asInput : Bool) (swap : Swap)
    (resolved : resolve a b held asInput = some swap) :
    Oriented a b swap ∧ (if asInput then swap.inputMint else swap.outputMint) = held := by
  by_cases first : a.mint = held
  · cases asInput <;> simp [resolve, first] at resolved <;> simp [Oriented, ← resolved, first]
  · by_cases second : b.mint = held
    · cases asInput <;> simp [resolve, first, second] at resolved <;>
        simp [Oriented, ← resolved, second]
    · simp [resolve, first, second] at resolved

/-- A mint that is not recognised is on neither side. -/
theorem resolve_none (a b : MintAmount) (held : Pubkey) (asInput : Bool)
    (unresolved : resolve a b held asInput = none) : held ≠ a.mint ∧ held ≠ b.mint := by
  by_cases first : a.mint = held
  · simp [resolve, first] at unresolved
  · by_cases second : b.mint = held
    · simp [resolve, first, second] at unresolved
    · exact ⟨Ne.symm first, Ne.symm second⟩

/-- A pass either gives a leg without direction one by the mint that it holds, or leaves
it and hands on nothing, because it holds no mint of the leg. -/
theorem orient_candidates (asInput : Bool) (held : Option Pubkey) (a b : MintAmount) :
    (∃ mint swap, held = some mint ∧ (orient asInput held (.candidates a b)).1 = .known swap ∧
      Oriented a b swap ∧ (if asInput then swap.inputMint else swap.outputMint) = mint) ∨
    (orient asInput held (.candidates a b) = (.candidates a b, none) ∧
      held ≠ some a.mint ∧ held ≠ some b.mint) := by
  cases held with
  | none => exact .inr ⟨rfl, by simp, by simp⟩
  | some mint =>
    cases found : resolve a b mint asInput with
    | some swap =>
      obtain ⟨oriented, shared⟩ := resolve_some a b mint asInput swap found
      exact .inl ⟨mint, swap, rfl, by simp [orient, found], oriented, shared⟩
    | none =>
      obtain ⟨notFirst, notSecond⟩ := resolve_none a b mint asInput found
      exact .inr ⟨by simp [orient, found], by simpa using notFirst, by simpa using notSecond⟩

/-! ## Both passes -/

section Passes

variable (shapes : List LegShape)

/-- Both passes leave a known leg alone. -/
theorem passes_known (index : Nat) (swap : Swap) (known : shapes[index]? = some (.known swap)) :
    (passes shapes)[index]? = some (.known swap) := by
  apply passes_of_forward
  rw [forward_getElem?, known]
  simp

/-- Both passes give every other leg a direction that links it, or leave it because no
known neighbour offers a link. -/
theorem passes_candidates (index : Nat) (a b : MintAmount)
    (here : shapes[index]? = some (.candidates a b)) :
    (∃ swap, (passes shapes)[index]? = some (.known swap) ∧ Oriented a b swap ∧
      Linked (passes shapes) index swap) ∨
    ((passes shapes)[index]? = some (.candidates a b) ∧ Unlinkable (passes shapes) index a b) := by
  obtain ⟨bound, _⟩ := List.getElem?_eq_some_iff.mp here
  have held (mint : Pubkey) : heldBefore none shapes index = some mint ↔
      LinkBefore (forward none shapes) index mint :=
    heldBefore_iff shapes index mint (Nat.le_of_lt bound)
  rcases orient_candidates true (heldBefore none shapes index) a b with
    ⟨mint, swap, holds, known, oriented, shared⟩ | ⟨left, notFirst, notSecond⟩
  · -- linked by the forward pass
    obtain ⟨place, before, rfl, atBefore, pays⟩ := (held mint).mp holds
    refine .inl ⟨swap, passes_of_forward shapes _ swap ?_, oriented, .inl ?_⟩
    · rw [forward_getElem?, here, Option.map_some, known]
    · exact ⟨place, before, rfl, passes_of_forward shapes place before atBefore,
        pays.trans shared.symm⟩
  · have atForward : (forward none shapes)[index]? = some (.candidates a b) := by
      rw [forward_getElem?, here, Option.map_some, left]
    have final : (passes shapes)[index]? = some
        (orient false (askedAt (forward none shapes) (index + 1)) (.candidates a b)).1 := by
      rw [passes, backward_getElem?, atForward]
      rfl
    rcases orient_candidates false (askedAt (forward none shapes) (index + 1)) a b with
      ⟨mint, swap, asks, known, oriented, shared⟩ | ⟨leftAgain, notFirstAfter, notSecondAfter⟩
    · -- linked by the backward pass
      refine .inl ⟨swap, by rw [final, known], oriented, .inr ?_⟩
      exact (askedAt_iff shapes index _).mp (asks.trans (congrArg some shared.symm))
    · refine .inr ⟨by rw [final, leftAgain], ?_⟩
      intro mint ofLeg
      constructor
      · rintro ⟨place, before, rfl, atBefore, pays⟩
        -- a leg before an unlinked one is not asked for anything, so it was known before
        have asked : askedAt (forward none shapes) (place + 1) = none := by
          rw [askedAt_eq _ _ _ atForward, leftAgain]
        have earlier : (forward none shapes)[place]? = some (.known before) := by
          rw [passes, backward_getElem?, asked] at atBefore
          cases shown : (forward none shapes)[place]? with
          | none => simp [shown] at atBefore
          | some shape => cases shape <;> simp_all
        have holds := (held mint).mpr ⟨place, before, rfl, earlier, pays⟩
        rcases ofLeg with rfl | rfl
        · exact notFirst holds
        · exact notSecond holds
      · intro after
        have asks := (askedAt_iff shapes index mint).mpr after
        rcases ofLeg with rfl | rfl
        · exact notFirstAfter asks
        · exact notSecondAfter asks

end Passes

/-- The leg that is reported has no direction, and all legs before it have one. -/
theorem knownSwaps_err (final : List LegShape) (reported : Nat)
    (failed : knownSwaps final = .err (.unresolvedLeg reported)) :
    (∃ a b, final[reported]? = some (.candidates a b)) ∧
      ∀ earlier < reported, ∃ swap, final[earlier]? = some (.known swap) := by
  have counted : ∃ index, reported = 0 + index ∧
      (∃ a b, final[index]? = some (.candidates a b)) ∧
      ∀ earlier < index, ∃ swap, final[earlier]? = some (.known swap) := by
    unfold knownSwaps at failed
    -- the places are numbered from an offset that grows along the legs
    generalize 0 = offset at failed ⊢
    induction final generalizing offset with
    | nil => simp [Outcome.collect] at failed
    | cons shape rest inductionHypothesis =>
      rw [List.zipIdx_cons, Outcome.collect, Outcome.bind_err_iff] at failed
      cases shape with
      | candidates a b =>
        obtain rfl : offset = reported := by simpa using failed
        exact ⟨0, rfl, ⟨a, b, rfl⟩, by simp⟩
      | known swap =>
        obtain ⟨_, _, later⟩ := failed.resolve_left (by simp)
        have inRest := ((Outcome.bind_err_iff _ _ _).mp later).resolve_right (by simp)
        obtain ⟨index, place, unknown, before⟩ := inductionHypothesis (offset + 1) inRest
        refine ⟨index + 1, by omega, unknown, ?_⟩
        intro earlier smaller
        cases earlier with
        | zero => exact ⟨swap, rfl⟩
        | succ earlier => exact before earlier (by omega)
  obtain ⟨index, place, first⟩ := counted
  obtain rfl : reported = index := by omega
  exact first

/-! ## Every leg of a route -/

/-- Transfers only ever give two sides. -/
theorem candidatesFromTransfers_shape (profile : Profile) (order : IterationOrder Pubkey UInt64)
    (transfers : List TokenTransfer) (shape : LegShape)
    (shaped : candidatesFromTransfers profile order transfers = .ok shape) :
    ∃ a b, shape = .candidates a b := by
  obtain ⟨sums, _, picked⟩ := (Outcome.bind_ok_iff _ _ _).mp shaped
  match listed : sorted (order.arrange sums.entries) with
  | [] | [_] => simp [listed] at picked
  | (m1, a1) :: (m2, a2) :: _ =>
    rw [listed] at picked
    exact ⟨_, _, (Outcome.ok.inj picked).symm⟩

/-- The shape of each leg is found by itself. -/
theorem shapes_getElem? (profile : Profile) (orders : Nat → IterationOrder Pubkey UInt64)
    (routes : List Route) (found : List LegShape)
    (shaped : shapes profile orders routes = .ok found) :
    found.length = routes.length ∧
      ∀ (index : Nat) (route : Route), routes[index]? = some route →
        ∃ shape, found[index]? = some shape ∧ shapeOf profile (orders index) route = .ok shape := by
  obtain ⟨sameLength, each⟩ := List.forall₂_iff_get.mp (Outcome.collect_forall₂ _ _ _ shaped)
  rw [List.length_zipIdx] at sameLength
  refine ⟨sameLength.symm, ?_⟩
  intro index route here
  obtain ⟨inRoutes, rfl⟩ := List.getElem?_eq_some_iff.mp here
  have inFound : index < found.length := by omega
  refine ⟨found[index], List.getElem?_eq_getElem inFound, ?_⟩
  simpa using each index (by simpa using inRoutes) inFound

/-- The totals of transfers fail only for want of a mint. -/
theorem totals_err (profile : Profile) (sums : AssocMap Pubkey UInt64)
    (transfers : List TokenTransfer) (error : RouteError)
    (failed : totals profile sums transfers = .err error) : error = .unknownMint := by
  induction transfers generalizing sums with
  | nil => simp [totals] at failed
  | cons transfer rest inductionHypothesis =>
    cases named : transfer.mint with
    | none => simpa [totals, named] using failed.symm
    | some mint =>
      simp only [totals, named] at failed
      rcases (Outcome.bind_err_iff _ _ _).mp failed with impossible | ⟨total, _, later⟩
      · exact absurd impossible (add64_ne_err profile _ _ error)
      · exact inductionHypothesis _ later

/-- A build without overflow checks adds up whatever there is. -/
theorem totals_unchecked (profile : Profile) (unchecked : profile.overflowChecks = false)
    (sums : AssocMap Pubkey UInt64) (transfers : List TokenTransfer) :
    totals profile sums transfers ≠ .panic := by
  induction transfers generalizing sums with
  | nil => simp [totals]
  | cons transfer rest inductionHypothesis =>
    rw [totals]
    cases transfer.mint with
    | none => simp
    | some mint => simpa [Profile.add64, unchecked] using inductionHypothesis _

/-- A leg by itself is never reported as unresolved. -/
theorem shapes_ne_unresolved (profile : Profile) (orders : Nat → IterationOrder Pubkey UInt64)
    (routes : List Route) (index : Nat) :
    shapes profile orders routes ≠ .err (.unresolvedLeg index) := by
  intro failed
  obtain ⟨⟨route, place⟩, _, fails⟩ := Outcome.collect_err _ _ _ failed
  cases route with
  | decoded dex => simp [shapeOf] at fails
  | undecoded program path transfers =>
    simp only [shapeOf, candidatesFromTransfers] at fails
    rcases (Outcome.bind_err_iff _ _ _).mp fails with inTotals | ⟨sums, _, picked⟩
    · simpa using totals_err profile _ _ _ inTotals
    · rcases listed : sorted ((orders place).arrange sums.entries) with
        _ | ⟨first, _ | ⟨second, rest⟩⟩
      · simp [listed] at picked
      · simp [listed] at picked
      · simp [listed] at picked

/-- The two passes find every leg, or leave it because neither could link it. -/
theorem passes_resolved (profile : Profile) (orders : Nat → IterationOrder Pubkey UInt64)
    (routes : List Route) (found : List LegShape)
    (shaped : shapes profile orders routes = .ok found) (index : Nat) (route : Route)
    (here : routes[index]? = some route) :
    Resolved profile (orders index) (passes found) index route ∨
      Unresolved profile (orders index) (passes found) index route := by
  obtain ⟨shape, atIndex, shaping⟩ := (shapes_getElem? profile orders routes found shaped).2
    index route here
  cases route with
  | decoded dex =>
    obtain rfl : .known dex.swap = shape := Outcome.ok.inj shaping
    exact .inl (passes_known found index dex.swap atIndex)
  | undecoded program path transfers =>
    obtain ⟨a, b, rfl⟩ :=
      candidatesFromTransfers_shape profile (orders index) transfers shape shaping
    rcases passes_candidates found index a b atIndex with ⟨swap, known, linked⟩ | left
    · exact .inl ⟨a, b, swap, shaping, known, linked⟩
    · exact .inr ⟨a, b, shaping, left⟩

/-- Finding the swaps of a route only orders and links its legs. When it succeeds there is
one swap per route entry, as decoded or with the two sides of the leg in a direction that
links it to a neighbour. When it reports a leg as unresolved, that is the first leg that
neither pass could link. -/
theorem toSwaps_linked (profile : Profile) (orders : Nat → IterationOrder Pubkey UInt64)
    (routes : List Route) :
    (∀ swaps, toSwaps profile orders routes = .ok swaps →
      swaps.length = routes.length ∧
      ∀ (index : Nat) (route : Route), routes[index]? = some route →
        Resolved profile (orders index) (swaps.map .known) index route) ∧
    (∀ unresolved, toSwaps profile orders routes = .err (.unresolvedLeg unresolved) →
      ∃ found, shapes profile orders routes = .ok found ∧
        (∃ route, routes[unresolved]? = some route ∧
          Unresolved profile (orders unresolved) (passes found) unresolved route) ∧
        ∀ index < unresolved, ∃ route, routes[index]? = some route ∧
          Resolved profile (orders index) (passes found) index route) := by
  constructor
  · intro swaps resolved
    obtain ⟨found, shaped, known⟩ := (Outcome.bind_ok_iff _ _ _).mp resolved
    have final : passes found = swaps.map .known := knownSwaps_ok _ swaps known
    have lengths : swaps.length = (passes found).length := by simp [final]
    refine ⟨?_, ?_⟩
    · rw [lengths, passes, backward_length, forward_length]
      exact (shapes_getElem? profile orders routes found shaped).1
    · intro index route here
      rw [← final]
      refine (passes_resolved profile orders routes found shaped index route here).resolve_right ?_
      intro left
      obtain ⟨a, b, unknown⟩ := left.unknown
      simp [final] at unknown
  · intro unresolved failed
    obtain ⟨found, shaped, reported⟩ := ((Outcome.bind_err_iff _ _ _).mp failed).resolve_left
      (shapes_ne_unresolved profile orders routes unresolved)
    obtain ⟨⟨a, b, unknown⟩, before⟩ := knownSwaps_err (passes found) unresolved reported
    have entry (index : Nat) (shape : LegShape) (atIndex : (passes found)[index]? = some shape) :
        ∃ route, routes[index]? = some route := by
      obtain ⟨bound, _⟩ := List.getElem?_eq_some_iff.mp atIndex
      rw [passes, backward_length, forward_length,
        (shapes_getElem? profile orders routes found shaped).1] at bound
      exact ⟨_, List.getElem?_eq_getElem bound⟩
    refine ⟨found, shaped, ?_, ?_⟩
    · obtain ⟨route, here⟩ := entry unresolved _ unknown
      refine ⟨route, here, ?_⟩
      refine (passes_resolved profile orders routes found shaped unresolved route
        here).resolve_left ?_
      intro resolved
      obtain ⟨swap, known⟩ := resolved.known
      simp [unknown] at known
    · intro index earlier
      obtain ⟨swap, known⟩ := before index earlier
      obtain ⟨route, here⟩ := entry index _ known
      refine ⟨route, here, ?_⟩
      refine (passes_resolved profile orders routes found shaped index route here).resolve_right ?_
      intro left
      obtain ⟨a, b, unknown⟩ := left.unknown
      simp [known] at unknown

end Graced.RouteLinks
