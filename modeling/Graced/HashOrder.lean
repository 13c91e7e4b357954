import Graced.PermutedTransfers
import Graced.TopTwo

/-!
# Net swaps and the order in which totals are walked

The totals of a leg come out of a hash map in any order and are sorted by amount alone. If
two totals stand out, every order leads to the same two sides; which of them comes first
makes no difference, since the passes look for a mint on both. If not, the order decides
which sides the leg gets, and nobody notices: the error for transfers without two dominant
mints is raised only if there are fewer than two totals at all.
-/

namespace Graced.HashOrder

open Routes RouteLinks PermutedTransfers TopTwo

/-- Entries are compared by amount. -/
def amountOf (entry : Pubkey × UInt64) : Nat := entry.2.toNat

/-- Two totals are above all others. -/
def Determined (entries : List (Pubkey × UInt64)) : Prop :=
  ∃ first second, StandOut amountOf entries first second

/-- Two sides can be read off a leg: it was decoded, or its transfers have two totals. -/
def Readable (profile : Profile) : Route → Prop
  | .decoded _ => True
  | .undecoded _ _ transfers =>
    ∃ sums, totals profile .empty transfers = .ok sums ∧ 2 ≤ sums.entries.length

/-- A leg was not decoded, and among the totals of its transfers the two largest are not
determined: they tie with others, or there are not two of them. -/
def Undetermined (profile : Profile) : Route → Prop
  | .decoded _ => False
  | .undecoded _ _ transfers =>
    ∃ sums, totals profile .empty transfers = .ok sums ∧ ¬ Determined sums.entries

/-- The swaps of a route and its net swap are the same in all orders of its totals and all orders
of its transfers, and where the first legs can be read and the next one is not determined, both
are an error that says so. -/
structure OrderFree (profile : Profile) (routes : List Route) : Prop where
  sameResult : ∀ orders others : Nat → IterationOrder Pubkey UInt64,
    toSwaps profile orders routes = toSwaps profile others routes ∧
      Routes.swap profile orders routes = Routes.swap profile others routes
  samePermuted : ∀ permuted, List.Forall₂ (Permuted profile) routes permuted →
    ∀ orders others : Nat → IterationOrder Pubkey UInt64,
      toSwaps profile orders routes = toSwaps profile others permuted ∧
        Routes.swap profile orders routes = Routes.swap profile others permuted
  ambiguous : ∀ before leg after, routes = before ++ leg :: after →
    (∀ earlier ∈ before, Readable profile earlier) → Undetermined profile leg →
      ∀ orders, toSwaps profile orders routes = .err .ambiguousTransfers ∧
        Routes.swap profile orders routes = .err .ambiguousTransfers

/-- Every leg that is read before the first that cannot be read is determined. -/
def Untied (profile : Profile) (routes : List Route) : Prop :=
  ∀ before leg after, routes = before ++ leg :: after →
    (∀ earlier ∈ before, Readable profile earlier) → Readable profile leg →
      ¬ Undetermined profile leg

/-- The first leg that cannot be read has fewer than two totals. -/
def LacksTotals (profile : Profile) (routes : List Route) : Prop :=
  ∃ before leg after, routes = before ++ leg :: after ∧
    (∀ earlier ∈ before, Readable profile earlier) ∧ Undetermined profile leg ∧
      ¬ Readable profile leg

/-- Two shapes with the same sides. Sides of different mints may have changed places. -/
inductive SameSides : LegShape → LegShape → Prop where
  | same (shape : LegShape) : SameSides shape shape
  | crossed (a b : MintAmount) : a.mint ≠ b.mint →
      SameSides (.candidates a b) (.candidates b a)

/-! ## One leg -/

section Leg

variable (profile : Profile) (order : IterationOrder Pubkey UInt64)

/-- Sorting and arranging keep the entries. -/
theorem sorted_perm (entries : List (Pubkey × UInt64)) :
    (sorted (order.arrange entries)).Perm entries :=
  (List.perm_insertionSort _ _).trans (order.complete _)

theorem sorted_falling (entries : List (Pubkey × UInt64)) : Falling amountOf (sorted entries) := by
  have trans : IsTrans (Pubkey × UInt64) (fun first second => second.2 ≤ first.2) :=
    ⟨fun _ _ _ above below => UInt64.le_trans below above⟩
  have total : Std.Total (fun first second : Pubkey × UInt64 => second.2 ≤ first.2) :=
    ⟨fun _ _ => UInt64.le_total _ _⟩
  exact (List.pairwise_insertionSort _ entries).imp UInt64.le_iff_toNat_le.mp

/-- The candidates are the first two of the sorted entries, if there are two. -/
theorem candidates_of_totals (transfers : List TokenTransfer) (sums : AssocMap Pubkey UInt64)
    (added : totals profile .empty transfers = .ok sums) :
    (sums.entries.length < 2 ∧
      candidatesFromTransfers profile order transfers = .err .ambiguousTransfers) ∨
    ∃ first second rest, sorted (order.arrange sums.entries) = first :: second :: rest ∧
      2 ≤ sums.entries.length ∧ candidatesFromTransfers profile order transfers =
        .ok (.candidates ⟨first.1, first.2⟩ ⟨second.1, second.2⟩) := by
  have length := (sorted_perm order sums.entries).length_eq
  simp only [candidatesFromTransfers, added, Outcome.ok_bind]
  generalize sorted (order.arrange sums.entries) = listed at length ⊢
  rcases listed with _ | ⟨first, _ | ⟨second, rest⟩⟩
  · exact .inl ⟨by simp [← length], rfl⟩
  · exact .inl ⟨by simp [← length], rfl⟩
  · exact .inr ⟨first, second, rest, rfl, by simp [← length], rfl⟩

/-- A leg has a shape exactly if it can be read. -/
theorem shapeOf_ok_iff (route : Route) :
    (∃ shape, shapeOf profile order route = .ok shape) ↔ Readable profile route := by
  cases route with
  | decoded dex => exact iff_of_true ⟨_, rfl⟩ trivial
  | undecoded program path transfers =>
    simp only [shapeOf, Readable]
    constructor
    · rintro ⟨shape, shaped⟩
      obtain ⟨sums, added, _⟩ := (Outcome.bind_ok_iff _ _ _).mp shaped
      rcases candidates_of_totals profile order transfers sums added with
        ⟨_, failed⟩ | ⟨_, _, _, _, two, _⟩
      · simp [failed] at shaped
      · exact ⟨sums, added, two⟩
    · rintro ⟨sums, added, two⟩
      rcases candidates_of_totals profile order transfers sums added with
        ⟨few, _⟩ | ⟨_, _, _, _, _, shaped⟩
      · omega
      · exact ⟨_, shaped⟩

/-- Fewer than two totals do not determine two. -/
theorem not_determined (entries : List (Pubkey × UInt64)) (few : entries.length < 2) :
    ¬ Determined entries := by
  rintro ⟨first, second, others, arranged, _⟩
  have length := arranged.length_eq
  simp only [List.length_cons] at length
  omega

/-- The error for missing dominant mints is raised exactly for fewer than two totals. -/
theorem shapeOf_ambiguous_iff (route : Route) :
    shapeOf profile order route = .err .ambiguousTransfers ↔
      Undetermined profile route ∧ ¬ Readable profile route := by
  cases route with
  | decoded dex => simp [shapeOf, Undetermined]
  | undecoded program path transfers =>
    simp only [shapeOf, Undetermined, Readable]
    constructor
    · intro failed
      rcases (Outcome.bind_err_iff _ _ _).mp failed with inTotals | ⟨sums, added, _⟩
      · cases totals_err profile _ _ _ inTotals
      · rcases candidates_of_totals profile order transfers sums added with
          ⟨few, _⟩ | ⟨_, _, _, _, _, shaped⟩
        · refine ⟨⟨sums, added, not_determined _ few⟩, ?_⟩
          rintro ⟨others, addedAgain, two⟩
          obtain rfl := Outcome.ok.inj (added.symm.trans addedAgain)
          omega
        · simp [shaped] at failed
    · rintro ⟨⟨sums, added, _⟩, unreadable⟩
      rcases candidates_of_totals profile order transfers sums added with
        ⟨_, failed⟩ | ⟨_, _, _, _, two, _⟩
      · exact failed
      · exact absurd ⟨sums, added, two⟩ unreadable

end Leg

/-- A leg that cannot be read fails in the same way in all orders. -/
theorem shapeOf_unreadable (profile : Profile) (order other : IterationOrder Pubkey UInt64)
    (route : Route) (unreadable : ¬ Readable profile route) :
    shapeOf profile order route = shapeOf profile other route := by
  cases route with
  | decoded dex => rfl
  | undecoded program path transfers =>
    simp only [shapeOf]
    cases added : totals profile .empty transfers with
    | err error => simp [candidatesFromTransfers, added]
    | panic => simp [candidatesFromTransfers, added]
    | ok sums =>
      have ambiguous (order : IterationOrder Pubkey UInt64) :
          candidatesFromTransfers profile order transfers = .err .ambiguousTransfers := by
        rcases candidates_of_totals profile order transfers sums added with
          ⟨_, failed⟩ | ⟨_, _, _, _, two, _⟩
        · exact failed
        · exact absurd ⟨sums, added, two⟩ unreadable
      rw [ambiguous, ambiguous]

/-- A leg that is read and determined has the same sides in all orders. -/
theorem shapeOf_determined (profile : Profile) (order other : IterationOrder Pubkey UInt64)
    (route : Route) (readable : Readable profile route)
    (determined : ¬ Undetermined profile route) :
    ∃ shape otherShape, shapeOf profile order route = .ok shape ∧
      shapeOf profile other route = .ok otherShape ∧ SameSides shape otherShape := by
  cases route with
  | decoded dex => exact ⟨_, _, rfl, rfl, .same _⟩
  | undecoded program path transfers =>
    obtain ⟨sums, added, two⟩ := readable
    have standOut : Determined sums.entries :=
      by_contra fun tied => determined ⟨sums, added, tied⟩
    obtain ⟨first, second, standOut⟩ := standOut
    have mints : first.1 ≠ second.1 := by
      obtain ⟨others, arranged, _⟩ := standOut
      have keys := (arranged.map Prod.fst).nodup_iff.mp sums.distinct
      simp only [List.map_cons, List.nodup_cons, List.mem_cons, not_or] at keys
      exact keys.1.1
    have starts (order : IterationOrder Pubkey UInt64) :
        shapeOf profile order (.undecoded program path transfers) =
            .ok (.candidates ⟨first.1, first.2⟩ ⟨second.1, second.2⟩) ∨
          shapeOf profile order (.undecoded program path transfers) =
            .ok (.candidates ⟨second.1, second.2⟩ ⟨first.1, first.2⟩) := by
      rcases candidates_of_totals profile order transfers sums added with
        ⟨few, _⟩ | ⟨one, next, rest, listed, _, shaped⟩
      · omega
      · obtain ⟨_, same | same⟩ := (standOut.perm (sorted_perm order sums.entries)).start
          (sorted_falling _)
        · rw [listed, List.cons.injEq, List.cons.injEq] at same
          obtain ⟨rfl, rfl, _⟩ := same
          exact .inl shaped
        · rw [listed, List.cons.injEq, List.cons.injEq] at same
          obtain ⟨rfl, rfl, _⟩ := same
          exact .inr shaped
    rcases starts order with here | here
    · rcases starts other with there | there
      · exact ⟨_, _, here, there, .same _⟩
      · exact ⟨_, _, here, there, .crossed _ _ mints⟩
    · rcases starts other with there | there
      · exact ⟨_, _, here, there, .crossed _ _ mints.symm⟩
      · exact ⟨_, _, here, there, .same _⟩

/-! ## The passes -/

/-- Sides of different mints are recognised in either place. -/
theorem resolve_crossed (a b : MintAmount) (held : Pubkey) (asInput : Bool)
    (mints : a.mint ≠ b.mint) : resolve b a held asInput = resolve a b held asInput := by
  by_cases first : a.mint = held
  · have other : b.mint ≠ held := fun same => mints (first.trans same.symm)
    simp [resolve, first, other]
  · by_cases second : b.mint = held
    · simp [resolve, first, second]
    · simp [resolve, first, second]

/-- One leg of a pass hands on the same mint and leaves the same sides. -/
theorem orient_sameSides (asInput : Bool) (held : Option Pubkey) (shape other : LegShape)
    (same : SameSides shape other) :
    SameSides (orient asInput held shape).1 (orient asInput held other).1 ∧
      (orient asInput held shape).2 = (orient asInput held other).2 := by
  cases same with
  | same => exact ⟨.same _, rfl⟩
  | crossed a b mints =>
    have resolved : (held.bind fun mint => resolve b a mint asInput) =
        held.bind fun mint => resolve a b mint asInput := by
      simp only [resolve_crossed a b _ asInput mints]
    simp only [orient, resolved]
    cases held.bind fun mint => resolve a b mint asInput with
    | none => exact ⟨.crossed a b mints, rfl⟩
    | some swap => exact ⟨.same _, rfl⟩

section Passes

variable {shapes others : List LegShape} (same : List.Forall₂ SameSides shapes others)
include same

theorem forward_sameSides (held : Option Pubkey) :
    List.Forall₂ SameSides (forward held shapes) (forward held others) := by
  induction same generalizing held with
  | nil => exact .nil
  | cons sameHead _ inductionHypothesis =>
    obtain ⟨sides, handed⟩ := orient_sameSides true held _ _ sameHead
    simp only [forward]
    rw [← handed]
    exact .cons sides (inductionHypothesis _)

theorem backward_sameSides :
    List.Forall₂ SameSides (backward shapes).1 (backward others).1 ∧
      (backward shapes).2 = (backward others).2 := by
  induction same with
  | nil => exact ⟨.nil, rfl⟩
  | cons sameHead _ inductionHypothesis =>
    obtain ⟨rest, held⟩ := inductionHypothesis
    obtain ⟨sides, handed⟩ := orient_sameSides false (backward _).2 _ _ sameHead
    simp only [backward]
    rw [← held]
    exact ⟨.cons sides rest, handed⟩

/-- The same swaps are known, or the same leg has no direction. -/
theorem knownSwaps_sameSides : knownSwaps shapes = knownSwaps others := by
  unfold knownSwaps
  generalize 0 = offset
  induction same generalizing offset with
  | nil => rfl
  | cons sameHead _ inductionHypothesis =>
    simp only [List.zipIdx_cons, Outcome.collect, inductionHypothesis]
    cases sameHead <;> rfl

end Passes

/-! ## Whole routes -/

/-- Two ways of shaping the legs of a route come to the same. -/
inductive SameShapes : Outcome RouteError (List LegShape) → Outcome RouteError (List LegShape) →
    Prop where
  | shaped (shapes others : List LegShape) : List.Forall₂ SameSides shapes others →
      SameShapes (.ok shapes) (.ok others)
  | failed (outcome : Outcome RouteError (List LegShape)) : SameShapes outcome outcome

/-- One more leg with the same sides makes no difference. -/
theorem SameShapes.cons {shape other : LegShape} (sides : SameSides shape other)
    {here there : Outcome RouteError (List LegShape)} (later : SameShapes here there) :
    SameShapes
      (do
        let value ← (.ok shape : Outcome RouteError LegShape)
        let values ← here
        pure (value :: values))
      (do
        let value ← (.ok other : Outcome RouteError LegShape)
        let values ← there
        pure (value :: values)) := by
  cases later with
  | shaped shapes others same => exact .shaped _ _ (.cons sides same)
  | failed =>
    cases here with
    | ok shapes => exact .shaped _ _ (.cons sides (List.forall₂_same.mpr fun _ _ => .same _))
    | err error => exact .failed _
    | panic => exact .failed _

/-- In a route without ties, all orders shape the legs in the same way, up to the first that
cannot be read. -/
theorem shapes_same (profile : Profile) (orders others : Nat → IterationOrder Pubkey UInt64)
    (routes : List Route) (untied : Untied profile routes) :
    SameShapes (shapes profile orders routes) (shapes profile others routes) := by
  unfold shapes
  generalize 0 = offset
  induction routes generalizing offset with
  | nil => exact .failed _
  | cons route rest inductionHypothesis =>
    simp only [List.zipIdx_cons, Outcome.collect]
    by_cases readable : Readable profile route
    · have determined := untied [] route rest rfl (by simp) readable
      obtain ⟨shape, other, here, there, sides⟩ :=
        shapeOf_determined profile (orders offset) (others offset) route readable determined
      have untiedRest : Untied profile rest := by
        intro before leg after split readableBefore
        refine untied (route :: before) leg after (by rw [split, List.cons_append]) ?_
        exact List.forall_mem_cons.mpr ⟨readable, readableBefore⟩
      rw [here, there]
      exact (inductionHypothesis untiedRest (offset + 1)).cons sides
    · have alike := shapeOf_unreadable profile (orders offset) (others offset) route readable
      cases failed : shapeOf profile (orders offset) route with
      | ok shape =>
        exact absurd ((shapeOf_ok_iff profile (orders offset) route).mp ⟨shape, failed⟩) readable
      | err error =>
        rw [← alike, failed]
        exact .failed _
      | panic =>
        rw [← alike, failed]
        exact .failed _

/-- The legs have directions alike, or fail alike. -/
theorem toSwaps_untied (profile : Profile) (orders others : Nat → IterationOrder Pubkey UInt64)
    (routes : List Route) (untied : Untied profile routes) :
    toSwaps profile orders routes = toSwaps profile others routes := by
  rw [toSwaps, toSwaps]
  have shaped := shapes_same profile orders others routes untied
  revert shaped
  generalize shapes profile orders routes = here
  generalize shapes profile others routes = there
  rintro (⟨found, foundAlso, same⟩ | outcome)
  · have final := (backward_sameSides (forward_sameSides same none)).1
    exact knownSwaps_sameSides final
  · rfl

/-- The error for missing dominant mints comes up exactly if the first leg that cannot be read
has fewer than two totals. -/
theorem shapes_ambiguous_iff (profile : Profile) (orders : Nat → IterationOrder Pubkey UInt64)
    (routes : List Route) :
    shapes profile orders routes = .err .ambiguousTransfers ↔ LacksTotals profile routes := by
  rw [shapes, Outcome.collect_err_iff]
  constructor
  · rintro ⟨before, ⟨leg, index⟩, after, split, fine, failed⟩
    have routesSplit : routes = before.map Prod.fst ++ leg :: after.map Prod.fst := by
      simpa using congrArg (List.map Prod.fst) split
    obtain ⟨undetermined, unreadable⟩ := (shapeOf_ambiguous_iff profile _ leg).mp failed
    refine ⟨_, leg, _, routesSplit, ?_, undetermined, unreadable⟩
    intro earlier member
    obtain ⟨⟨route, place⟩, listed, rfl⟩ := List.mem_map.mp member
    exact (shapeOf_ok_iff profile (orders place) route).mp (fine _ listed)
  · rintro ⟨before, leg, after, rfl, readable, undetermined, unreadable⟩
    refine ⟨before.zipIdx, (leg, before.length), after.zipIdx (before.length + 1), ?_, ?_,
      (shapeOf_ambiguous_iff profile _ leg).mpr ⟨undetermined, unreadable⟩⟩
    · simp [List.zipIdx_append, List.zipIdx_cons]
    · rintro ⟨route, place⟩ listed
      exact (shapeOf_ok_iff profile (orders place) route).mpr
        (readable route (List.fst_mem_of_mem_zipIdx listed))

/-- A missing direction is another error. -/
theorem toSwaps_ambiguous_iff (profile : Profile) (orders : Nat → IterationOrder Pubkey UInt64)
    (routes : List Route) :
    toSwaps profile orders routes = .err .ambiguousTransfers ↔ LacksTotals profile routes := by
  rw [toSwaps, Outcome.bind_err_iff, shapes_ambiguous_iff]
  refine ⟨fun failed => failed.resolve_right ?_, .inl⟩
  rintro ⟨found, _, failed⟩
  obtain ⟨⟨shape, index⟩, _, atLeg⟩ := Outcome.collect_err _ _ _ failed
  cases shape <;> simp at atLeg

/-- The net swap goes by the swaps of the legs. -/
theorem swap_of_toSwaps (profile : Profile) (orders others : Nat → IterationOrder Pubkey UInt64)
    (routes : List Route) (same : toSwaps profile orders routes = toSwaps profile others routes) :
    Routes.swap profile orders routes = Routes.swap profile others routes := by
  rw [Routes.swap, Routes.swap, swaps, swaps, same]

/-- Where the first leg that cannot be read has fewer than two totals, this is the error of the
whole route. -/
theorem lacking_fails (profile : Profile) (orders : Nat → IterationOrder Pubkey UInt64)
    (routes : List Route) (lacking : LacksTotals profile routes) :
    toSwaps profile orders routes = .err .ambiguousTransfers ∧
      Routes.swap profile orders routes = .err .ambiguousTransfers := by
  have failed := (toSwaps_ambiguous_iff profile orders routes).mpr lacking
  obtain ⟨before, leg, after, rfl, _, undetermined, _⟩ := lacking
  have undecoded : leg.isDecoded = false := by
    cases leg with
    | decoded dex => exact undetermined.elim
    | undecoded program path transfers => rfl
  refine ⟨failed, ?_⟩
  rw [Routes.swap, swaps, if_pos (by simp [undecoded]), failed]
  rfl

/-! ## All orders -/

/-- What does not depend on the order of the totals does not depend on that of the transfers. -/
theorem permuted_free (profile : Profile) (routes : List Route)
    (free : ∀ orders others : Nat → IterationOrder Pubkey UInt64,
      toSwaps profile orders routes = toSwaps profile others routes ∧
        Routes.swap profile orders routes = Routes.swap profile others routes)
    (permuted : List Route) (legs : List.Forall₂ (Permuted profile) routes permuted)
    (orders others : Nat → IterationOrder Pubkey UInt64) :
    toSwaps profile orders routes = toSwaps profile others permuted ∧
      Routes.swap profile orders routes = Routes.swap profile others permuted := by
  obtain ⟨arranged, swaps, net⟩ := results_permuted routes permuted legs others
  rw [swaps, net]
  exact free orders arranged

/-- The swaps and the net swap of a route do not depend on the order of its totals, nor on that
of the transfers of its legs, and are an error where the totals do not determine two sides, if
and only if all legs that are read before the first that cannot be are determined, or that one
has fewer than two totals. -/
theorem order_free_iff (profile : Profile) (routes : List Route) :
    OrderFree profile routes ↔ Untied profile routes ∨ LacksTotals profile routes := by
  constructor
  · intro free
    by_contra neither
    rw [not_or] at neither
    obtain ⟨tied, notLacking⟩ := neither
    refine tied fun before leg after split readable _ undetermined => notLacking ?_
    exact (toSwaps_ambiguous_iff profile (fun _ => default) routes).mp
      (free.ambiguous before leg after split readable undetermined _).1
  · rintro (untied | lacking)
    · have same (orders others : Nat → IterationOrder Pubkey UInt64) :
          toSwaps profile orders routes = toSwaps profile others routes ∧
            Routes.swap profile orders routes = Routes.swap profile others routes := by
        have resolved := toSwaps_untied profile orders others routes untied
        exact ⟨resolved, swap_of_toSwaps profile orders others routes resolved⟩
      refine ⟨same, permuted_free profile routes same, ?_⟩
      intro before leg after split readable undetermined orders
      have unreadable : ¬ Readable profile leg := fun readableLeg =>
        untied before leg after split readable readableLeg undetermined
      exact lacking_fails profile orders routes
        ⟨before, leg, after, split, readable, undetermined, unreadable⟩
    · have fails (orders : Nat → IterationOrder Pubkey UInt64) :=
        lacking_fails profile orders routes lacking
      have same (orders others : Nat → IterationOrder Pubkey UInt64) :
          toSwaps profile orders routes = toSwaps profile others routes ∧
            Routes.swap profile orders routes = Routes.swap profile others routes := by
        rw [(fails orders).1, (fails others).1, (fails orders).2, (fails others).2]
        exact ⟨rfl, rfl⟩
      exact ⟨same, permuted_free profile routes same, fun _ _ _ _ _ _ orders => fails orders⟩

/-! ## Ties -/

/-- A leg in which two mints tie for the second largest total. -/
def tiedRoutes : List Route := [
  .decoded ⟨⟨0x1⟩, ⟨0x2⟩, .orca, ⟨100, 200, ⟨0xA⟩, ⟨0xB⟩⟩⟩,
  .undecoded (.unknown ⟨0x5⟩) [1, 2] [
    ⟨⟨0x6⟩, some ⟨0xB⟩, ⟨0x7⟩, ⟨0x8⟩, 200, false⟩, ⟨⟨0x7⟩, some ⟨0xC⟩, ⟨0x6⟩, ⟨0x8⟩, 50, false⟩,
    ⟨⟨0x7⟩, some ⟨0xD⟩, ⟨0x6⟩, ⟨0x8⟩, 50, false⟩]]

/-- The map is walked from its end. -/
def reversedOrder : IterationOrder Pubkey UInt64 := ⟨List.reverse, List.reverse_perm⟩

/-- One order of the totals gives a route into one mint, another a route into another. -/
theorem tied_totals_picked :
    Routes.swap ⟨true⟩ (fun _ => default) tiedRoutes = .ok ⟨100, 50, ⟨0xA⟩, ⟨0xC⟩⟩ ∧
      Routes.swap ⟨true⟩ (fun _ => reversedOrder) tiedRoutes = .ok ⟨100, 50, ⟨0xA⟩, ⟨0xD⟩⟩ ∧
      ¬ OrderFree ⟨true⟩ tiedRoutes := by
  have forth : Routes.swap ⟨true⟩ (fun _ => default) tiedRoutes =
      .ok ⟨100, 50, ⟨0xA⟩, ⟨0xC⟩⟩ := by decide
  have back : Routes.swap ⟨true⟩ (fun _ => reversedOrder) tiedRoutes =
      .ok ⟨100, 50, ⟨0xA⟩, ⟨0xD⟩⟩ := by decide
  refine ⟨forth, back, fun free => ?_⟩
  have same := (free.sameResult (fun _ => default) (fun _ => reversedOrder)).2
  rw [forth, back] at same
  exact absurd same (by decide)

end Graced.HashOrder
