import Graced.LegSides
import Graced.RoutePasses

/-!
# Legs read against their direction

A leg whose instruction was not decoded shows the amounts of its two sides and not
which of them went in. Two passes over the route give it a direction: its input side is
the one the leg before paid out, or its output side the one the leg after takes in. On
a chain of swaps both rules are right. Where a route splits one pair of mints over
parallel legs, the leg before pays out the mint that this leg pays out as well, and the
rule reads the leg backwards without noticing.

Below, the readings are traced along the executed swaps, leg by leg, and the route is netted
as it was executed exactly if the legs as they are read net the same, or to an error. No leg
is read backwards exactly if no undecoded leg next to a leg whose direction follows from
decoded ones shares the wrong side with it.
-/

namespace Graced

namespace RouteResolution

/-! ## Directions that follow from decoded legs -/

/-- The leg at this place was decoded. -/
def IsDecoded (routes : List Route) (index : Nat) : Prop :=
  ∃ dex, routes[index]? = some (.decoded dex)

/-- The direction of this leg follows from a decoded leg at or before it, along legs
that each take in what the one before paid out. -/
inductive Fed (legs : List Swap) (routes : List Route) : Nat → Prop where
  | decoded (index : Nat) : IsDecoded routes index → Fed legs routes index
  | passedOn (index : Nat) (before leg : Swap) :
      Fed legs routes index → legs[index]? = some before → legs[index + 1]? = some leg →
      before.outputMint = leg.inputMint → Fed legs routes (index + 1)

/-- The direction of this leg follows from a decoded leg at or after it, along legs
that each pay out what the one after takes in. -/
inductive Drawn (legs : List Swap) (routes : List Route) : Nat → Prop where
  | decoded (index : Nat) : IsDecoded routes index → Drawn legs routes index
  | takenUp (index : Nat) (leg after : Swap) :
      Drawn legs routes (index + 1) → legs[index]? = some leg →
      legs[index + 1]? = some after → leg.outputMint = after.inputMint →
      Drawn legs routes index

/-- No undecoded leg invites a wrong reading: none pays out the mint that a fed leg just
before it pays out, and none that is not fed itself takes in the mint that a drawn leg
just after it takes in. -/
structure NoMisreading (legs : List Swap) (routes : List Route) : Prop where
  forward : ∀ index before leg, Fed legs routes index → legs[index]? = some before →
    legs[index + 1]? = some leg → ¬ IsDecoded routes (index + 1) →
    before.outputMint ≠ leg.outputMint
  backward : ∀ index leg after, Drawn legs routes (index + 1) → legs[index]? = some leg →
    legs[index + 1]? = some after → ¬ Fed legs routes index →
    leg.inputMint ≠ after.inputMint

/-! ## Directions in which legs are read -/

/-- One of the two directions of a leg. -/
def EitherWay (leg read : Swap) : Prop := read = leg ∨ read = leg.reversed

/-- The forward pass reads the leg at this place as this swap: it was decoded, or it is read
so that it takes in what the leg before is read to pay out. -/
inductive ReadForward (legs : List Swap) (routes : List Route) : Nat → Swap → Prop where
  | decoded (index : Nat) (leg : Swap) :
      IsDecoded routes index → legs[index]? = some leg → ReadForward legs routes index leg
  | takesIn (index : Nat) (before leg read : Swap) :
      ReadForward legs routes index before → legs[index + 1]? = some leg →
      ¬ IsDecoded routes (index + 1) → EitherWay leg read →
      before.outputMint = read.inputMint → ReadForward legs routes (index + 1) read

/-- The leg at this place is read as this swap: by the forward pass, or else so that it pays
out what the leg after is read to take in. -/
inductive ReadAs (legs : List Swap) (routes : List Route) : Nat → Swap → Prop where
  | forward (index : Nat) (read : Swap) :
      ReadForward legs routes index read → ReadAs legs routes index read
  | paysOut (index : Nat) (leg read after : Swap) :
      ReadAs legs routes (index + 1) after → legs[index]? = some leg →
      (∀ other, ¬ ReadForward legs routes index other) → EitherWay leg read →
      read.outputMint = after.inputMint → ReadAs legs routes index read

/-- These are the legs as they are read, every one of them. -/
def AsRead (legs : List Swap) (routes : List Route) (readings : List Swap) : Prop :=
  readings.length = legs.length ∧
    ∀ (index : Nat) (read : Swap), readings[index]? = some read → ReadAs legs routes index read

/-- These swaps net to an error or to this swap. -/
def NetsTo (profile : Profile) (net : Swap) (swaps : List Swap) : Prop :=
  (∃ error, SwapGraph.swap profile ⟨swaps⟩ = .err error) ∨
    SwapGraph.swap profile ⟨swaps⟩ = .ok net

section Readings

variable {legs : List Swap} {routes : List Route}

/-- A leg that is read is one of the route, in one of its directions. -/
theorem ReadForward.leg {index : Nat} {read : Swap} (forward : ReadForward legs routes index read) :
    ∃ leg, legs[index]? = some leg ∧ EitherWay leg read := by
  cases forward with
  | decoded _ _ _ here => exact ⟨read, here, .inl rfl⟩
  | takesIn _ _ leg _ _ here _ either _ => exact ⟨leg, here, either⟩

/-- A fed leg is read as it was executed. -/
theorem fed_read (index : Nat) (fed : Fed legs routes index) (leg : Swap)
    (here : legs[index]? = some leg) : ReadForward legs routes index leg := by
  induction fed generalizing leg with
  | decoded index decoded => exact .decoded index leg decoded here
  | passedOn index before next _ atBefore atNext joined inductionHypothesis =>
    obtain rfl : next = leg := Option.some.inj (atNext.symm.trans here)
    by_cases decoded : IsDecoded routes (index + 1)
    · exact .decoded (index + 1) next decoded here
    · exact .takesIn index before next next (inductionHypothesis before atBefore) here decoded
        (.inl rfl) joined

/-- A drawn leg is read as it was executed, if every leg that the forward pass reads is. -/
theorem drawn_read (executed : ∀ index read, ReadForward legs routes index read →
    legs[index]? = some read) (index : Nat) (drawn : Drawn legs routes index) (leg : Swap)
    (here : legs[index]? = some leg) : ReadAs legs routes index leg := by
  induction drawn generalizing leg with
  | decoded index decoded => exact .forward index leg (.decoded index leg decoded here)
  | takenUp index paying after _ atPaying atAfter joined inductionHypothesis =>
    obtain rfl : paying = leg := Option.some.inj (atPaying.symm.trans here)
    by_cases unread : ∀ other, ¬ ReadForward legs routes index other
    · exact .paysOut index paying paying after (inductionHypothesis after atAfter) here unread
        (.inl rfl) joined
    · obtain ⟨other, forward⟩ := not_forall_not.mp unread
      obtain rfl := Option.some.inj (here.symm.trans (executed index other forward))
      exact .forward index paying forward

/-- Where no leg invites a wrong reading, the forward pass reads exactly the fed legs, as they
were executed. -/
theorem readForward_executed (sound : NoMisreading legs routes) (index : Nat) (read : Swap)
    (forward : ReadForward legs routes index read) :
    legs[index]? = some read ∧ Fed legs routes index := by
  induction forward with
  | decoded index leg decoded here => exact ⟨here, .decoded index decoded⟩
  | takesIn index before leg read _ here undecoded either joined inductionHypothesis =>
    obtain ⟨atBefore, fed⟩ := inductionHypothesis
    rcases either with rfl | rfl
    · exact ⟨here, .passedOn index before read fed atBefore here joined⟩
    · exact absurd joined (sound.forward index before leg fed atBefore here undecoded)

/-- Then every leg that is read is fed or drawn, and read as it was executed. -/
theorem readAs_executed (sound : NoMisreading legs routes) (index : Nat) (read : Swap)
    (reading : ReadAs legs routes index read) :
    legs[index]? = some read ∧ (Fed legs routes index ∨ Drawn legs routes index) := by
  induction reading with
  | forward index read forward =>
    obtain ⟨here, fed⟩ := readForward_executed sound index read forward
    exact ⟨here, .inl fed⟩
  | paysOut index leg read after _ here unread either joined inductionHypothesis =>
    obtain ⟨atAfter, reached⟩ := inductionHypothesis
    have unfed : ¬ Fed legs routes index := fun fed => unread leg (fed_read index fed leg here)
    -- what feeds the leg after cannot come through this one
    have drawn : Drawn legs routes (index + 1) := by
      rcases reached with (⟨_, decoded⟩ | ⟨_, _, _, fed⟩) | drawn
      · exact .decoded (index + 1) decoded
      · exact absurd fed unfed
      · exact drawn
    rcases either with rfl | rfl
    · exact ⟨here, .inr (.takenUp index read after drawn here atAfter joined)⟩
    · exact absurd joined (sound.backward index leg after drawn here atAfter unfed)

/-- No leg is read backwards exactly if none invites it. -/
theorem noMisreading_iff (distinct : ∀ leg ∈ legs, leg.inputMint ≠ leg.outputMint) :
    NoMisreading legs routes ↔
      ∀ index read, ReadAs legs routes index read → legs[index]? = some read := by
  have reversed_ne (index : Nat) (leg : Swap) (here : legs[index]? = some leg) :
      legs[index]? ≠ some leg.reversed := by
    rw [here]
    intro same
    exact distinct leg (List.mem_of_getElem? here)
      (congrArg Swap.inputMint (Option.some.inj same))
  constructor
  · exact fun sound index read reading => (readAs_executed sound index read reading).1
  · intro executed
    have executedForward (index : Nat) (read : Swap)
        (forward : ReadForward legs routes index read) : legs[index]? = some read :=
      executed index read (.forward index read forward)
    have readFed (index : Nat) (read : Swap) (forward : ReadForward legs routes index read) :
        Fed legs routes index := by
      induction forward with
      | decoded index _ decoded _ => exact .decoded index decoded
      | takesIn index before leg read forward here undecoded either joined inductionHypothesis =>
        exact .passedOn index before read inductionHypothesis (executedForward index before forward)
          (executedForward _ read (.takesIn index before leg read forward here undecoded either
            joined)) joined
    constructor
    · intro index before leg fed atBefore here undecoded shared
      exact reversed_ne (index + 1) leg here (executedForward _ _
        (.takesIn index before leg leg.reversed (fed_read index fed before atBefore) here undecoded
          (.inr rfl) shared))
    · intro index leg after drawn here atAfter unfed shared
      exact reversed_ne index leg here (executed _ _
        (.paysOut index leg leg.reversed after
          (drawn_read executedForward (index + 1) drawn after atAfter) here
          (fun other forward => unfed (readFed index other forward)) (.inr rfl) shared))

end Readings

end RouteResolution

namespace Routes

/-! ## One leg of a pass -/

/-- The two sides of a leg, in either order. -/
def Sides (leg : Swap) (shape : LegShape) : Prop :=
  shape = .candidates leg.inputSide leg.outputSide ∨
    shape = .candidates leg.outputSide leg.inputSide

section Orientation

variable (leg : Swap) (shape : LegShape) (sides : Sides leg shape)
include sides

/-- A leg that is given no direction keeps its shape. -/
theorem orient_unread (asInput : Bool) (held : Option Pubkey)
    (unread : ∀ read, (orient asInput held shape).1 ≠ .known read) :
    (orient asInput held shape).1 = shape := by
  rcases sides with rfl | rfl
  all_goals
    simp only [orient] at unread ⊢
    split at unread
    · exact absurd rfl (unread _)
    · rfl

/-- A mint that is on neither side, or none at all, gives the leg no direction. -/
theorem orient_foreign (asInput : Bool) (held : Option Pubkey)
    (notInput : held ≠ some leg.inputMint) (notOutput : held ≠ some leg.outputMint) :
    orient asInput held shape = (shape, none) := by
  cases held with
  | none => rcases sides with rfl | rfl <;> rfl
  | some mint =>
    have inputDiffers : leg.inputMint ≠ mint := fun same => notInput (congrArg some same.symm)
    have outputDiffers : leg.outputMint ≠ mint := fun same => notOutput (congrArg some same.symm)
    rcases sides with rfl | rfl <;>
      simp [orient, resolve, Swap.inputSide, Swap.outputSide, inputDiffers, outputDiffers]

variable (distinct : leg.inputMint ≠ leg.outputMint)
include distinct

/-- A leg whose input mint is held goes in by it where that is asked for, and is read backwards
otherwise. -/
theorem orient_input (asInput : Bool) :
    (orient asInput (some leg.inputMint) shape).1 =
      .known (if asInput then leg else leg.reversed) := by
  rcases sides with rfl | rfl <;> cases asInput <;>
    simp [orient, resolve, Swap.inputSide, Swap.outputSide, Swap.reversed, distinct.symm]

/-- A leg whose output mint is held is read backwards where an input is asked for, and comes out
by it otherwise. -/
theorem orient_output (asInput : Bool) :
    (orient asInput (some leg.outputMint) shape).1 =
      .known (if asInput then leg.reversed else leg) := by
  rcases sides with rfl | rfl <;> cases asInput <;>
    simp [orient, resolve, Swap.inputSide, Swap.outputSide, Swap.reversed, distinct]

/-- A leg is read in the direction in which the mint that the pass holds is on the side that
the pass asks for. -/
theorem orient_known_iff (asInput : Bool) (held : Option Pubkey) (read : Swap) :
    (orient asInput held shape).1 = .known read ↔
      RouteResolution.EitherWay leg read ∧
        held = some (if asInput then read.inputMint else read.outputMint) := by
  have crossed := distinct.symm
  by_cases input : held = some leg.inputMint
  · rw [input, orient_input leg shape sides distinct]
    cases asInput <;> constructor
    · rintro same
      obtain rfl := LegShape.known.inj same
      exact ⟨.inr rfl, rfl⟩
    · rintro ⟨rfl | rfl, facing⟩
      · exact absurd (Option.some.inj facing) distinct
      · rfl
    · rintro same
      obtain rfl := LegShape.known.inj same
      exact ⟨.inl rfl, rfl⟩
    · rintro ⟨rfl | rfl, facing⟩
      · rfl
      · exact absurd (Option.some.inj facing) distinct
  · by_cases output : held = some leg.outputMint
    · rw [output, orient_output leg shape sides distinct]
      cases asInput <;> constructor
      · rintro same
        obtain rfl := LegShape.known.inj same
        exact ⟨.inl rfl, rfl⟩
      · rintro ⟨rfl | rfl, facing⟩
        · rfl
        · exact absurd (Option.some.inj facing) crossed
      · rintro same
        obtain rfl := LegShape.known.inj same
        exact ⟨.inr rfl, rfl⟩
      · rintro ⟨rfl | rfl, facing⟩
        · exact absurd (Option.some.inj facing) crossed
        · rfl
    · rw [orient_foreign leg shape sides asInput held input output]
      refine iff_of_false (by rcases sides with rfl | rfl <;> simp) ?_
      rintro ⟨rfl | rfl, facing⟩
      · cases asInput
        · exact output facing
        · exact input facing
      · cases asInput
        · exact input facing
        · exact output facing

end Orientation

end Routes

namespace RouteResolution

open Routes

/-! ## The passes over a route of executed swaps -/

/-- What the legs show by themselves: a decoded leg its swap, another its two sides. -/
structure Read (legs : List Swap) (routes : List Route) (found : List LegShape) : Prop where
  length : found.length = legs.length
  known : ∀ index leg, legs[index]? = some leg → IsDecoded routes index →
    found[index]? = some (.known leg)
  sides : ∀ index leg, legs[index]? = some leg → ¬ IsDecoded routes index →
    ∃ shape, found[index]? = some shape ∧ Sides leg shape

/-- The undecoded leg at a place is read forward exactly if the leg before is, and pays out
what the leg takes in in that direction. -/
theorem readForward_undecoded_iff {legs : List Swap} {routes : List Route} (index : Nat)
    (leg reading : Swap) (here : legs[index]? = some leg) (undecoded : ¬ IsDecoded routes index) :
    ReadForward legs routes index reading ↔
      EitherWay leg reading ∧ ∃ place before, index = place + 1 ∧
        ReadForward legs routes place before ∧ before.outputMint = reading.inputMint := by
  constructor
  · intro forward
    cases forward with
    | decoded _ _ decoded => exact absurd decoded undecoded
    | takesIn place before other _ earlier atLeg _ either joined =>
      obtain rfl := Option.some.inj (here.symm.trans atLeg)
      exact ⟨either, place, before, rfl, earlier, joined⟩
  · rintro ⟨either, place, before, rfl, earlier, joined⟩
    exact .takesIn place before leg reading earlier here undecoded either joined

/-- A decoded leg is read forward as it was executed. -/
theorem readForward_decoded_iff {legs : List Swap} {routes : List Route} (index : Nat)
    (leg reading : Swap) (here : legs[index]? = some leg) (decoded : IsDecoded routes index) :
    ReadForward legs routes index reading ↔ reading = leg := by
  constructor
  · intro forward
    cases forward with
    | decoded _ _ _ atLeg => exact (Option.some.inj (here.symm.trans atLeg)).symm
    | takesIn _ _ _ _ _ _ undecoded => exact absurd decoded undecoded
  · rintro rfl
    exact .decoded index reading decoded here

/-- A leg that is read is one of the route. -/
theorem ReadAs.leg {legs : List Swap} {routes : List Route} {index : Nat} {reading : Swap}
    (read : ReadAs legs routes index reading) : ∃ leg, legs[index]? = some leg := by
  cases read with
  | forward _ _ forward =>
    obtain ⟨leg, here, _⟩ := forward.leg
    exact ⟨leg, here⟩
  | paysOut _ leg _ _ _ here => exact ⟨leg, here⟩

/-- A leg that is not read forward is read exactly if the leg after is, and takes in what the
leg pays out in that direction. -/
theorem readAs_unread_iff {legs : List Swap} {routes : List Route} (index : Nat)
    (leg reading : Swap) (here : legs[index]? = some leg)
    (unread : ∀ other, ¬ ReadForward legs routes index other) :
    ReadAs legs routes index reading ↔
      EitherWay leg reading ∧ ∃ after, ReadAs legs routes (index + 1) after ∧
        after.inputMint = reading.outputMint := by
  constructor
  · intro read
    cases read with
    | forward _ _ forward => exact absurd forward (unread reading)
    | paysOut _ other _ after later atLeg _ either joined =>
      obtain rfl := Option.some.inj (here.symm.trans atLeg)
      exact ⟨either, after, later, joined.symm⟩
  · rintro ⟨either, after, later, joined⟩
    exact .paysOut index leg reading after later here unread either joined.symm

section Passes

variable {legs : List Swap} {routes : List Route} {found : List LegShape}
  (read : Read legs routes found)
include read

/-- Beyond the legs there are no shapes. -/
theorem read_beyond (index : Nat) (beyond : legs[index]? = none) : found[index]? = none := by
  rw [List.getElem?_eq_none_iff, read.length]
  exact List.getElem?_eq_none_iff.mp beyond

variable (distinct : ∀ leg ∈ legs, leg.inputMint ≠ leg.outputMint)
include distinct

/-- The forward pass knows the legs that are read forward, as they are read. -/
theorem forward_known_iff (index : Nat) (reading : Swap) :
    (forward none found)[index]? = some (.known reading) ↔
      ReadForward legs routes index reading := by
  induction index using Nat.strong_induction_on generalizing reading with
  | _ index inductionHypothesis =>
    cases here : legs[index]? with
    | none =>
      refine iff_of_false (by simp [forward_getElem?, read_beyond read index here]) ?_
      intro forward
      obtain ⟨leg, atLeg, _⟩ := forward.leg
      simp [here] at atLeg
    | some leg =>
      by_cases decoded : IsDecoded routes index
      · rw [readForward_decoded_iff index leg reading here decoded, forward_getElem?,
          read.known index leg here decoded]
        simp [eq_comm]
      · obtain ⟨shape, shown, sides⟩ := read.sides index leg here decoded
        have bound : index ≤ found.length :=
          Nat.le_of_lt (List.getElem?_eq_some_iff.mp shown).1
        rw [readForward_undecoded_iff index leg reading here decoded, forward_getElem?, shown,
          Option.map_some, Option.some.injEq,
          orient_known_iff leg shape sides (distinct leg (List.mem_of_getElem? here)), if_pos rfl,
          heldBefore_iff found index _ bound]
        refine and_congr_right fun _ => exists_congr fun place => exists_congr fun before => ?_
        refine and_congr_right fun next => and_congr_left fun _ => ?_
        exact inductionHypothesis place (by omega) before

/-- A leg that is not read forward keeps both its sides. -/
theorem forward_unread (index : Nat) (leg : Swap) (here : legs[index]? = some leg)
    (unread : ∀ other, ¬ ReadForward legs routes index other) :
    ∃ shape, (forward none found)[index]? = some shape ∧ Sides leg shape := by
  have undecoded : ¬ IsDecoded routes index := fun decoded =>
    unread leg (.decoded index leg decoded here)
  obtain ⟨shape, shown, sides⟩ := read.sides index leg here undecoded
  refine ⟨shape, ?_, sides⟩
  have notKnown (other : Swap) :
      (orient true (heldBefore none found index) shape).1 ≠ .known other := by
    intro known
    apply unread other
    rw [← forward_known_iff read distinct, forward_getElem?, shown, Option.map_some, known]
  rw [forward_getElem?, shown, Option.map_some, orient_unread leg shape sides true _ notKnown]

/-- Both passes know the legs that are read, as they are read. -/
theorem passes_known_iff (index : Nat) (reading : Swap) :
    (passes found)[index]? = some (.known reading) ↔ ReadAs legs routes index reading := by
  induction remaining : legs.length - index using Nat.strong_induction_on
    generalizing index reading with
  | _ remaining inductionHypothesis =>
    by_cases unread : ∀ other, ¬ ReadForward legs routes index other
    · cases here : legs[index]? with
      | none =>
        refine iff_of_false ?_ ?_
        · simp [passes, backward_getElem?, forward_getElem?, read_beyond read index here]
        · intro reads
          obtain ⟨leg, atLeg⟩ := reads.leg
          simp [here] at atLeg
      | some leg =>
        have bound : index < legs.length := (List.getElem?_eq_some_iff.mp here).1
        obtain ⟨shape, shown, sides⟩ := forward_unread read distinct index leg here unread
        rw [readAs_unread_iff index leg reading here unread, passes, backward_getElem?, shown,
          Option.map_some, Option.some.injEq,
          orient_known_iff leg shape sides (distinct leg (List.mem_of_getElem? here)),
          if_neg Bool.false_ne_true, askedAt_iff found index]
        refine and_congr_right fun _ => exists_congr fun after => and_congr_left fun _ => ?_
        exact inductionHypothesis _ (by omega) (index + 1) after rfl
    · obtain ⟨other, forward⟩ := not_forall_not.mp unread
      have known := (forward_known_iff read distinct index other).mpr forward
      rw [passes_of_forward found index other known]
      constructor
      · intro same
        obtain rfl := LegShape.known.inj (Option.some.inj same)
        exact .forward index other forward
      · intro reads
        cases reads with
        | forward _ _ again =>
          rw [← known, (forward_known_iff read distinct index reading).mpr again]
        | paysOut _ _ _ _ _ _ nothing => exact absurd forward (nothing other)

end Passes

/-! ## The net swap of a partly decoded route -/

/-- The entry in the place of a leg stands for this leg. -/
theorem shows_at {legs : List Swap} {routes : List Route} (shown : List.Forall₂ Shows legs routes)
    (index : Nat) (leg : Swap) (route : Route) (here : legs[index]? = some leg)
    (entry : routes[index]? = some route) : Shows leg route := by
  obtain ⟨inLegs, rfl⟩ := List.getElem?_eq_some_iff.mp here
  obtain ⟨inRoutes, rfl⟩ := List.getElem?_eq_some_iff.mp entry
  exact (List.forall₂_iff_get.mp shown).2 index inLegs inRoutes

/-- Where the shapes of a route are found, each leg has one with its sides, and both its mints
are among its transfers. -/
theorem shape_at (profile : Profile) (orders : Nat → IterationOrder Pubkey UInt64)
    (legs : List Swap) (routes : List Route) (found : List LegShape)
    (shown : List.Forall₂ Shows legs routes) (shaped : shapes profile orders routes = .ok found)
    (index : Nat) (leg : Swap) (here : legs[index]? = some leg) :
    ∃ route shape, routes[index]? = some route ∧ found[index]? = some shape ∧
      ShapeOf leg route shape ∧ Involves leg route := by
  have sameLength := shown.length_eq
  obtain ⟨foundLength, each⟩ := List.forall₂_iff_get.mp (Outcome.collect_forall₂ _ _ _ shaped)
  rw [List.length_zipIdx] at foundLength
  obtain ⟨inLegs, _⟩ := List.getElem?_eq_some_iff.mp here
  have inRoutes : index < routes.length := by omega
  have inFound : index < found.length := by omega
  have entry : routes[index]? = some routes[index] := List.getElem?_eq_getElem inRoutes
  have single : shapeOf profile (orders index) routes[index] = .ok found[index] := by
    simpa using each index (by simpa using inRoutes) inFound
  refine ⟨_, _, entry, List.getElem?_eq_getElem inFound, ?_⟩
  rcases shapeOf_shows profile (orders index) leg _ (shows_at shown index leg _ here entry) with
    ⟨_, fails⟩ | ⟨shape, succeeds, ofLeg, involves⟩
  · simp [fails] at single
  · obtain rfl : shape = found[index] := Outcome.ok.inj (succeeds.symm.trans single)
    exact ⟨ofLeg, involves⟩

/-- Shapes that are found show what was executed, of a route in which both mints of each
undecoded leg are among its transfers. -/
theorem shapes_found (profile : Profile) (orders : Nat → IterationOrder Pubkey UInt64)
    (legs : List Swap) (routes : List Route) (found : List LegShape)
    (shown : List.Forall₂ Shows legs routes) (shaped : shapes profile orders routes = .ok found) :
    List.Forall₂ Involves legs routes ∧ Read legs routes found := by
  have sameLength := shown.length_eq
  have foundLength := (Outcome.collect_forall₂ _ _ _ shaped).length_eq
  rw [List.length_zipIdx] at foundLength
  have shapeAt := shape_at profile orders legs routes found shown shaped
  refine ⟨?_, by omega, ?_, ?_⟩
  · rw [List.forall₂_iff_get]
    refine ⟨sameLength, fun index inLegs inRoutes => ?_⟩
    obtain ⟨route, _, entry, _, _, involves⟩ := shapeAt index _ (List.getElem?_eq_getElem inLegs)
    obtain rfl := Option.some.inj ((List.getElem?_eq_getElem inRoutes).symm.trans entry)
    exact involves
  · rintro index leg here ⟨dex, decoded⟩
    obtain ⟨route, shape, entry, shows, ofLeg, _⟩ := shapeAt index leg here
    obtain rfl : route = .decoded dex := Option.some.inj (entry.symm.trans decoded)
    cases ofLeg
    exact shows
  · intro index leg here undecoded
    obtain ⟨route, shape, entry, shows, ofLeg, _⟩ := shapeAt index leg here
    refine ⟨shape, shows, ?_⟩
    cases ofLeg with
    | known dex => exact absurd ⟨dex, entry⟩ undecoded
    | sides => exact .inl rfl
    | crossed => exact .inr rfl

/-- The legs of a route show what was executed if both mints of each undecoded one are among
its transfers. Otherwise they fail by themselves. -/
theorem shapes_read (profile : Profile) (orders : Nat → IterationOrder Pubkey UInt64)
    (legs : List Swap) (routes : List Route) (shown : List.Forall₂ Shows legs routes)
    (distinct : ∀ leg ∈ legs, leg.inputMint ≠ leg.outputMint) :
    (¬ List.Forall₂ Involves legs routes ∧ ∃ error, shapes profile orders routes = .err error) ∨
      List.Forall₂ Involves legs routes ∧
        ∃ found, shapes profile orders routes = .ok found ∧ Read legs routes found := by
  have sameLength := shown.length_eq
  cases outcome : shapes profile orders routes with
  | err error =>
    refine .inl ⟨fun involved => ?_, error, rfl⟩
    obtain ⟨⟨route, index⟩, member, fails⟩ := Outcome.collect_err _ _ _ outcome
    have entry : routes[index]? = some route := List.mem_zipIdx_iff_getElem?.mp member
    obtain ⟨inRoutes, rfl⟩ := List.getElem?_eq_some_iff.mp entry
    have inLegs : index < legs.length := by omega
    obtain ⟨shape, succeeds⟩ := shapeOf_involves profile (orders index) legs[index] routes[index]
      (shows_at shown index _ _ (List.getElem?_eq_getElem inLegs) entry)
      ((List.forall₂_iff_get.mp involved).2 index inLegs inRoutes)
      (distinct _ (List.getElem_mem inLegs))
    simp [succeeds] at fails
  | panic =>
    obtain ⟨⟨route, index⟩, member, panics⟩ := Outcome.collect_panic _ _ outcome
    have entry : routes[index]? = some route := List.mem_zipIdx_iff_getElem?.mp member
    obtain ⟨inRoutes, _⟩ := List.getElem?_eq_some_iff.mp entry
    have here : legs[index]? = some legs[index] := List.getElem?_eq_getElem (by omega)
    rcases shapeOf_shows profile (orders index) _ route (shows_at shown index _ route here entry)
      with ⟨_, fails⟩ | ⟨_, succeeds, _⟩
    · simp [fails] at panics
    · simp [succeeds] at panics
  | ok found =>
    obtain ⟨involved, read⟩ := shapes_found profile orders legs routes found shown outcome
    exact .inr ⟨involved, found, rfl, read⟩

/-- The swaps of a route are its legs as they are read, if each of them is. -/
theorem toSwaps_ok_iff (profile : Profile) (orders : Nat → IterationOrder Pubkey UInt64)
    (legs : List Swap) (routes : List Route) (found : List LegShape)
    (shaped : shapes profile orders routes = .ok found) (read : Read legs routes found)
    (distinct : ∀ leg ∈ legs, leg.inputMint ≠ leg.outputMint) (readings : List Swap) :
    toSwaps profile orders routes = .ok readings ↔ AsRead legs routes readings := by
  have resolved : toSwaps profile orders routes = knownSwaps (passes found) := by
    rw [toSwaps, shaped]
    rfl
  have lengths : (passes found).length = legs.length := by simp [passes, read.length]
  rw [resolved]
  constructor
  · intro known
    have final := knownSwaps_ok _ _ known
    refine ⟨by simpa [final] using lengths, fun index reading here => ?_⟩
    rw [← passes_known_iff read distinct, final, List.getElem?_map, here]
    rfl
  · rintro ⟨sameLength, reads⟩
    have final : passes found = readings.map .known := by
      apply List.ext_getElem (by simp [lengths, sameLength])
      intro index inPasses inReadings
      rw [List.getElem_map]
      have known := (passes_known_iff read distinct index _).mpr
        (reads index _ (List.getElem?_eq_getElem (by simpa using inReadings)))
      exact (List.getElem?_eq_some_iff.mp known).2
    rw [final, knownSwaps_known]

/-- The swaps of a route without undecoded legs are those executed. -/
theorem decodedSwaps_executed (legs : List Swap) (routes : List Route)
    (shown : List.Forall₂ Shows legs routes)
    (complete : ∀ route ∈ routes, route.isDecoded = true) :
    routes.filterMap (fun route =>
      match route with
      | .decoded dex => some dex.swap
      | .undecoded _ _ _ => none) = legs := by
  induction shown with
  | nil => rfl
  | @cons leg route legs routes shows _ inductionHypothesis =>
    have atRest := inductionHypothesis (fun later member =>
      complete later (List.mem_cons_of_mem _ member))
    cases route with
    | undecoded => simpa [Route.isDecoded] using complete _ List.mem_cons_self
    | decoded dex =>
      obtain rfl : dex.swap = leg := shows
      exact congrArg (dex.swap :: ·) atRest

/-- They are found. -/
theorem swaps_of_decoded (profile : Profile) (orders : Nat → IterationOrder Pubkey UInt64)
    (legs : List Swap) (routes : List Route) (shown : List.Forall₂ Shows legs routes)
    (complete : ∀ route ∈ routes, route.isDecoded = true) :
    swaps profile orders routes = .ok legs := by
  have decoded : ¬ routes.any (fun route => !route.isDecoded) := by simpa using complete
  rw [swaps, if_neg decoded]
  exact congrArg Outcome.ok (decodedSwaps_executed legs routes shown complete)

/-- A route without undecoded legs leaves no side to be shown. -/
theorem involves_of_decoded (legs : List Swap) (routes : List Route)
    (shown : List.Forall₂ Shows legs routes)
    (complete : ∀ route ∈ routes, route.isDecoded = true) :
    List.Forall₂ Involves legs routes := by
  rw [List.forall₂_iff_get]
  refine ⟨shown.length_eq, fun index _ inRoutes => ?_⟩
  have decoded := complete _ (List.get_mem routes ⟨index, inRoutes⟩)
  cases entry : routes.get ⟨index, inRoutes⟩ with
  | decoded dex => trivial
  | undecoded program path transfers =>
    rw [entry] at decoded
    cases decoded

/-- A route without undecoded legs is read as it was executed. -/
theorem asRead_of_decoded (legs : List Swap) (routes : List Route)
    (shown : List.Forall₂ Shows legs routes)
    (complete : ∀ route ∈ routes, route.isDecoded = true) : AsRead legs routes legs := by
  refine ⟨rfl, fun index leg here => .forward index leg (.decoded index leg ?_ here)⟩
  obtain ⟨bound, _⟩ := List.getElem?_eq_some_iff.mp here
  rw [shown.length_eq] at bound
  cases entry : routes[index] with
  | decoded dex => exact ⟨dex, by rw [List.getElem?_eq_getElem bound, entry]⟩
  | undecoded program path transfers =>
    have impossible := complete routes[index] (List.getElem_mem bound)
    simp [entry, Route.isDecoded] at impossible

/-- The swaps of a route are its legs as they are read, or are not found because a leg is not
read or shows too little. -/
theorem swaps_asRead (profile : Profile) (orders : Nat → IterationOrder Pubkey UInt64)
    (legs : List Swap) (routes : List Route) (shown : List.Forall₂ Shows legs routes)
    (distinct : ∀ leg ∈ legs, leg.inputMint ≠ leg.outputMint) :
    ((∀ readings, List.Forall₂ Involves legs routes → ¬ AsRead legs routes readings) ∧
      ∃ error, swaps profile orders routes = .err error) ∨
    ∃ readings, swaps profile orders routes = .ok readings ∧
      List.Forall₂ Involves legs routes ∧ AsRead legs routes readings ∧
      ∀ others, AsRead legs routes others → others = readings := by
  by_cases undecoded : routes.any (fun route => !route.isDecoded)
  · rw [swaps, if_pos undecoded]
    rcases shapes_read profile orders legs routes shown distinct with
      ⟨uninvolved, error, fails⟩ | ⟨involved, found, shaped, read⟩
    · exact .inl ⟨fun _ involved => absurd involved uninvolved, error, by simp [toSwaps, fails]⟩
    · have reads := toSwaps_ok_iff profile orders legs routes found shaped read distinct
      cases result : toSwaps profile orders routes with
      | ok readings =>
        refine .inr ⟨readings, rfl, involved, (reads readings).mp result, fun others asRead => ?_⟩
        exact Outcome.ok.inj (((reads others).mpr asRead).symm.trans result)
      | err error =>
        refine .inl ⟨fun readings _ asRead => ?_, error, rfl⟩
        simp [(reads readings).mpr asRead] at result
      | panic =>
        rw [toSwaps, shaped] at result
        exact absurd result (knownSwaps_ne_panic _)
  · have complete : ∀ route ∈ routes, route.isDecoded = true := by simpa using undecoded
    have involved := involves_of_decoded legs routes shown complete
    have asRead := asRead_of_decoded legs routes shown complete
    rw [swaps_of_decoded profile orders legs routes shown complete]
    rcases shapes_read profile orders legs routes shown distinct with
      ⟨uninvolved, _⟩ | ⟨_, found, shaped, read⟩
    · exact absurd involved uninvolved
    · have reads := toSwaps_ok_iff profile orders legs routes found shaped read distinct
      refine .inr ⟨legs, rfl, involved, asRead, fun others alsoRead => ?_⟩
      exact Outcome.ok.inj (((reads others).mpr alsoRead).symm.trans ((reads legs).mpr asRead))

/-- A route of executed swaps, some of them not decoded, fails or nets to what was executed,
exactly if the legs as they are read net to an error or to what was executed, where each of
them is read and shows both its mints. And no leg is read other than it was executed exactly
if none invites a wrong reading. -/
theorem swap_executed (profile : Profile) (orders : Nat → IterationOrder Pubkey UInt64)
    (legs : List Swap) (routes : List Route) (net : Swap)
    (shown : List.Forall₂ Shows legs routes)
    (distinct : ∀ leg ∈ legs, leg.inputMint ≠ leg.outputMint)
    (netted : SwapGraph.swap profile ⟨legs⟩ = .ok net) :
    (((∃ error, Routes.swap profile orders routes = .err error) ∨
        Routes.swap profile orders routes = .ok net) ↔
      (List.Forall₂ Involves legs routes → ∀ readings, AsRead legs routes readings →
        NetsTo profile net readings)) ∧
    (NoMisreading legs routes ↔
      ∀ index read, ReadAs legs routes index read → legs[index]? = some read) ∧
    (NoMisreading legs routes → ∀ readings, AsRead legs routes readings →
      NetsTo profile net readings) := by
  have executed : NoMisreading legs routes ↔
      ∀ index read, ReadAs legs routes index read → legs[index]? = some read :=
    noMisreading_iff distinct
  refine ⟨?_, executed, ?_⟩
  · rw [Routes.swap]
    rcases swaps_asRead profile orders legs routes shown distinct with
      ⟨unread, error, fails⟩ | ⟨readings, found, involved, asRead, only⟩
    · refine iff_of_true (.inl ⟨error, by simp [fails]⟩) fun involved readings asRead => ?_
      exact absurd asRead (unread readings involved)
    · have netReadings : ((∃ error, ((SwapGraph.swap profile ⟨readings⟩).mapError
          RouteError.resolution) = .err error) ∨
            ((SwapGraph.swap profile ⟨readings⟩).mapError RouteError.resolution) = .ok net) ↔
          NetsTo profile net readings := by
        rw [NetsTo]
        cases SwapGraph.swap profile ⟨readings⟩ <;> simp
      rw [found, Outcome.ok_bind, netReadings]
      refine ⟨fun nets _ others alsoRead => only others alsoRead ▸ nets, fun nets => ?_⟩
      exact nets involved readings asRead
  · rintro sound readings ⟨sameLength, reads⟩
    have same : readings = legs := by
      apply List.ext_getElem sameLength
      intro index inReadings inLegs
      have here := executed.mp sound index _ (reads index _ (List.getElem?_eq_getElem inReadings))
      exact ((List.getElem?_eq_some_iff.mp here).2).symm
    exact .inr (same ▸ netted)

/-- A chain with an undecoded leg at its end. -/
def chainLegs : List Swap := [⟨100, 200, ⟨0xA⟩, ⟨0xB⟩⟩, ⟨200, 70, ⟨0xB⟩, ⟨0xC⟩⟩]

/-- The chain as it is found. -/
def chainRoutes : List Route := [
  .decoded ⟨⟨0x1⟩, ⟨0x2⟩, .orca, ⟨100, 200, ⟨0xA⟩, ⟨0xB⟩⟩⟩,
  .undecoded (.unknown ⟨0x5⟩) [1, 2] [
    ⟨⟨0x6⟩, some ⟨0xB⟩, ⟨0x7⟩, ⟨0x8⟩, 200, false⟩, ⟨⟨0x7⟩, some ⟨0xC⟩, ⟨0x6⟩, ⟨0x8⟩, 70, false⟩]]

/-- The chain is read in the direction in which it was executed. -/
theorem swap_of_chain :
    NoMisreading chainLegs chainRoutes ∧
    ((∃ error, Routes.swap ⟨true⟩ (fun _ => default) chainRoutes = .err error) ∨
      Routes.swap ⟨true⟩ (fun _ => default) chainRoutes = .ok ⟨100, 70, ⟨0xA⟩, ⟨0xC⟩⟩) := by
  have shown : List.Forall₂ Shows chainLegs chainRoutes := by
    refine .cons rfl (.cons ⟨?_, ?_, ?_⟩ .nil) <;> decide
  obtain ⟨exactly, _, enough⟩ := swap_executed ⟨true⟩ (fun _ => default) chainLegs chainRoutes
    ⟨100, 70, ⟨0xA⟩, ⟨0xC⟩⟩ shown (by decide) (by decide)
  have sound : NoMisreading chainLegs chainRoutes := by
    constructor
    · intro index before leg _ atBefore here _
      match index with
      | 0 =>
        obtain rfl := Option.some.inj atBefore
        obtain rfl := Option.some.inj here
        decide
      | index + 1 => simp [chainLegs] at here
    · intro index leg after _ here atAfter _
      match index with
      | 0 =>
        obtain rfl := Option.some.inj here
        obtain rfl := Option.some.inj atAfter
        decide
      | index + 1 => simp [chainLegs] at atAfter
  exact ⟨sound, exactly.mpr fun _ => enough sound⟩

/-- Two swaps of the same pair in parallel. -/
def parallelLegs : List Swap := [⟨100, 200, ⟨0xA⟩, ⟨0xB⟩⟩, ⟨50, 100, ⟨0xA⟩, ⟨0xB⟩⟩]

/-- The same two swaps, of which the second was not decoded. -/
def parallelRoutes : List Route := [
  .decoded ⟨⟨0x1⟩, ⟨0x2⟩, .orca, ⟨100, 200, ⟨0xA⟩, ⟨0xB⟩⟩⟩,
  .undecoded (.unknown ⟨0x5⟩) [1, 2] [
    ⟨⟨0x6⟩, some ⟨0xA⟩, ⟨0x7⟩, ⟨0x8⟩, 50, false⟩, ⟨⟨0x7⟩, some ⟨0xB⟩, ⟨0x6⟩, ⟨0x8⟩, 100, false⟩]]

/-- Together they take 150 in and pay 300 out. With the second read backwards the route
seems to end where it began. -/
theorem swap_of_parallel_legs :
    List.Forall₂ Shows parallelLegs parallelRoutes ∧
    (∀ leg ∈ parallelLegs, leg.inputMint ≠ leg.outputMint) ∧
    (∃ route ∈ parallelRoutes, route.isDecoded = true) ∧
    SwapGraph.swap ⟨true⟩ ⟨parallelLegs⟩ = .ok ⟨150, 300, ⟨0xA⟩, ⟨0xB⟩⟩ ∧
    Routes.swap ⟨true⟩ (fun _ => default) parallelRoutes = .ok ⟨100, 50, ⟨0xA⟩, ⟨0xA⟩⟩ := by
  refine ⟨.cons rfl (.cons ⟨?_, ?_, ?_⟩ .nil), ?_, ?_, ?_, ?_⟩ <;> decide

end RouteResolution

end Graced
