import Graced.RouteResolution

/-!
# Chains with gaps

On a chain every leg takes in what the one before paid out. Forward from each decoded leg
and backward from the first one, the passes then read all legs as they were executed,
however many were left undecoded and whichever mints come again further along.
-/

namespace Graced.RouteChains

open Routes RouteResolution

/-- Every leg takes in what the one before it paid out. -/
def Chained (legs : List Swap) : Prop :=
  ∀ index before after, legs[index]? = some before → legs[index + 1]? = some after →
    before.outputMint = after.inputMint

/-! ## The directions -/

section Directions

variable {legs : List Swap} {routes : List Route} (chained : Chained legs)
include chained

/-- Every leg at or after a decoded one is fed. -/
theorem fed_after (decodedAt index : Nat) (decoded : IsDecoded routes decodedAt)
    (after : decodedAt ≤ index) (inLegs : index < legs.length) : Fed legs routes index := by
  induction index, after using Nat.le_induction with
  | base => exact .decoded decodedAt decoded
  | succ index _ inductionHypothesis =>
    have atIndex : legs[index]? = some legs[index] := List.getElem?_eq_getElem (by omega)
    have atNext : legs[index + 1]? = some legs[index + 1] := List.getElem?_eq_getElem inLegs
    exact .passedOn index _ _ (inductionHypothesis (by omega)) atIndex atNext
      (chained index _ _ atIndex atNext)

/-- Every leg at or before a decoded one is drawn. -/
theorem drawn_before (decodedAt distance : Nat) (decoded : IsDecoded routes decodedAt)
    (inLegs : decodedAt < legs.length) (before : distance ≤ decodedAt) :
    Drawn legs routes (decodedAt - distance) := by
  induction distance with
  | zero => exact .decoded decodedAt decoded
  | succ distance inductionHypothesis =>
    have next : decodedAt - distance = decodedAt - (distance + 1) + 1 := by omega
    have drawn := inductionHypothesis (by omega)
    rw [next] at drawn
    have atLeg : legs[decodedAt - (distance + 1)]? = some legs[decodedAt - (distance + 1)] :=
      List.getElem?_eq_getElem (by omega)
    have atAfter : legs[decodedAt - (distance + 1) + 1]? =
        some legs[decodedAt - (distance + 1) + 1] := List.getElem?_eq_getElem (by omega)
    exact .takenUp _ _ _ drawn atLeg atAfter (chained _ _ _ atLeg atAfter)

variable (distinct : ∀ leg ∈ legs, leg.inputMint ≠ leg.outputMint)
include distinct

/-- No leg of a chain invites a wrong reading. -/
theorem chain_noMisreading : NoMisreading legs routes := by
  constructor
  · intro index before leg _ atBefore here _ shared
    exact distinct leg (List.mem_of_getElem? here)
      ((chained index before leg atBefore here).symm.trans shared)
  · intro index leg after _ here atAfter _ shared
    exact distinct leg (List.mem_of_getElem? here)
      (shared.trans (chained index leg after here atAfter).symm)

/-- With one decoded leg, both passes read the whole chain as it was executed. -/
theorem passes_chain {found : List LegShape} (read : Read legs routes found)
    (decodedAt : Nat) (decoded : IsDecoded routes decodedAt) (inLegs : decodedAt < legs.length) :
    passes found = legs.map .known := by
  have sound : NoMisreading legs routes := chain_noMisreading chained distinct
  apply List.ext_getElem?
  intro index
  rw [List.getElem?_map]
  by_cases inChain : index < legs.length
  · have here : legs[index]? = some legs[index] := List.getElem?_eq_getElem inChain
    rw [here, Option.map_some]
    rw [passes_known_iff read distinct]
    rcases Nat.le_total decodedAt index with after | before
    · have fed := fed_after chained decodedAt index decoded after inChain
      exact .forward index _ (fed_read index fed _ here)
    · have drawn := drawn_before chained decodedAt (decodedAt - index) decoded inLegs (by omega)
      rw [Nat.sub_sub_self before] at drawn
      have executed (place : Nat) (reading : Swap)
          (forward : ReadForward legs routes place reading) : legs[place]? = some reading :=
        (readForward_executed sound place reading forward).1
      exact drawn_read executed index drawn _ here
  · have lengths : (passes found).length = legs.length := by simp [passes, read.length]
    rw [List.getElem?_eq_none (by omega), List.getElem?_eq_none (by omega)]
    rfl

end Directions

/-! ## The whole route -/

/-- A chain of swaps of which at least one was decoded is recovered from the transfers of
the others, and nets to the same as if all had been decoded. -/
theorem toSwaps_chain (profile : Profile) (orders : Nat → IterationOrder Pubkey UInt64)
    (legs : List Swap) (routes : List Route) (chained : Chained legs)
    (distinct : ∀ leg ∈ legs, leg.inputMint ≠ leg.outputMint)
    (shown : List.Forall₂ Shows legs routes) (involved : List.Forall₂ Involves legs routes)
    (anchored : ∃ route ∈ routes, route.isDecoded = true) :
    toSwaps profile orders routes = .ok legs ∧
      ∀ (otherOrders : Nat → IterationOrder Pubkey UInt64) (whole : List Route),
        List.Forall₂ Shows legs whole → (∀ route ∈ whole, route.isDecoded = true) →
          Routes.swap profile orders routes = Routes.swap profile otherOrders whole := by
  have recovered : toSwaps profile orders routes = .ok legs := by
    obtain ⟨_, found, shaped, read⟩ :=
      (shapes_read profile orders legs routes shown distinct).resolve_left
        (fun failed => failed.1 involved)
    obtain ⟨route, member, isDecoded⟩ := anchored
    obtain ⟨decodedAt, inRoutes, rfl⟩ := List.getElem_of_mem member
    have decoded : IsDecoded routes decodedAt := by
      cases entry : routes[decodedAt] with
      | decoded dex => exact ⟨dex, by rw [List.getElem?_eq_getElem inRoutes, entry]⟩
      | undecoded program path transfers => simp [entry, Route.isDecoded] at isDecoded
    have final := passes_chain chained distinct read decodedAt decoded
      (by rw [shown.length_eq]; exact inRoutes)
    rw [passes] at final
    rw [toSwaps, shaped, Outcome.ok_bind, final, knownSwaps_known]
  refine ⟨recovered, ?_⟩
  intro otherOrders whole shownWhole complete
  have swapsHere : swaps profile orders routes = .ok legs := by
    by_cases undecoded : routes.any (fun route => !route.isDecoded)
    · rw [swaps, if_pos undecoded, recovered]
    · exact swaps_of_decoded profile orders legs routes shown (by simpa using undecoded)
  have swapsWhole := swaps_of_decoded profile otherOrders legs whole shownWhole complete
  rw [Routes.swap, Routes.swap, swapsHere, swapsWhole]

/-- A chain that comes back to where it began before it goes on. -/
def returningLegs : List Swap :=
  [⟨100, 200, ⟨0xA⟩, ⟨0xB⟩⟩, ⟨200, 90, ⟨0xB⟩, ⟨0xA⟩⟩, ⟨90, 70, ⟨0xA⟩, ⟨0xC⟩⟩]

/-- Of its legs only the one in the middle was decoded. -/
def returningRoutes : List Route := [
  .undecoded (.unknown ⟨0x5⟩) [1, 1] [
    ⟨⟨0x6⟩, some ⟨0xA⟩, ⟨0x7⟩, ⟨0x8⟩, 100, false⟩, ⟨⟨0x7⟩, some ⟨0xB⟩, ⟨0x6⟩, ⟨0x8⟩, 200, false⟩],
  .decoded ⟨⟨0x1⟩, ⟨0x2⟩, .orca, ⟨200, 90, ⟨0xB⟩, ⟨0xA⟩⟩⟩,
  .undecoded (.unknown ⟨0x5⟩) [1, 2] [
    ⟨⟨0x6⟩, some ⟨0xA⟩, ⟨0x7⟩, ⟨0x8⟩, 60, false⟩, ⟨⟨0x6⟩, some ⟨0xA⟩, ⟨0x7⟩, ⟨0x8⟩, 30, false⟩,
    ⟨⟨0x7⟩, some ⟨0xC⟩, ⟨0x6⟩, ⟨0x8⟩, 70, false⟩]]

/-- The middle leg is enough to recover all three. -/
theorem toSwaps_of_returning_chain :
    toSwaps ⟨true⟩ (fun _ => default) returningRoutes = .ok returningLegs := by
  have linked : Chained returningLegs := by
    intro index before after atBefore atAfter
    match index with
    | 0 | 1 =>
      obtain rfl := Option.some.inj atBefore
      obtain rfl := Option.some.inj atAfter
      rfl
    | index + 2 => simp [returningLegs] at atAfter
  have shown : List.Forall₂ Shows returningLegs returningRoutes := by
    refine .cons ⟨?_, ?_, ?_⟩ (.cons rfl (.cons ⟨?_, ?_, ?_⟩ .nil)) <;> decide
  have involved : List.Forall₂ Involves returningLegs returningRoutes := by
    refine .cons ⟨?_, ?_⟩ (.cons trivial (.cons ⟨?_, ?_⟩ .nil)) <;> decide
  exact (toSwaps_chain ⟨true⟩ (fun _ => default) returningLegs returningRoutes linked (by decide)
    shown involved (by decide)).1

end Graced.RouteChains
