import Graced.NetSwap

/-!
# Legs in another order

Two neighbouring legs of a route are independent if neither pays out what the other takes
in, and they do not compete for one mint unless it is the entry's, of which there is always
enough. Exchanging them changes the balances on the way, but not where the walk has got to
behind both, and so it makes no difference to the net swap. It does make one to a build
that checks: the leg that comes first may be refused before the other one overflows.
-/

namespace Graced.SwapGraph

/-- Neither leg pays out what the other takes in, and both take in the same mint only if it
entered the route. -/
structure Independent (entry : Pubkey) (s t : Swap) : Prop where
  forth : s.outputMint ≠ t.inputMint
  back : t.outputMint ≠ s.inputMint
  inputs : s.inputMint ≠ t.inputMint ∨ s.inputMint = entry ∧ t.inputMint = entry

theorem Independent.symm {entry : Pubkey} {s t : Swap} (independent : Independent entry s t) :
    Independent entry t s where
  forth := independent.back
  back := independent.forth
  inputs := independent.inputs.imp Ne.symm And.symm

/-- Two walks that hold the same and have taken in the same. -/
structure Agrees (walk other : Walk) : Prop where
  available : ∀ mint, walk.available mint = other.available mint
  netInput : walk.netInput = other.netInput

/-- Both results are errors, or both are this net swap. -/
def Alike (result other : Outcome SwapGraphError Swap) : Prop :=
  (∃ error otherError, result = .err error ∧ other = .err otherError) ∨
    ∃ net, result = .ok net ∧ other = .ok net

/-- One round succeeds exactly if the swap is not refused and no checked credit overflows. -/
theorem step_ok_iff (profile : Profile) (entry : Pubkey) (walk next : Walk) (s : Swap) :
    step profile entry walk s = .ok next ↔
      refuses entry s (walk.missing s) = false ∧
        (profile.overflowChecks = true → ¬ walk.Overflows entry s) ∧
        next = walk.settled entry s := by
  rw [step_eq]
  by_cases refused : refuses entry s (walk.missing s) = true
  · simp [refused]
  · by_cases overflow : profile.overflowChecks ∧ walk.Overflows entry s
    · simp [refused, overflow]
    · simp only [refused, overflow, Bool.false_eq_true, if_false, Outcome.ok.injEq, true_and]
      constructor
      · rintro rfl
        exact ⟨fun checks overflows => overflow ⟨checks, overflows⟩, rfl⟩
      · rintro ⟨_, rfl⟩
        rfl

/-- A walk over a list goes on behind its first part. -/
theorem walk_append (profile : Profile) (entry : Pubkey) (state : Walk)
    (before after : List Swap) :
    walk profile entry state (before ++ after) =
      walk profile entry state before >>= fun next => walk profile entry next after := by
  induction before generalizing state with
  | nil => rfl
  | cons s rest inductionHypothesis =>
    simp only [List.cons_append, walk, bind_assoc, inductionHypothesis]

/-! ## Walks that agree -/

section Agreement

variable {profile : Profile} {entry : Pubkey} {state other : Walk} (agrees : Agrees state other)
include agrees

theorem missing_agrees (s : Swap) : state.missing s = other.missing s := by
  rw [Walk.missing, Walk.missing, agrees.available]

theorem drawn_agrees (s : Swap) : Agrees (state.drawn entry s) (other.drawn entry s) := by
  constructor
  · intro mint
    rw [drawn_available, drawn_available, agrees.available]
  · simp only [Walk.drawn, missing_agrees agrees, agrees.netInput]

theorem settled_agrees (s : Swap) : Agrees (state.settled entry s) (other.settled entry s) := by
  have drawn : Agrees (state.drawn entry s) (other.drawn entry s) := drawn_agrees agrees s
  constructor
  · intro mint
    rw [settled_available, settled_available, drawn.available]
  · exact drawn.netInput

/-- Walks that agree go on alike. -/
theorem walk_agrees (swaps : List Swap) (final : Walk)
    (success : walk profile entry state swaps = .ok final) :
    ∃ same, walk profile entry other swaps = .ok same ∧ Agrees final same := by
  induction swaps generalizing state other with
  | nil =>
    obtain rfl : state = final := Outcome.ok.inj success
    exact ⟨other, rfl, agrees⟩
  | cons s rest inductionHypothesis =>
    simp only [walk, Outcome.bind_ok_iff, step_ok_iff] at success
    obtain ⟨_, ⟨passed, room, rfl⟩, continued⟩ := success
    obtain ⟨same, walked, stillAgrees⟩ :=
      inductionHypothesis (settled_agrees agrees s) continued
    refine ⟨same, ?_, stillAgrees⟩
    simp only [walk, Outcome.bind_ok_iff, step_ok_iff]
    refine ⟨_, ⟨?_, ?_, rfl⟩, walked⟩
    · rw [← missing_agrees agrees]
      exact passed
    · have drawn : Agrees (state.drawn entry s) (other.drawn entry s) := drawn_agrees agrees s
      simpa [Walk.Overflows, drawn.available] using room

end Agreement

/-! ## Two independent legs -/

/-- Inputs leave a balance the same in either order. -/
theorem remaining_comm (avail amount other : UInt64) :
    remaining (remaining avail amount) other = remaining (remaining avail other) amount := by
  apply UInt64.toNat_inj.mp
  simp only [remaining_toNat]
  omega

section Exchange

variable {profile : Profile} {entry : Pubkey} {state : Walk} {s t : Swap}
  (independent : Independent entry s t)
include independent

/-- Of a mint that only the second leg takes in there is as much as before the first. -/
theorem missing_settled (apart : s.inputMint ≠ t.inputMint) :
    (state.settled entry s).missing t = state.missing t := by
  rw [Walk.missing, Walk.missing, settled_available, if_neg independent.forth, drawn_available,
    if_neg apart]

/-- The first leg makes no difference to whether the second is refused. -/
theorem refuses_settled :
    refuses entry t ((state.settled entry s).missing t) = refuses entry t (state.missing t) := by
  rcases independent.inputs with apart | ⟨_, external⟩
  · rw [missing_settled independent apart]
  · simp [refuses, external]

/-- What the second leg credits is the balance before the first, or that with the credit of
the first. -/
theorem credited_settled :
    ((state.settled entry s).drawn entry t).available t.outputMint =
      if s.outputMint = t.outputMint then (state.drawn entry t).available t.outputMint +
        s.outputAmount
      else (state.drawn entry t).available t.outputMint := by
  have untouched : (state.drawn entry s).available t.outputMint = state.available t.outputMint := by
    rw [drawn_available, if_neg (Ne.symm independent.back)]
  rw [drawn_available, drawn_available, settled_available, untouched]
  by_cases shared : s.outputMint = t.outputMint
  · have notDrawn : t.inputMint ≠ t.outputMint := by
      rw [← shared]
      exact Ne.symm independent.forth
    simp [shared, notDrawn]
  · simp [shared]

/-- If both credits have room in one order, they have it in the other. -/
theorem overflows_exchange (first : ¬ state.Overflows entry s)
    (second : ¬ (state.settled entry s).Overflows entry t) :
    ¬ state.Overflows entry t ∧ ¬ (state.settled entry t).Overflows entry s := by
  unfold Walk.Overflows at first second ⊢
  rw [credited_settled independent] at second
  rw [credited_settled independent.symm]
  by_cases shared : s.outputMint = t.outputMint
  · have sameBalance : (state.drawn entry s).available s.outputMint =
        (state.drawn entry t).available t.outputMint := by
      rw [drawn_available, drawn_available, shared, if_neg (Ne.symm independent.back),
        if_neg (shared ▸ Ne.symm independent.forth)]
    rw [if_pos shared, UInt64.toNat_add, ← sameBalance, Nat.mod_eq_of_lt (by omega)] at second
    rw [if_pos shared.symm, UInt64.toNat_add, ← sameBalance, Nat.mod_eq_of_lt (by omega)]
    omega
  · rw [if_neg shared] at second
    rw [if_neg (Ne.symm shared)]
    exact ⟨second, first⟩

/-- Both orders put in the same: of the entry mint, what both legs together lack. -/
theorem netInput_exchange :
    ((state.settled entry s).settled entry t).netInput =
      ((state.settled entry t).settled entry s).netInput := by
  have put (walk : Walk) (leg : Swap) : (walk.settled entry leg).netInput =
      if leg.inputMint = entry then saturatingAdd walk.netInput (walk.missing leg)
      else walk.netInput := rfl
  simp only [put]
  by_cases sExternal : s.inputMint = entry
  · by_cases tExternal : t.inputMint = entry
    · have second : (state.settled entry s).missing t =
          lacking (remaining (state.available entry) s.inputAmount) t.inputAmount := by
        rw [Walk.missing, settled_available, if_neg independent.forth, drawn_available, tExternal,
          if_pos sExternal]
      have otherSecond : (state.settled entry t).missing s =
          lacking (remaining (state.available entry) t.inputAmount) s.inputAmount := by
        rw [Walk.missing, settled_available, if_neg independent.back, drawn_available, sExternal,
          if_pos tExternal]
      rw [if_pos sExternal, if_pos tExternal, if_pos tExternal, if_pos sExternal, second,
        otherSecond, Walk.missing, Walk.missing, sExternal, tExternal]
      apply UInt64.toNat_inj.mp
      simp only [saturatingAdd_toNat, lacking_toNat, remaining_toNat]
      omega
    · have apart : t.inputMint ≠ s.inputMint := fun same => tExternal (same.trans sExternal)
      simp [sExternal, tExternal, missing_settled independent.symm apart]
  · by_cases tExternal : t.inputMint = entry
    · have apart : s.inputMint ≠ t.inputMint := fun same => sExternal (same.trans tExternal)
      simp [sExternal, tExternal, missing_settled independent apart]
    · simp [sExternal, tExternal]

/-- Both orders leave the walk with the same balances and the same input. -/
theorem settled_exchange :
    Agrees ((state.settled entry s).settled entry t) ((state.settled entry t).settled entry s) := by
  have forth := independent.forth
  have back := independent.back
  constructor
  · intro mint
    simp only [settled_available, drawn_available]
    by_cases sIn : s.inputMint = mint
    · have notOut : t.outputMint ≠ mint := sIn ▸ back
      by_cases tIn : t.inputMint = mint
      · have alsoNotOut : s.outputMint ≠ mint := tIn ▸ forth
        simp [sIn, tIn, notOut, alsoNotOut, remaining_comm]
      · simp [sIn, tIn, notOut]
    · by_cases tIn : t.inputMint = mint
      · have notOut : s.outputMint ≠ mint := tIn ▸ forth
        simp [sIn, tIn, notOut]
      · by_cases sOut : s.outputMint = mint <;> by_cases tOut : t.outputMint = mint <;>
          simp [sIn, tIn, sOut, tOut]
        ac_rfl
  · exact netInput_exchange independent

/-- If the walk gets behind both legs in one order, it gets to the same in the other. -/
theorem walk_exchange (final : Walk) (success : walk profile entry state [s, t] = .ok final) :
    ∃ same, walk profile entry state [t, s] = .ok same ∧ Agrees final same := by
  simp only [walk, Outcome.bind_ok_iff, step_ok_iff, Outcome.ok.injEq] at success
  obtain ⟨_, ⟨sPasses, sRoom, rfl⟩, _, ⟨tPasses, tRoom, rfl⟩, rfl⟩ := success
  have room (checks : profile.overflowChecks = true) :=
    overflows_exchange independent (sRoom checks) (tRoom checks)
  refine ⟨(state.settled entry t).settled entry s, ?_, settled_exchange independent⟩
  simp only [walk, Outcome.bind_ok_iff, step_ok_iff, Outcome.ok.injEq]
  refine ⟨_, ⟨?_, fun checks => (room checks).1, rfl⟩, _,
    ⟨?_, fun checks => (room checks).2, rfl⟩, rfl⟩
  · rw [← refuses_settled independent]
    exact tPasses
  · rw [refuses_settled independent.symm]
    exact sPasses

end Exchange

/-- If a route nets in one order of two independent legs, it nets to the same in the other. -/
theorem swap_exchange (profile : Profile) (before after : List Swap) (s t : Swap)
    (beforeNonempty : before ≠ []) (afterNonempty : after ≠ [])
    (independent : Independent (before.head beforeNonempty).inputMint s t) (net : Swap)
    (success : swap profile ⟨before ++ [s, t] ++ after⟩ = .ok net) :
    swap profile ⟨before ++ [t, s] ++ after⟩ = .ok net := by
  cases before with
  | nil => exact absurd rfl beforeNonempty
  | cons first rest =>
    have lastOf (legs : List Swap) (nonempty : first :: (rest ++ legs ++ after) ≠ []) :
        (first :: (rest ++ legs ++ after)).getLast nonempty = after.getLast afterNonempty := by
      rw [List.getLast_cons (by simp [afterNonempty]),
        List.getLast_append_of_ne_nil _ afterNonempty]
    have whole (legs : List Swap) :
        walk profile first.inputMint .start (first :: (rest ++ legs ++ after)) =
          walk profile first.inputMint .start (first :: rest) >>= fun reached =>
            walk profile first.inputMint reached legs >>= fun next =>
              walk profile first.inputMint next after := by
      rw [show first :: (rest ++ legs ++ after) = (first :: rest) ++ (legs ++ after) by simp,
        walk_append]
      simp only [walk_append]
    simp only [List.cons_append, swap, Outcome.bind_ok_iff, whole, lastOf] at success ⊢
    obtain ⟨final, ⟨reached, atLegs, next, exchanged, atEnd⟩, same⟩ := success
    obtain ⟨otherNext, otherExchanged, nextAgrees⟩ := walk_exchange independent next exchanged
    obtain ⟨otherFinal, otherAtEnd, finalAgrees⟩ := walk_agrees nextAgrees after final atEnd
    refine ⟨otherFinal, ⟨reached, atLegs, otherNext, otherExchanged, otherAtEnd⟩, ?_⟩
    rw [← same, finalAgrees.netInput, finalAgrees.available]

/-- Every ledger that the walk over a route gets to holds less than 2 ^ 64 of each mint. -/
def BalancesContained (entry : Pubkey) (swaps : List Swap) : Prop :=
  ∀ reached, Reached entry .start swaps reached → reached.BalancesFit

/-- Exchanging two independent neighbouring legs between others gives two errors or the same
net swap, exactly if the build does not check for overflows or in neither order the walk gets
to a balance of 2 ^ 64. -/
theorem legs_commute_iff (profile : Profile) (before after : List Swap) (s t : Swap)
    (beforeNonempty : before ≠ []) (afterNonempty : after ≠ [])
    (independent : Independent (before.head beforeNonempty).inputMint s t) :
    Alike (swap profile ⟨before ++ [s, t] ++ after⟩) (swap profile ⟨before ++ [t, s] ++ after⟩) ↔
      (profile.overflowChecks = true →
        BalancesContained (before.head beforeNonempty).inputMint (before ++ [s, t] ++ after) ∧
        BalancesContained (before.head beforeNonempty).inputMint (before ++ [t, s] ++ after)) := by
  have returns (legs : List Swap) :
      swap profile ⟨before ++ legs ++ after⟩ ≠ .panic ↔ (profile.overflowChecks = true →
        BalancesContained (before.head beforeNonempty).inputMint (before ++ legs ++ after)) := by
    have nonempty : before ++ legs ++ after ≠ [] := by simp [beforeNonempty]
    have sameHead : (before ++ legs ++ after).head nonempty = before.head beforeNonempty := by
      simp [beforeNonempty]
    rw [swap_ne_panic_iff profile _ nonempty, sameHead]
    rfl
  rw [forall_and, ← returns, ← returns]
  constructor
  · rintro (⟨error, otherError, failed, otherFailed⟩ | ⟨net, netted, otherNetted⟩)
    · rw [failed, otherFailed]
      exact ⟨by simp, by simp⟩
    · rw [netted, otherNetted]
      exact ⟨by simp, by simp⟩
  · rintro ⟨first, second⟩
    have forth := swap_exchange profile before after s t beforeNonempty afterNonempty independent
    have back := swap_exchange profile before after t s beforeNonempty afterNonempty
      independent.symm
    cases result : swap profile ⟨before ++ [s, t] ++ after⟩ with
    | panic => exact absurd result first
    | ok net => exact .inr ⟨net, rfl, forth net result⟩
    | err error =>
      cases otherResult : swap profile ⟨before ++ [t, s] ++ after⟩ with
      | panic => exact absurd otherResult second
      | ok net => exact absurd (result.symm.trans (back net otherResult)) (by simp)
      | err otherError => exact .inl ⟨error, otherError, rfl, rfl⟩

/-- A first leg from one mint into another, some legs, and a last leg on from there. -/
def routeAround (legs : List Swap) : List Swap :=
  [⟨1, 1, ⟨0xA⟩, ⟨0xB⟩⟩] ++ legs ++ [⟨1, 1, ⟨0xB⟩, ⟨0xE⟩⟩]

/-- Two more legs out of the entry mint commute. -/
theorem legs_commute_on_split :
    Alike (swap ⟨true⟩ ⟨routeAround [⟨3, 4, ⟨0xA⟩, ⟨0xB⟩⟩, ⟨5, 6, ⟨0xA⟩, ⟨0xB⟩⟩]⟩)
      (swap ⟨true⟩ ⟨routeAround [⟨5, 6, ⟨0xA⟩, ⟨0xB⟩⟩, ⟨3, 4, ⟨0xA⟩, ⟨0xB⟩⟩]⟩) := by
  have commute := legs_commute_iff ⟨true⟩ [⟨1, 1, ⟨0xA⟩, ⟨0xB⟩⟩] [⟨1, 1, ⟨0xB⟩, ⟨0xE⟩⟩]
    ⟨3, 4, ⟨0xA⟩, ⟨0xB⟩⟩ ⟨5, 6, ⟨0xA⟩, ⟨0xB⟩⟩ (by decide) (by decide)
    ⟨by decide, by decide, .inr ⟨rfl, rfl⟩⟩
  refine commute.mpr (fun _ => ⟨reached_fits ⟨0xA⟩ _ ?_, reached_fits ⟨0xA⟩ _ ?_⟩)
  · exact fits_of_total _ (by decide) (by decide)
  · exact fits_of_total _ (by decide) (by decide)

/-- A leg that lacks all of its input. -/
def emptyHandedLeg : Swap := ⟨5, 1, ⟨0xC⟩, ⟨0xD⟩⟩

/-- A leg that pays out as much as a word can count. -/
def floodingLeg : Swap := ⟨1, 18446744073709551615, ⟨0xA⟩, ⟨0xB⟩⟩

/-- In one order the route is refused before the balance overflows, in the other a build that
checks panics. -/
theorem refused_or_panics :
    Independent ⟨0xA⟩ emptyHandedLeg floodingLeg ∧
    swap ⟨true⟩ ⟨routeAround [emptyHandedLeg, floodingLeg]⟩ =
      .err (.imbalancedRoute ⟨0xC⟩ 5) ∧
    swap ⟨true⟩ ⟨routeAround [floodingLeg, emptyHandedLeg]⟩ = .panic ∧
    ¬ Alike (swap ⟨true⟩ ⟨routeAround [emptyHandedLeg, floodingLeg]⟩)
      (swap ⟨true⟩ ⟨routeAround [floodingLeg, emptyHandedLeg]⟩) := by
  have panics : swap ⟨true⟩ ⟨routeAround [floodingLeg, emptyHandedLeg]⟩ = .panic := by decide
  refine ⟨⟨by decide, by decide, .inl (by decide)⟩, by decide, panics, ?_⟩
  rw [panics]
  rintro (⟨_, _, _, impossible⟩ | ⟨_, _, impossible⟩)
  · cases impossible
  · cases impossible

end Graced.SwapGraph
