import Graced.RawDeltas

/-!
# Merging lamports

The merge gives the fee back and then takes every change in wrapped lamports out of the map
and adds it again as one in lamports. The two share one mint, so that a change comes back
under the key from which it was taken: nothing is merged, and all that is new are the
decimals.
-/

namespace Graced.BalanceDiff

/-- The keys of lamports. -/
def isSol (key : DeltaKey) : Bool := key.2 = solMint

/-- A change that was taken out, as it comes back. -/
def refreshed (key : DeltaKey) (taken : BalanceDelta) : BalanceDelta :=
  ⟨key.1, solMint, taken.delta, 9⟩

/-- What the merge makes of the change under a key. -/
def settled (key : DeltaKey) (found : Option BalanceDelta) : Option BalanceDelta :=
  if isSol key then found.map (refreshed key) else found

/-- Settling keeps the change itself. -/
theorem settled_delta (key : DeltaKey) (found : Option BalanceDelta) :
    (settled key found).map (fun d => d.delta) = found.map (fun d => d.delta) := by
  unfold settled
  split
  · cases found <;> rfl
  · rfl

/-- A change in lamports comes back under its own key. -/
theorem addDelta_refreshed {ε : Type} (profile : Profile) (deltas : Deltas) (key : DeltaKey)
    (sol : isSol key) (taken : BalanceDelta) :
    (addDelta profile (deltas.remove key) ⟨key.1, solMint, taken.delta, 9⟩ : Outcome ε Deltas) =
      .ok ((deltas.remove key).insert key (refreshed key taken)) := by
  obtain ⟨owner, mint⟩ := key
  obtain rfl : mint = solMint := by simpa [isSol] using sol
  simp [addDelta, refreshed]

/-- Taking changes in lamports out and adding them again always succeeds. It refreshes the
listed ones, and keeps every total. By induction on the keys. -/
theorem foldSol_ok {ε : Type} (profile : Profile) (keys : List DeltaKey) (deltas : Deltas)
    (sol : ∀ key ∈ keys, isSol key) :
    ∃ merged, (foldSol profile keys deltas : Outcome ε Deltas) = .ok merged ∧
      (∀ key, merged.get key =
        if key ∈ keys then (deltas.get key).map (refreshed key) else deltas.get key) ∧
      ∀ counted, totalOf counted merged = totalOf counted deltas := by
  induction keys generalizing deltas with
  | nil => exact ⟨deltas, rfl, by simp, fun _ => rfl⟩
  | cons key rest inductionHypothesis =>
    obtain ⟨solKey, solRest⟩ := List.forall_mem_cons.mp sol
    cases found : deltas.get key with
    | none =>
      obtain ⟨merged, folded, gets, totals⟩ := inductionHypothesis deltas solRest
      refine ⟨merged, ?_, ?_, totals⟩
      · simp only [foldSol, found]
        exact folded
      · intro other
        rw [gets]
        by_cases same : other = key
        · simp [same, found]
        · simp [same]
    | some taken =>
      obtain ⟨merged, folded, gets, totals⟩ :=
        inductionHypothesis ((deltas.remove key).insert key (refreshed key taken)) solRest
      refine ⟨merged, ?_, ?_, ?_⟩
      · simp only [foldSol, found, addDelta_refreshed profile deltas key solKey taken,
          Outcome.ok_bind]
        exact folded
      · intro other
        rw [gets, AssocMap.get_insert, AssocMap.get_remove]
        by_cases same : key = other
        · subst same
          simp [found, refreshed]
        · have different : other ≠ key := fun equal => same equal.symm
          simp [same, different]
      · intro counted
        rw [totals]
        unfold totalOf
        rw [AssocMap.total_insert, AssocMap.total_remove, AssocMap.get_remove, if_pos rfl, found]
        simp [refreshed]

/-- The fee is given back exactly when there is room, to a payer whose lamports changed. -/
theorem addFee_exact {ε : Type} (profile : Profile) (feePayer : Pubkey) (feeLamports : UInt64)
    (deltas : Deltas) (room : (deltaOf deltas (feePayer, solMint)).natAbs + 2 ^ 64 < 2 ^ 127) :
    ∃ credited, (addFee profile feePayer feeLamports deltas : Outcome ε Deltas) = .ok credited ∧
      (∀ key, key ≠ (feePayer, solMint) → credited.get key = deltas.get key) ∧
      ∀ counted, totalOf counted credited = totalOf counted deltas +
        if (deltas.get (feePayer, solMint)).isSome ∧ counted (feePayer, solMint) then
          (feeLamports.toNat : Int) else 0 := by
  unfold addFee
  cases found : deltas.get (feePayer, solMint) with
  | none => exact ⟨deltas, rfl, fun _ _ => rfl, by simp⟩
  | some known =>
    have fee := feeLamports.toNat_lt
    have stored : deltaOf deltas (feePayer, solMint) = known.delta := by simp [deltaOf, found]
    have fits : InI128 (known.delta + feeLamports.toNat) := by
      unfold InI128
      omega
    refine ⟨deltas.insert (feePayer, solMint)
      { known with delta := known.delta + feeLamports.toNat }, ?_, ?_, ?_⟩
    · simp [Profile.add128, i128_fits profile _ fits]
    · intro key other
      rw [AssocMap.get_insert, if_neg fun same => other same.symm]
    · intro counted
      rw [totalOf_insert, stored]
      by_cases inside : counted (feePayer, solMint)
      · simp [inside]
      · simp [inside]

/-- The keys that the merge visits are those of the lamports in the map. -/
theorem mem_solKeys (orders : DiffOrders) (deltas : Deltas) (key : DeltaKey) :
    key ∈ ((orders.solKeys.arrange deltas.entries).map Prod.fst).filter
        (fun key => key.2 = solMint) ↔ (deltas.get key).isSome ∧ isSol key := by
  rw [List.mem_filter, ((orders.solKeys.complete deltas.entries).map Prod.fst).mem_iff,
    AssocMap.mem_keys]
  rfl

/-- The merge succeeds with the fee. It settles every change, and keeps every total but for
the fee. -/
theorem mergeSolAndWsol_ok {ε : Type} (profile : Profile) (orders : DiffOrders)
    (feePayer : Pubkey) (feeLamports : UInt64) (deltas credited : Deltas)
    (fee : (addFee profile feePayer feeLamports deltas : Outcome ε Deltas) = .ok credited) :
    ∃ merged, (mergeSolAndWsol profile orders feePayer feeLamports deltas : Outcome ε Deltas) =
        .ok merged ∧
      (∀ key, merged.get key = settled key (credited.get key)) ∧
      ∀ counted, totalOf counted merged = totalOf counted credited := by
  obtain ⟨merged, folded, gets, totals⟩ := foldSol_ok profile
    (((orders.solKeys.arrange credited.entries).map Prod.fst).filter
      (fun key => key.2 = solMint)) credited
    (fun key member => ((mem_solKeys orders credited key).mp member).2)
  refine ⟨merged, ?_, ?_, totals⟩
  · rw [mergeSolAndWsol, fee]
    exact folded
  · intro key
    rw [gets]
    simp only [mem_solKeys, settled]
    by_cases sol : isSol key
    · cases found : credited.get key <;> simp [sol]
    · simp [sol]

end Graced.BalanceDiff
