import Graced.BalanceDiff
import Graced.MapTotals

/-!
# What a pass over accounts adds up

A pass turns each account into at most one change and adds the changes to a map, one after
another. As long as the magnitudes together stay below the range of the amounts, no addition
overflows in either build, and the total under any choice of keys grows by exactly the
changes under these keys.
-/

namespace Graced.BalanceDiff

/-- The key under which a change is stored. -/
def keyOf (move : BalanceDelta) : DeltaKey := (move.owner, move.mint)

/-- The change under a key; what is absent did not change. -/
def deltaOf (deltas : Deltas) (key : DeltaKey) : Int :=
  AssocMap.weigh (fun known => known.delta) (deltas.get key)

/-- The changes under all keys that are counted. -/
def totalOf (counted : DeltaKey → Bool) (deltas : Deltas) : Int :=
  AssocMap.total (fun key known => if counted key then known.delta else 0) deltas

/-- Every change is stored under its own owner and mint, and is an `i128`. -/
def Proper (deltas : Deltas) : Prop :=
  ∀ key known, deltas.get key = some known → keyOf known = key ∧ InI128 known.delta

/-- No change under a counted key exceeds a magnitude. -/
def Within (counted : DeltaKey → Bool) (bound : Nat) (deltas : Deltas) : Prop :=
  ∀ key, counted key = true → (deltaOf deltas key).natAbs ≤ bound

/-- The contributions of accounts that were all evaluated. -/
def contributions {A : Type} (move : A → Outcome TxParseError (Option BalanceDelta))
    (accounts : List A) : List BalanceDelta :=
  accounts.filterMap (fun account => (move account).toOption.join)

/-- Add changes one after another. -/
def addMoves {ε : Type} (profile : Profile) : List BalanceDelta → Deltas → Outcome ε Deltas
  | [], deltas => .ok deltas
  | move :: rest, deltas => do
    let deltas ← addDelta profile deltas move
    addMoves profile rest deltas

/-- The changes under counted keys together. -/
def moved (counted : DeltaKey → Bool) (moves : List BalanceDelta) : Int :=
  (moves.map (fun move => if counted (keyOf move) then move.delta else 0)).sum

/-- The change under one key is the total of that key. -/
theorem totalOf_key (deltas : Deltas) (key : DeltaKey) :
    totalOf (fun stored => stored = key) deltas = deltaOf deltas key := by
  unfold totalOf deltaOf
  simpa using AssocMap.total_single (fun known : BalanceDelta => known.delta) deltas key

/-- A pass that succeeds evaluated every account and added what they contribute. -/
theorem addAll_ok {A : Type} (profile : Profile)
    (move : A → Outcome TxParseError (Option BalanceDelta)) (accounts : List A)
    (deltas result : Deltas) (added : addAll profile move accounts deltas = .ok result) :
    (∀ account ∈ accounts, ∃ contribution, move account = .ok contribution) ∧
      (addMoves profile (contributions move accounts) deltas : Outcome TxParseError Deltas) =
        .ok result := by
  induction accounts generalizing deltas with
  | nil => exact ⟨by simp, by simpa [addAll, addMoves, contributions] using added⟩
  | cons account rest inductionHypothesis =>
    simp only [addAll, Outcome.bind_ok_iff] at added
    obtain ⟨contribution, evaluated, continued⟩ := added
    cases contribution with
    | none =>
      obtain ⟨others, accumulated⟩ := inductionHypothesis deltas continued
      refine ⟨List.forall_mem_cons.mpr ⟨⟨_, evaluated⟩, others⟩, ?_⟩
      simpa [contributions, evaluated] using accumulated
    | some first =>
      obtain ⟨next, addedFirst, addedRest⟩ := (Outcome.bind_ok_iff _ _ _).mp continued
      obtain ⟨others, accumulated⟩ := inductionHypothesis next addedRest
      refine ⟨List.forall_mem_cons.mpr ⟨⟨_, evaluated⟩, others⟩, ?_⟩
      have step : contributions move (account :: rest) = first :: contributions move rest := by
        simp [contributions, evaluated]
      rw [step, addMoves, addedFirst]
      exact accumulated

/-- An addition replaces the change under one key. -/
theorem addDelta_ok {ε : Type} (profile : Profile) (deltas result : Deltas) (move : BalanceDelta)
    (added : (addDelta profile deltas move : Outcome ε Deltas) = .ok result) :
    ∃ value, result = deltas.insert (keyOf move) value ∧
      (Proper deltas → InI128 move.delta → keyOf value = keyOf move ∧ InI128 value.delta) := by
  unfold addDelta at added
  cases found : deltas.get (move.owner, move.mint) with
  | none =>
    rw [found] at added
    exact ⟨move, (Outcome.ok.inj added).symm, fun _ fits => ⟨rfl, fits⟩⟩
  | some known =>
    rw [found] at added
    obtain ⟨sum, summed, stored⟩ := (Outcome.bind_ok_iff _ _ _).mp added
    exact ⟨{ known with delta := sum }, (Outcome.ok.inj stored).symm,
      fun proper _ => ⟨(proper _ known found).1, i128_range profile _ sum summed⟩⟩

/-- An addition within the range is exact. -/
theorem addDelta_exact {ε : Type} (profile : Profile) (deltas result : Deltas)
    (move : BalanceDelta)
    (added : (addDelta profile deltas move : Outcome ε Deltas) = .ok result)
    (fits : InI128 (deltaOf deltas (keyOf move) + move.delta)) :
    ∃ value, result = deltas.insert (keyOf move) value ∧
      value.delta = deltaOf deltas (keyOf move) + move.delta := by
  unfold addDelta at added
  unfold deltaOf at fits ⊢
  unfold keyOf at fits ⊢
  cases found : deltas.get (move.owner, move.mint) with
  | none =>
    rw [found] at added
    exact ⟨move, (Outcome.ok.inj added).symm, by simp⟩
  | some known =>
    rw [found, AssocMap.weigh_some] at fits
    simp only [found, Profile.add128, i128_fits profile _ fits, Outcome.ok_bind] at added
    exact ⟨_, (Outcome.ok.inj added).symm, rfl⟩

/-- An insertion moves the total of counted keys by as much as the change under its key. -/
theorem totalOf_insert (counted : DeltaKey → Bool) (deltas : Deltas) (key : DeltaKey)
    (value : BalanceDelta) :
    totalOf counted (deltas.insert key value) =
      totalOf counted deltas + if counted key then value.delta - deltaOf deltas key else 0 := by
  unfold totalOf deltaOf
  rw [AssocMap.total_insert]
  by_cases inside : counted key
  · cases deltas.get key with
    | none => simp [inside]
    | some known => simp [inside]; omega
  · cases deltas.get key with
    | none => simp [inside]
    | some known => simp [inside]

/-- An insertion leaves the changes under the other keys alone. -/
theorem deltaOf_insert (deltas : Deltas) (key other : DeltaKey) (value : BalanceDelta) :
    deltaOf (deltas.insert key value) other =
      if key = other then value.delta else deltaOf deltas other := by
  unfold deltaOf
  rw [AssocMap.get_insert]
  split <;> simp

/-- Additions under counted keys for which there is room are exact in either build. By
induction on the changes; the room used up bounds what the map holds under these keys. -/
theorem addMoves_exact {ε : Type} (profile : Profile) (counted : DeltaKey → Bool)
    (moves : List BalanceDelta) (deltas result : Deltas)
    (added : (addMoves profile moves deltas : Outcome ε Deltas) = .ok result) (bound used : Nat)
    (each : ∀ move ∈ moves, counted (keyOf move) = true → move.delta.natAbs ≤ bound)
    (within : Within counted used deltas) (room : used + moves.length * bound < 2 ^ 127) :
    Within counted (used + moves.length * bound) result ∧
      totalOf counted result = totalOf counted deltas + moved counted moves := by
  induction moves generalizing deltas used with
  | nil =>
    obtain rfl := Outcome.ok.inj added
    exact ⟨by simpa using within, by simp [moved]⟩
  | cons move rest inductionHypothesis =>
    obtain ⟨next, first, others⟩ := (Outcome.bind_ok_iff _ _ _).mp added
    obtain ⟨small, smallRest⟩ := List.forall_mem_cons.mp each
    rw [List.length_cons, Nat.add_mul, Nat.one_mul] at room ⊢
    have step : Within counted (used + bound) next ∧ totalOf counted next =
        totalOf counted deltas + if counted (keyOf move) then move.delta else 0 := by
      by_cases inside : counted (keyOf move) = true
      · have before := within (keyOf move) inside
        have size := small inside
        obtain ⟨value, rfl, exact⟩ := addDelta_exact profile deltas next move first (by
          unfold InI128
          omega)
        constructor
        · intro key countedKey
          rw [deltaOf_insert]
          have atKey := within key countedKey
          split <;> omega
        · rw [totalOf_insert, exact, if_pos inside, if_pos inside]
          omega
      · obtain ⟨value, rfl, _⟩ := addDelta_ok profile deltas next move first
        constructor
        · intro key countedKey
          have different : keyOf move ≠ key := fun same => inside (same ▸ countedKey)
          rw [deltaOf_insert, if_neg different]
          have atKey := within key countedKey
          omega
        · rw [totalOf_insert, if_neg inside, if_neg inside]
    obtain ⟨bounded, total⟩ := inductionHypothesis next others (used + bound) smallRest step.1
      (by omega)
    constructor
    · intro key countedKey
      have atKey := bounded key countedKey
      omega
    · rw [total, step.2, moved, moved, List.map_cons, List.sum_cons]
      omega

/-- Additions under other keys leave the change under a key alone. -/
theorem addMoves_get_other {ε : Type} (profile : Profile) (moves : List BalanceDelta)
    (deltas result : Deltas)
    (added : (addMoves profile moves deltas : Outcome ε Deltas) = .ok result) (key : DeltaKey)
    (untouched : ∀ move ∈ moves, keyOf move ≠ key) : result.get key = deltas.get key := by
  induction moves generalizing deltas with
  | nil => exact congrArg (fun map => map.get key) (Outcome.ok.inj added).symm
  | cons move rest inductionHypothesis =>
    obtain ⟨next, first, others⟩ := (Outcome.bind_ok_iff _ _ _).mp added
    obtain ⟨value, rfl, _⟩ := addDelta_ok profile deltas next move first
    obtain ⟨different, differentRest⟩ := List.forall_mem_cons.mp untouched
    rw [inductionHypothesis _ others differentRest, AssocMap.get_insert, if_neg different]

/-- After additions the map has the keys that it had and those of the changes. -/
theorem addMoves_present {ε : Type} (profile : Profile) (moves : List BalanceDelta)
    (deltas result : Deltas)
    (added : (addMoves profile moves deltas : Outcome ε Deltas) = .ok result) (key : DeltaKey) :
    (result.get key).isSome ↔ (deltas.get key).isSome ∨ ∃ move ∈ moves, keyOf move = key := by
  induction moves generalizing deltas with
  | nil =>
    obtain rfl := Outcome.ok.inj added
    simp
  | cons move rest inductionHypothesis =>
    obtain ⟨next, first, others⟩ := (Outcome.bind_ok_iff _ _ _).mp added
    obtain ⟨value, rfl, _⟩ := addDelta_ok profile deltas next move first
    rw [inductionHypothesis _ others, AssocMap.get_insert, List.exists_mem_cons_iff]
    by_cases same : keyOf move = key <;> simp [same]

/-- An insertion of a proper change keeps the map proper. -/
theorem proper_insert (deltas : Deltas) (proper : Proper deltas) (key : DeltaKey)
    (value : BalanceDelta) (own : keyOf value = key) (fits : InI128 value.delta) :
    Proper (deltas.insert key value) := by
  intro other known found
  rw [AssocMap.get_insert] at found
  split at found
  · rename_i same
    obtain rfl := Option.some.inj found
    exact ⟨own.trans same, fits⟩
  · exact proper other known found

/-- Additions keep the map proper. -/
theorem addMoves_proper {ε : Type} (profile : Profile) (moves : List BalanceDelta)
    (deltas result : Deltas)
    (added : (addMoves profile moves deltas : Outcome ε Deltas) = .ok result)
    (fits : ∀ move ∈ moves, InI128 move.delta) (proper : Proper deltas) : Proper result := by
  induction moves generalizing deltas with
  | nil => exact Outcome.ok.inj added ▸ proper
  | cons move rest inductionHypothesis =>
    obtain ⟨next, first, others⟩ := (Outcome.bind_ok_iff _ _ _).mp added
    obtain ⟨value, rfl, stored⟩ := addDelta_ok profile deltas next move first
    obtain ⟨fitsMove, fitsRest⟩ := List.forall_mem_cons.mp fits
    obtain ⟨own, fitsValue⟩ := stored proper fitsMove
    exact inductionHypothesis _ others fitsRest
      (proper_insert deltas proper (keyOf move) value own fitsValue)

/-- What accounts contribute under counted keys is what each of them does. -/
theorem moved_contributions {A : Type} (move : A → Outcome TxParseError (Option BalanceDelta))
    (accounts : List A) (counted : DeltaKey → Bool) :
    moved counted (contributions move accounts) =
      (accounts.map (fun account =>
        AssocMap.weigh (fun d => if counted (keyOf d) then d.delta else 0)
          (move account).toOption.join)).sum := by
  induction accounts with
  | nil => rfl
  | cons account rest inductionHypothesis =>
    unfold moved contributions at inductionHypothesis ⊢
    cases contribution : (move account).toOption.join with
    | none => simpa [contribution] using inductionHypothesis
    | some d => simp [contribution, inductionHypothesis]

/-- A pass over accounts is exact under counted keys, as long as there is room for all that
is contributed to them. -/
theorem addAll_totals {A : Type} (profile : Profile) (counted : DeltaKey → Bool)
    (move : A → Outcome TxParseError (Option BalanceDelta)) (accounts : List A)
    (deltas result : Deltas) (added : addAll profile move accounts deltas = .ok result)
    (bound used : Nat)
    (each : ∀ account ∈ accounts, ∀ d, move account = .ok (some d) →
      counted (keyOf d) = true → d.delta.natAbs ≤ bound)
    (within : Within counted used deltas) (room : used + accounts.length * bound < 2 ^ 127) :
    Within counted (used + accounts.length * bound) result ∧
      totalOf counted result = totalOf counted deltas +
        (accounts.map (fun account =>
          AssocMap.weigh (fun d => if counted (keyOf d) then d.delta else 0)
            (move account).toOption.join)).sum := by
  obtain ⟨_, accumulated⟩ := addAll_ok profile move accounts deltas result added
  have fewer : (contributions move accounts).length * bound ≤ accounts.length * bound :=
    Nat.mul_le_mul_right bound (List.length_filterMap_le _ accounts)
  obtain ⟨bounded, total⟩ := addMoves_exact profile counted (contributions move accounts) deltas
    result accumulated bound used (by
      intro d member
      obtain ⟨account, listed, contribution⟩ := List.mem_filterMap.mp member
      rw [Option.join_eq_some_iff, Outcome.toOption_eq_some] at contribution
      exact each account listed d contribution)
    within (by omega)
  constructor
  · intro key countedKey
    have atKey := bounded key countedKey
    omega
  · rw [total, moved_contributions]

end Graced.BalanceDiff
