import Graced.Routes

/-!
# The two passes, place by place

The forward pass holds a mint before each leg, namely what the leg before it pays out if the
direction of that leg is known by then. The backward pass asks each leg for a mint, namely
what the leg after it takes in if the direction of that leg is known in the end. Each leg is
oriented by these mints alone.
-/

namespace Graced.Routes

/-! ## One leg of a pass -/

/-- A pass leaves a known leg alone and hands on the side its neighbour asks for. -/
@[simp] theorem orient_known (asInput : Bool) (held : Option Pubkey) (leg : Swap) :
    orient asInput held (.known leg) =
      (.known leg, some (if asInput then leg.outputMint else leg.inputMint)) := rfl

@[simp] theorem orient_candidates_none (asInput : Bool) (a b : MintAmount) :
    orient asInput none (.candidates a b) = (.candidates a b, none) := rfl

/-- A pass hands on a mint exactly from a leg that it knows. -/
theorem orient_handed (asInput : Bool) (held : Option Pubkey) (shape : LegShape)
    (mint : Pubkey) :
    (orient asInput held shape).2 = some mint ↔
      ∃ swap, (orient asInput held shape).1 = .known swap ∧
        (if asInput then swap.outputMint else swap.inputMint) = mint := by
  cases shape with
  | known swap => simp [orient]
  | candidates a b =>
    cases found : held.bind (fun mint => resolve a b mint asInput) with
    | none => simp [orient, found]
    | some swap => simp [orient, found]

/-! ## What a pass holds -/

/-- The mint that the forward pass holds before a place. -/
def heldBefore : Option Pubkey → List LegShape → Nat → Option Pubkey
  | held, _, 0 => held
  | _, [], _ + 1 => none
  | held, shape :: rest, index + 1 => heldBefore (orient true held shape).2 rest index

/-- What is held before the next place is what this place hands on. -/
theorem heldBefore_succ (held : Option Pubkey) (shapes : List LegShape) (index : Nat)
    (shape : LegShape) (here : shapes[index]? = some shape) :
    heldBefore held shapes (index + 1) = (orient true (heldBefore held shapes index) shape).2 := by
  induction shapes generalizing held index with
  | nil => simp at here
  | cons first rest inductionHypothesis =>
    cases index with
    | zero =>
      obtain rfl : first = shape := by simpa using here
      cases rest <;> rfl
    | succ index => exact inductionHypothesis _ index (by simpa using here)

/-- The forward pass orients every leg by what is held before it. -/
theorem forward_getElem? (held : Option Pubkey) (shapes : List LegShape) (index : Nat) :
    (forward held shapes)[index]? =
      shapes[index]?.map (fun shape => (orient true (heldBefore held shapes index) shape).1) := by
  induction shapes generalizing held index with
  | nil => simp [forward]
  | cons first rest inductionHypothesis =>
    cases index with
    | zero => simp [forward, heldBefore]
    | succ index => simpa [forward, heldBefore] using inductionHypothesis _ index

@[simp] theorem forward_length (held : Option Pubkey) (shapes : List LegShape) :
    (forward held shapes).length = shapes.length := by
  induction shapes generalizing held with
  | nil => rfl
  | cons first rest inductionHypothesis => simp [forward, inductionHypothesis]

@[simp] theorem backward_length (shapes : List LegShape) :
    (backward shapes).1.length = shapes.length := by
  induction shapes with
  | nil => rfl
  | cons first rest inductionHypothesis => simp [backward, inductionHypothesis]

/-- The mint that the backward pass asks for before a place. -/
def askedAt (shapes : List LegShape) (index : Nat) : Option Pubkey :=
  (backward (shapes.drop index)).2

/-- What is asked for before a place is what the place hands back. -/
theorem askedAt_eq (shapes : List LegShape) (index : Nat) (shape : LegShape)
    (here : shapes[index]? = some shape) :
    askedAt shapes index = (orient false (askedAt shapes (index + 1)) shape).2 := by
  obtain ⟨bound, rfl⟩ := List.getElem?_eq_some_iff.mp here
  rw [askedAt, List.drop_eq_getElem_cons bound]
  rfl

/-- After the last place nothing is asked for. -/
theorem askedAt_end (shapes : List LegShape) (index : Nat) (beyond : shapes[index]? = none) :
    askedAt shapes index = none := by
  rw [askedAt, List.drop_eq_nil_of_le (List.getElem?_eq_none_iff.mp beyond)]
  rfl

/-- The backward pass orients every leg by what is asked for after it. -/
theorem backward_getElem? (shapes : List LegShape) (index : Nat) :
    (backward shapes).1[index]? =
      shapes[index]?.map (fun shape => (orient false (askedAt shapes (index + 1)) shape).1) := by
  induction shapes generalizing index with
  | nil => simp [backward]
  | cons first rest inductionHypothesis =>
    cases index with
    | zero => simp [backward, askedAt]
    | succ index => simpa [backward, askedAt] using inductionHypothesis index

/-! ## Both passes -/

/-- What both passes together make of the legs. -/
def passes (shapes : List LegShape) : List LegShape := (backward (forward none shapes)).1

/-- What the forward pass knows stays. -/
theorem passes_of_forward (shapes : List LegShape) (index : Nat) (swap : Swap)
    (known : (forward none shapes)[index]? = some (.known swap)) :
    (passes shapes)[index]? = some (.known swap) := by
  rw [passes, backward_getElem?, known]
  simp

/-- The forward pass holds a mint exactly if the leg before is known by then and pays it
out. -/
theorem heldBefore_iff (shapes : List LegShape) (index : Nat) (mint : Pubkey)
    (bound : index ≤ shapes.length) :
    heldBefore none shapes index = some mint ↔
      ∃ place before, index = place + 1 ∧ (forward none shapes)[place]? = some (.known before) ∧
        before.outputMint = mint := by
  cases index with
  | zero => simp [heldBefore]
  | succ place =>
    have here : shapes[place]? = some shapes[place] := List.getElem?_eq_getElem (by omega)
    rw [heldBefore_succ none shapes place _ here, orient_handed]
    simp [forward_getElem?, here]

/-- The backward pass asks for a mint exactly if the leg after is known in the end and takes it
in. -/
theorem askedAt_iff (shapes : List LegShape) (index : Nat) (mint : Pubkey) :
    askedAt (forward none shapes) (index + 1) = some mint ↔
      ∃ after, (passes shapes)[index + 1]? = some (.known after) ∧ after.inputMint = mint := by
  cases atAfter : (forward none shapes)[index + 1]? with
  | none => simp [askedAt_end _ _ atAfter, passes, backward_getElem?, atAfter]
  | some shape =>
    rw [askedAt_eq _ _ shape atAfter, orient_handed]
    simp [passes, backward_getElem?, atAfter]

/-! ## The swaps that are known -/

/-- Swaps are found only when every shape is known. -/
theorem knownSwaps_ok (final : List LegShape) (swaps : List Swap)
    (found : knownSwaps final = .ok swaps) : final = swaps.map LegShape.known := by
  unfold knownSwaps at found
  generalize 0 = offset at found
  induction final generalizing swaps offset with
  | nil =>
    obtain rfl : swaps = [] := by simpa [Outcome.collect] using found.symm
    rfl
  | cons shape rest inductionHypothesis =>
    rw [List.zipIdx_cons, Outcome.collect, Outcome.bind_ok_iff] at found
    obtain ⟨swap, atHead, others⟩ := found
    obtain ⟨later, inRest, same⟩ := (Outcome.bind_ok_iff _ _ _).mp others
    obtain rfl : swap :: later = swaps := Outcome.ok.inj same
    rw [List.map_cons, ← inductionHypothesis later (offset + 1) inRest]
    cases shape with
    | candidates a b => simp at atHead
    | known executed => rw [Outcome.ok.inj atHead]

/-- Shapes that are all known give their swaps. -/
theorem knownSwaps_known (legs : List Swap) : knownSwaps (legs.map .known) = .ok legs := by
  unfold knownSwaps
  generalize 0 = offset
  induction legs generalizing offset with
  | nil => rfl
  | cons leg rest inductionHypothesis =>
    rw [List.map_cons, List.zipIdx_cons]
    simp only [Outcome.collect, Outcome.ok_bind, inductionHypothesis]
    rfl

/-- Swaps are found, or a leg is reported. -/
theorem knownSwaps_ne_panic (shapes : List LegShape) : knownSwaps shapes ≠ .panic := by
  intro panics
  obtain ⟨⟨shape, index⟩, _, atLeg⟩ := Outcome.collect_panic _ _ panics
  cases shape <;> cases atLeg

end Graced.Routes
