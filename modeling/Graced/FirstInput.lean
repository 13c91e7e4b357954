import Mathlib.Data.List.Basic

/-!
# The first input that a run is tested for

A machine takes its inputs one after another. Before each of them a test may look at the
state that was reached and at the input. What the test says first, and what it says nowhere,
is read off the inputs that come before.
-/

namespace Graced.FirstInput

universe u v
variable {S : Type u} {I : Type v} (step : S → I → S) (test : S → I → Bool)

/-- The first input at which the test succeeds, with the state reached before it. -/
def firstWhere : S → List I → Option (S × I)
  | _, [] => none
  | state, input :: rest =>
    if test state input then some (state, input) else firstWhere (step state input) rest

@[simp] theorem firstWhere_nil (state : S) : firstWhere step test state [] = none := rfl

/-- An input at which the test succeeds is found at once. -/
theorem firstWhere_here (state : S) (input : I) (rest : List I)
    (succeeds : test state input = true) :
    firstWhere step test state (input :: rest) = some (state, input) := if_pos succeeds

/-- An input at which the test fails is taken. -/
theorem firstWhere_later (state : S) (input : I) (rest : List I)
    (fails : test state input = false) :
    firstWhere step test state (input :: rest) =
      firstWhere step test (step state input) rest := by
  simp [firstWhere, fails]

/-- Behind inputs among which nothing is found, the search goes on where they lead to. -/
theorem firstWhere_append (state : S) (before after : List I) :
    firstWhere step test state (before ++ after) =
      (firstWhere step test state before).or
        (firstWhere step test (before.foldl step state) after) := by
  induction before generalizing state with
  | nil => simp
  | cons head tail inductionHypothesis =>
    cases verdict : test state head with
    | true =>
      rw [List.cons_append, firstWhere_here step test state head _ verdict,
        firstWhere_here step test state head _ verdict]
      rfl
    | false =>
      rw [List.cons_append, firstWhere_later step test state head _ verdict,
        firstWhere_later step test state head _ verdict, inductionHypothesis]
      rfl

/-- Nothing is found exactly if the test fails before every input. -/
theorem firstWhere_eq_none_iff (state : S) (inputs : List I) :
    firstWhere step test state inputs = none ↔
      ∀ before input after, inputs = before ++ input :: after →
        test (before.foldl step state) input = false := by
  induction inputs generalizing state with
  | nil => simp
  | cons head tail inductionHypothesis =>
    cases verdict : test state head with
    | true =>
      rw [firstWhere_here step test state head tail verdict]
      refine iff_of_false (by simp) ?_
      intro fails
      have atHead : test state head = false := fails [] head tail rfl
      simp [verdict] at atHead
    | false =>
      rw [firstWhere_later step test state head tail verdict, inductionHypothesis]
      constructor
      · intro fails before input after split
        cases before with
        | nil =>
          obtain ⟨rfl, rfl⟩ := List.cons.inj split
          exact verdict
        | cons first others =>
          obtain ⟨rfl, rfl⟩ := List.cons.inj split
          exact fails others input after rfl
      · intro fails before input after split
        exact fails (head :: before) input after (by rw [split]; rfl)

/-- An input is found exactly if the test succeeds there and nowhere before. -/
theorem firstWhere_eq_some_iff (state found : S) (inputs : List I) (input : I) :
    firstWhere step test state inputs = some (found, input) ↔
      ∃ before after, inputs = before ++ input :: after ∧ found = before.foldl step state ∧
        test found input = true ∧ firstWhere step test state before = none := by
  induction inputs generalizing state with
  | nil => simp
  | cons head tail inductionHypothesis =>
    cases verdict : test state head with
    | true =>
      rw [firstWhere_here step test state head tail verdict]
      constructor
      · intro same
        obtain ⟨rfl, rfl⟩ := Prod.mk.inj (Option.some.inj same)
        exact ⟨[], tail, rfl, rfl, verdict, rfl⟩
      · rintro ⟨before, after, split, reached, _, nothing⟩
        cases before with
        | nil =>
          obtain ⟨rfl, rfl⟩ := List.cons.inj split
          rw [reached]
          rfl
        | cons first others =>
          obtain ⟨rfl, rfl⟩ := List.cons.inj split
          simp [firstWhere_here step test state head others verdict] at nothing
    | false =>
      rw [firstWhere_later step test state head tail verdict, inductionHypothesis]
      constructor
      · rintro ⟨before, after, rfl, reached, succeeds, nothing⟩
        refine ⟨head :: before, after, rfl, reached, succeeds, ?_⟩
        rw [firstWhere_later step test state head before verdict, nothing]
      · rintro ⟨before, after, split, reached, succeeds, nothing⟩
        cases before with
        | nil =>
          obtain ⟨rfl, rfl⟩ := List.cons.inj split
          rw [reached] at succeeds
          exact absurd succeeds (by simp [verdict])
        | cons first others =>
          obtain ⟨rfl, rfl⟩ := List.cons.inj split
          rw [firstWhere_later step test state head others verdict] at nothing
          exact ⟨others, after, rfl, reached, succeeds, nothing⟩

/-- A state that the machine gets to without the test having succeeded. -/
def Reaches (state : S) (inputs : List I) (reached : S) : Prop :=
  ∃ before after, inputs = before ++ after ∧ firstWhere step test state before = none ∧
    reached = before.foldl step state

/-- Without inputs the machine stays where it is. -/
theorem reaches_nil (state reached : S) :
    Reaches step test state [] reached ↔ reached = state := by
  constructor
  · rintro ⟨before, after, split, _, same⟩
    obtain ⟨rfl, _⟩ := List.append_eq_nil_iff.mp split.symm
    exact same
  · rintro rfl
    exact ⟨[], [], rfl, rfl, rfl⟩

/-- The machine stays, or takes its first input and goes on from there. -/
theorem reaches_cons (state reached : S) (input : I) (rest : List I) :
    Reaches step test state (input :: rest) reached ↔
      reached = state ∨
        test state input = false ∧ Reaches step test (step state input) rest reached := by
  constructor
  · rintro ⟨before, after, split, nothing, same⟩
    cases before with
    | nil => exact .inl same
    | cons first others =>
      obtain ⟨rfl, rfl⟩ := List.cons.inj split
      cases verdict : test state input with
      | true => simp [firstWhere_here step test state input others verdict] at nothing
      | false =>
        rw [firstWhere_later step test state input others verdict] at nothing
        exact .inr ⟨rfl, others, after, rfl, nothing, same⟩
  · rintro (rfl | ⟨fails, before, after, rfl, nothing, same⟩)
    · exact ⟨[], input :: rest, rfl, rfl, rfl⟩
    · exact ⟨input :: before, after, rfl,
        by rw [firstWhere_later step test state input before fails, nothing], same⟩

end Graced.FirstInput
