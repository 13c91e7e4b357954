import Mathlib.Order.Lattice

/-!
# The last element with the greatest key

A scan over a list that replaces its choice by every later element whose key is not
smaller ends with the last among the elements with the greatest key. The list may hold
elements that are no candidates; these are skipped. What is chosen is determined by its
place: candidates before it have keys that are no greater, candidates after it have
smaller ones.
-/

namespace Graced.LastGreatest

universe u v
variable {α : Type u} {κ : Type v} [LinearOrder κ] {key : α → κ} {candidate : α → Prop}

/-- The last element of a list with the greatest key. -/
def choose (key : α → κ) : List α → Option α
  | [] => none
  | item :: rest =>
    match choose key rest with
    | none => some item
    | some best => if key best < key item then some item else some best

/-- Among the candidates in a list, this one is the last with the greatest key. -/
def Chosen (key : α → κ) (candidate : α → Prop) (items : List α) (best : α) : Prop :=
  ∃ before after, items = before ++ best :: after ∧ candidate best ∧
    (∀ item ∈ before, candidate item → key item ≤ key best) ∧
    ∀ item ∈ after, candidate item → key item < key best

namespace Chosen

variable {items : List α} {best : α}

theorem mem (chosen : Chosen key candidate items best) : best ∈ items := by
  obtain ⟨before, after, rfl, _, _, _⟩ := chosen
  simp

theorem isCandidate (chosen : Chosen key candidate items best) : candidate best := by
  obtain ⟨_, _, _, isCandidate, _, _⟩ := chosen
  exact isCandidate

/-- No candidate has a greater key. -/
theorem bound (chosen : Chosen key candidate items best) (item : α) (member : item ∈ items)
    (isCandidate : candidate item) : key item ≤ key best := by
  obtain ⟨before, after, rfl, _, notGreater, smaller⟩ := chosen
  rcases List.mem_append.mp member with earlier | later
  · exact notGreater item earlier isCandidate
  · rcases List.mem_cons.mp later with rfl | later
    · exact le_rfl
    · exact le_of_lt (smaller item later isCandidate)

end Chosen

/-- The choice is the first element, if no candidate after it has as great a key, or else
the choice from the rest. -/
theorem chosen_cons_iff (item : α) (rest : List α) (best : α) :
    Chosen key candidate (item :: rest) best ↔
      (best = item ∧ candidate item ∧ ∀ later ∈ rest, candidate later → key later < key item) ∨
      (Chosen key candidate rest best ∧ (candidate item → key item ≤ key best)) := by
  constructor
  · rintro ⟨before, after, split, isCandidate, notGreater, smaller⟩
    cases before with
    | nil =>
      obtain ⟨rfl, rfl⟩ := List.cons.inj split
      exact .inl ⟨rfl, isCandidate, smaller⟩
    | cons first before =>
      obtain ⟨rfl, rfl⟩ := List.cons.inj split
      refine .inr ⟨⟨before, after, rfl, isCandidate, ?_, smaller⟩, ?_⟩
      · exact fun earlier member => notGreater earlier (List.mem_cons_of_mem _ member)
      · exact notGreater item List.mem_cons_self
  · rintro (⟨rfl, isCandidate, smaller⟩ | ⟨chosen, notGreater⟩)
    · exact ⟨[], rest, rfl, isCandidate, by simp, smaller⟩
    · obtain ⟨before, after, rfl, isCandidate, notGreaterBefore, smaller⟩ := chosen
      refine ⟨item :: before, after, rfl, isCandidate, ?_, smaller⟩
      intro earlier member
      rcases List.mem_cons.mp member with rfl | member
      · exact notGreater
      · exact notGreaterBefore earlier member

/-- Nothing is chosen exactly from nothing. -/
theorem choose_eq_none_iff (items : List α) : choose key items = none ↔ items = [] := by
  cases items with
  | nil => simp [choose]
  | cons item rest =>
    simp only [choose, reduceCtorEq, iff_false]
    cases choose key rest with
    | none => simp
    | some best =>
      simp only
      split <;> simp

/-- The scan over the candidates of a list ends with the last that has the greatest key. -/
theorem choose_filter_eq_some_iff (accepts : α → Bool) (items : List α) (best : α) :
    choose key (items.filter accepts) = some best ↔
      Chosen key (fun item => accepts item = true) items best := by
  induction items generalizing best with
  | nil => simp [choose, Chosen]
  | cons item rest inductionHypothesis =>
    rw [chosen_cons_iff, ← inductionHypothesis best]
    cases accepted : accepts item with
    | false => simp [accepted]
    | true =>
      rw [List.filter_cons, if_pos accepted]
      cases found : choose key (rest.filter accepts) with
      | none =>
        have noCandidates := (choose_eq_none_iff _).mp found
        rw [List.filter_eq_nil_iff] at noCandidates
        simp only [choose, found, Option.some.injEq, reduceCtorEq, false_and, or_false]
        constructor
        · rintro rfl
          exact ⟨rfl, trivial, fun later member isCandidate =>
            absurd isCandidate (noCandidates later member)⟩
        · rintro ⟨rfl, _⟩
          rfl
      | some other =>
        have chosen := (inductionHypothesis other).mp found
        have beaten : (∀ later ∈ rest, accepts later = true → key later < key item) ↔
            key other < key item := by
          constructor
          · exact fun smaller => smaller other chosen.mem chosen.isCandidate
          · exact fun smaller later member isCandidate =>
              lt_of_le_of_lt (chosen.bound later member isCandidate) smaller
        simp only [choose, found, beaten, Option.some.injEq]
        by_cases smaller : key other < key item
        · simp only [if_pos smaller, Option.some.injEq]
          constructor
          · rintro rfl
            exact .inl ⟨rfl, trivial, smaller⟩
          · rintro (⟨rfl, _, _⟩ | ⟨rfl, notGreater⟩)
            · rfl
            · exact absurd (notGreater trivial) smaller.not_ge
        · simp only [if_neg smaller, Option.some.injEq]
          constructor
          · rintro rfl
            exact .inr ⟨rfl, fun _ => not_lt.mp smaller⟩
          · rintro (⟨_, _, greater⟩ | ⟨same, _⟩)
            · exact absurd greater smaller
            · exact same

end Graced.LastGreatest
