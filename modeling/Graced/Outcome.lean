import Mathlib.Data.List.Forall2

/-!
# Computations that succeed, fail or panic

A fallible function returns a value or an error. A function that indexes without
a bound, unwraps or overflows under checked arithmetic may also stop the whole
program; that third result is kept apart from an error, because no caller can
recover from it. Sequencing stops at the first result that is not a value.

The list traversals visit their elements from left to right and never evaluate
an element after the one at which they stop.
-/

namespace Graced

universe u v w
variable {ε δ : Type u} {α β : Type v}

/-- A value, an error the caller can see, or a panic it cannot. -/
inductive Outcome (ε : Type u) (α : Type v) where
  | ok (value : α) : Outcome ε α
  | err (error : ε) : Outcome ε α
  | panic : Outcome ε α
deriving DecidableEq, Repr

namespace Outcome

/-- Continue with the value; an error or a panic is the result of the whole. -/
protected def bind (outcome : Outcome ε α) (next : α → Outcome ε β) : Outcome ε β :=
  match outcome with
  | .ok value => next value
  | .err error => .err error
  | .panic => .panic

instance : Monad (Outcome ε) where
  pure := .ok
  bind := Outcome.bind

instance : LawfulMonad (Outcome ε) := LawfulMonad.mk' _
  (by intro _ outcome; cases outcome <;> rfl)
  (by intros; rfl)
  (by intro _ _ _ outcome _ _; cases outcome <;> rfl)

@[simp] theorem pure_eq (value : α) : (pure value : Outcome ε α) = .ok value := rfl

@[simp] theorem ok_bind (value : α) (next : α → Outcome ε β) :
    (Outcome.ok value >>= next) = next value := rfl

@[simp] theorem err_bind (error : ε) (next : α → Outcome ε β) :
    (Outcome.err error >>= next) = .err error := rfl

@[simp] theorem panic_bind (next : α → Outcome ε β) :
    ((Outcome.panic : Outcome ε α) >>= next) = .panic := rfl

@[simp] theorem map_ok (f : α → β) (value : α) :
    f <$> (Outcome.ok value : Outcome ε α) = .ok (f value) := rfl

@[simp] theorem map_err (f : α → β) (error : ε) :
    f <$> (Outcome.err error : Outcome ε α) = .err error := rfl

@[simp] theorem map_panic (f : α → β) :
    f <$> (Outcome.panic : Outcome ε α) = .panic := rfl

/-- A sequence succeeds exactly when both of its parts do. -/
theorem bind_ok_iff (outcome : Outcome ε α) (next : α → Outcome ε β) (result : β) :
    (outcome >>= next) = .ok result ↔
      ∃ value, outcome = .ok value ∧ next value = .ok result := by
  cases outcome <;> simp

/-- A sequence fails in its first part, or in its second after the first succeeded. -/
theorem bind_err_iff (outcome : Outcome ε α) (next : α → Outcome ε β) (error : ε) :
    (outcome >>= next) = .err error ↔
      outcome = .err error ∨ ∃ value, outcome = .ok value ∧ next value = .err error := by
  cases outcome <;> simp

/-- A sequence panics in its first part, or in its second after the first succeeded. -/
theorem bind_panic_iff (outcome : Outcome ε α) (next : α → Outcome ε β) :
    (outcome >>= next) = .panic ↔
      outcome = .panic ∨ ∃ value, outcome = .ok value ∧ next value = .panic := by
  cases outcome <;> simp

/-- A sequence does not panic exactly when none of the parts that run does. -/
theorem bind_ne_panic_iff (outcome : Outcome ε α) (next : α → Outcome ε β) :
    (outcome >>= next) ≠ .panic ↔
      outcome ≠ .panic ∧ ∀ value, outcome = .ok value → next value ≠ .panic := by
  cases outcome <;> simp

/-- A computation that cannot panic, placed among those that can. -/
def ofExcept : Except ε α → Outcome ε α
  | .ok value => .ok value
  | .error error => .err error

@[simp] theorem ofExcept_ok (value : α) :
    ofExcept (.ok value : Except ε α) = .ok value := rfl

@[simp] theorem ofExcept_error (error : ε) :
    ofExcept (.error error : Except ε α) = .err error := rfl

@[simp] theorem ofExcept_ne_panic (result : Except ε α) : ofExcept result ≠ .panic := by
  cases result <;> simp [ofExcept]

@[simp] theorem ofExcept_eq_ok (result : Except ε α) (value : α) :
    ofExcept result = .ok value ↔ result = .ok value := by
  cases result <;> simp [ofExcept]

@[simp] theorem ofExcept_eq_err (result : Except ε α) (error : ε) :
    ofExcept result = .err error ↔ result = .error error := by
  cases result <;> simp [ofExcept]

/-- A sequence that cannot panic succeeds exactly when both of its parts do. -/
theorem exceptBind_ok_iff (result : Except ε α) (next : α → Except ε β) (value : β) :
    (result >>= next) = .ok value ↔ ∃ read, result = .ok read ∧ next read = .ok value := by
  cases result <;> simp [bind, Except.bind]

/-- A sequence that cannot panic has a value where both of its parts have. -/
theorem exceptBind_succeeds_iff (result : Except ε α) (next : α → Except ε β) :
    (∃ value, (result >>= next) = .ok value) ↔
      ∃ read, result = .ok read ∧ ∃ value, next read = .ok value := by
  cases result <;> simp [bind, Except.bind]

/-- Another error is another matter: the value stays. -/
theorem exceptMapError_ok_iff {δ : Type} (f : ε → δ) (result : Except ε α) (value : α) :
    result.mapError f = .ok value ↔ result = .ok value := by
  cases result <;> simp [Except.mapError]

/-- Two results are the same, up to what is made of the value of the one and of the error of the
other, if both fail or both succeed. -/
theorem exceptMap_eq_mapError_iff {γ : Type v} {δ : Type u} (f : α → γ) (g : ε → δ)
    (result : Except δ α) (other : Except ε γ) :
    result.map f = other.mapError g ↔
      (∃ error, result = .error (g error) ∧ other = .error error) ∨
        ∃ value, result = .ok value ∧ other = .ok (f value) := by
  cases result <;> cases other <;> simp [Except.map, Except.mapError, eq_comm]

/-- A value is there. -/
theorem exists_ok (value : α) : (∃ other, (.ok value : Except ε α) = .ok other) ↔ True := by simp

/-- The value, or an error that stands for its absence. -/
def okOr (error : ε) : Option α → Outcome ε α
  | some value => .ok value
  | none => .err error

@[simp] theorem okOr_some (error : ε) (value : α) : okOr error (some value) = .ok value := rfl

@[simp] theorem okOr_none (error : ε) : okOr error (none : Option α) = .err error := rfl

@[simp] theorem okOr_ne_panic (error : ε) (found : Option α) : okOr error found ≠ .panic := by
  cases found <;> simp

@[simp] theorem okOr_eq_ok (error : ε) (found : Option α) (value : α) :
    okOr error found = .ok value ↔ found = some value := by
  cases found <;> simp

/-- Replace the error by what the caller reports instead. -/
def mapError (f : ε → δ) : Outcome ε α → Outcome δ α
  | .ok value => .ok value
  | .err error => .err (f error)
  | .panic => .panic

@[simp] theorem mapError_ok (f : ε → δ) (value : α) :
    mapError f (.ok value : Outcome ε α) = .ok value := rfl

@[simp] theorem mapError_err (f : ε → δ) (error : ε) :
    mapError f (.err error : Outcome ε α) = .err (f error) := rfl

@[simp] theorem mapError_panic (f : ε → δ) :
    mapError f (.panic : Outcome ε α) = .panic := rfl

theorem mapError_eq_ok (f : ε → δ) (outcome : Outcome ε α) (value : α) :
    mapError f outcome = .ok value ↔ outcome = .ok value := by
  cases outcome <;> simp

theorem mapError_eq_panic (f : ε → δ) (outcome : Outcome ε α) :
    mapError f outcome = .panic ↔ outcome = .panic := by
  cases outcome <;> simp

/-- Forget an error, keeping only whether there was a value. A panic stays. -/
def discard : Outcome ε α → Outcome δ (Option α)
  | .ok value => .ok (some value)
  | .err _ => .ok none
  | .panic => .panic

@[simp] theorem discard_ne_err (outcome : Outcome ε α) (error : δ) :
    (discard outcome : Outcome δ (Option α)) ≠ .err error := by
  cases outcome <;> simp [discard]

theorem discard_eq_panic (outcome : Outcome ε α) :
    (discard outcome : Outcome δ (Option α)) = .panic ↔ outcome = .panic := by
  cases outcome <;> simp [discard]

/-- The value, if there is one. -/
def toOption : Outcome ε α → Option α
  | .ok value => some value
  | .err _ => none
  | .panic => none

@[simp] theorem toOption_ok (value : α) : (Outcome.ok value : Outcome ε α).toOption = some value :=
  rfl

@[simp] theorem toOption_err (error : ε) : (Outcome.err error : Outcome ε α).toOption = none := rfl

@[simp] theorem toOption_panic : (Outcome.panic : Outcome ε α).toOption = none := rfl

theorem toOption_eq_some (outcome : Outcome ε α) (value : α) :
    outcome.toOption = some value ↔ outcome = .ok value := by
  cases outcome <;> simp

/-- Keep the values a traversal yields, in order, up to the first failure. -/
def collectSome (f : α → Outcome ε (Option β)) : List α → Outcome ε (List β)
  | [] => .ok []
  | head :: tail => do
    match ← f head with
    | none => collectSome f tail
    | some value =>
      let values ← collectSome f tail
      pure (value :: values)

/-- Traverse the whole list, up to the first failure. -/
def collect (f : α → Outcome ε β) : List α → Outcome ε (List β)
  | [] => .ok []
  | head :: tail => do
    let value ← f head
    let values ← collect f tail
    pure (value :: values)

/-- The first value found, provided that nothing before it stops the search. -/
def findMap (f : α → Outcome ε (Option β)) : List α → Outcome ε (Option β)
  | [] => .ok none
  | head :: tail => do
    match ← f head with
    | some value => pure (some value)
    | none => findMap f tail

/-- Every value a completed traversal keeps was yielded by one of its elements. -/
theorem collectSome_mem (f : α → Outcome ε (Option β)) (elements : List α) (values : List β)
    (completed : collectSome f elements = .ok values) (value : β) (kept : value ∈ values) :
    ∃ element ∈ elements, f element = .ok (some value) := by
  induction elements generalizing values with
  | nil =>
    have empty : values = [] := by simpa [collectSome] using completed.symm
    simp [empty] at kept
  | cons head tail inductionHypothesis =>
    simp only [collectSome, bind_ok_iff] at completed
    obtain ⟨yielded, atHead, rest⟩ := completed
    cases yielded with
    | none =>
      obtain ⟨element, member, found⟩ := inductionHypothesis values rest kept
      exact ⟨element, List.mem_cons_of_mem _ member, found⟩
    | some first =>
      obtain ⟨others, inTail, same⟩ := (bind_ok_iff _ _ _).mp rest
      obtain rfl : first :: others = values := by simpa using same
      rcases List.mem_cons.mp kept with rfl | later
      · exact ⟨head, List.mem_cons_self, atHead⟩
      · obtain ⟨element, member, found⟩ := inductionHypothesis others inTail later
        exact ⟨element, List.mem_cons_of_mem _ member, found⟩

/-- A completed traversal evaluated all of its elements, and kept what they yielded. -/
theorem collectSome_eq_filterMap (f : α → Outcome ε (Option β)) (elements : List α)
    (values : List β) (completed : collectSome f elements = .ok values) :
    (∀ element ∈ elements, ∃ yielded, f element = .ok yielded) ∧
      values = elements.filterMap (fun element => (f element).toOption.join) := by
  induction elements generalizing values with
  | nil => exact ⟨by simp, by simpa [collectSome] using completed.symm⟩
  | cons head tail inductionHypothesis =>
    simp only [collectSome, bind_ok_iff] at completed
    obtain ⟨yielded, atHead, rest⟩ := completed
    cases yielded with
    | none =>
      obtain ⟨evaluated, kept⟩ := inductionHypothesis values rest
      exact ⟨List.forall_mem_cons.mpr ⟨⟨_, atHead⟩, evaluated⟩, by simp [atHead, ← kept]⟩
    | some first =>
      obtain ⟨others, inTail, same⟩ := (bind_ok_iff _ _ _).mp rest
      obtain rfl : first :: others = values := by simpa using same
      obtain ⟨evaluated, kept⟩ := inductionHypothesis others inTail
      exact ⟨List.forall_mem_cons.mpr ⟨⟨_, atHead⟩, evaluated⟩, by simp [atHead, ← kept]⟩

/-- A traversal fails exactly at its first failing element, with that element's
error; everything before it was evaluated and gave a result. -/
theorem collectSome_err_iff (f : α → Outcome ε (Option β)) (elements : List α) (error : ε) :
    collectSome f elements = .err error ↔
      ∃ before element after, elements = before ++ element :: after ∧
        (∀ earlier ∈ before, ∃ yielded, f earlier = .ok yielded) ∧
        f element = .err error := by
  induction elements with
  | nil => simp [collectSome]
  | cons head tail inductionHypothesis =>
    have tailFails (succeeded : ∃ yielded, f head = .ok yielded)
        (failed : collectSome f tail = .err error) :
        ∃ before element after, head :: tail = before ++ element :: after ∧
          (∀ earlier ∈ before, ∃ yielded, f earlier = .ok yielded) ∧
          f element = .err error := by
      obtain ⟨before, element, after, split, fine, fails⟩ := inductionHypothesis.mp failed
      refine ⟨head :: before, element, after, by simp [split], ?_, fails⟩
      intro earlier member
      rcases List.mem_cons.mp member with rfl | member
      · exact succeeded
      · exact fine earlier member
    constructor
    · intro failed
      simp only [collectSome, bind_err_iff] at failed
      rcases failed with atHead | ⟨yielded, atHead, rest⟩
      · exact ⟨[], head, tail, rfl, by simp, atHead⟩
      · cases yielded with
        | none => exact tailFails ⟨_, atHead⟩ rest
        | some first =>
          rcases (bind_err_iff _ _ _).mp rest with inTail | ⟨_, _, impossible⟩
          · exact tailFails ⟨_, atHead⟩ inTail
          · simp at impossible
    · rintro ⟨before, element, after, split, fine, fails⟩
      cases before with
      | nil =>
        obtain ⟨rfl, rfl⟩ := List.cons.inj split
        simp [collectSome, fails]
      | cons first others =>
        obtain ⟨rfl, rfl⟩ := List.cons.inj split
        obtain ⟨yielded, atHead⟩ := fine head List.mem_cons_self
        have inTail : collectSome f (others ++ element :: after) = .err error :=
          inductionHypothesis.mpr ⟨others, element, after, rfl,
            fun earlier member => fine earlier (List.mem_cons_of_mem _ member), fails⟩
        cases yielded <;> simp [collectSome, atHead, inTail]

/-- A traversal panics exactly at an element that does after all before it succeeded. -/
theorem collectSome_panic_iff (f : α → Outcome ε (Option β)) (elements : List α) :
    collectSome f elements = .panic ↔
      ∃ before element after, elements = before ++ element :: after ∧
        (∀ earlier ∈ before, ∃ yielded, f earlier = .ok yielded) ∧ f element = .panic := by
  induction elements with
  | nil => simp [collectSome]
  | cons head tail inductionHypothesis =>
    constructor
    · intro panics
      rcases (bind_panic_iff _ _).mp panics with atHead | ⟨yielded, atHead, rest⟩
      · exact ⟨[], head, tail, rfl, by simp, atHead⟩
      · have inTail : collectSome f tail = .panic := by
          cases yielded with
          | none => exact rest
          | some first =>
            rcases (bind_panic_iff _ _).mp rest with inTail | ⟨_, _, impossible⟩
            · exact inTail
            · simp at impossible
        obtain ⟨before, element, after, rfl, fine, stops⟩ := inductionHypothesis.mp inTail
        exact ⟨head :: before, element, after, rfl,
          List.forall_mem_cons.mpr ⟨⟨yielded, atHead⟩, fine⟩, stops⟩
    · rintro ⟨before, element, after, split, fine, stops⟩
      cases before with
      | nil =>
        obtain ⟨rfl, rfl⟩ := List.cons.inj split
        simp [collectSome, stops]
      | cons first others =>
        obtain ⟨rfl, rfl⟩ := List.cons.inj split
        obtain ⟨⟨yielded, atHead⟩, rest⟩ := List.forall_mem_cons.mp fine
        have inTail : collectSome f (others ++ element :: after) = .panic :=
          inductionHypothesis.mpr ⟨others, element, after, rfl, rest, stops⟩
        cases yielded <;> simp [collectSome, atHead, inTail]

/-- Completing a traversal around one element keeps what that element yields
between what comes before it and what comes after it. -/
theorem collectSome_split (f : α → Outcome ε (Option β)) (before after : List α) (element : α)
    (values : List β) (completed : collectSome f (before ++ element :: after) = .ok values) :
    ∃ earlier yielded later, collectSome f before = .ok earlier ∧ f element = .ok yielded ∧
      collectSome f after = .ok later ∧ values = earlier ++ yielded.toList ++ later := by
  induction before generalizing values with
  | nil =>
    simp only [List.nil_append, collectSome, bind_ok_iff] at completed
    obtain ⟨yielded, atElement, rest⟩ := completed
    cases yielded with
    | none => exact ⟨[], none, values, rfl, atElement, rest, by simp⟩
    | some first =>
      obtain ⟨others, inTail, same⟩ := (bind_ok_iff _ _ _).mp rest
      exact ⟨[], some first, others, rfl, atElement, inTail, by simpa using same.symm⟩
  | cons head tail inductionHypothesis =>
    simp only [List.cons_append, collectSome, bind_ok_iff] at completed
    obtain ⟨yieldedHead, atHead, rest⟩ := completed
    cases yieldedHead with
    | none =>
      obtain ⟨earlier, yielded, later, inBefore, atElement, inAfter, split⟩ :=
        inductionHypothesis values rest
      exact ⟨earlier, yielded, later, by simp [collectSome, atHead, inBefore], atElement, inAfter,
        split⟩
    | some first =>
      obtain ⟨others, inTail, same⟩ := (bind_ok_iff _ _ _).mp rest
      obtain ⟨earlier, yielded, later, inBefore, atElement, inAfter, split⟩ :=
        inductionHypothesis others inTail
      have whole : first :: others = values := by simpa using same
      exact ⟨first :: earlier, yielded, later, by simp [collectSome, atHead, inBefore], atElement,
        inAfter, by simp [← whole, split]⟩

/-- A completed whole traversal pairs every element with its value. -/
theorem collect_forall₂ (f : α → Outcome ε β) (elements : List α) (values : List β)
    (completed : collect f elements = .ok values) :
    List.Forall₂ (fun element value => f element = .ok value) elements values := by
  induction elements generalizing values with
  | nil =>
    obtain rfl : values = [] := by simpa [collect] using completed.symm
    exact List.Forall₂.nil
  | cons head tail inductionHypothesis =>
    simp only [collect, bind_ok_iff] at completed
    obtain ⟨value, atHead, others, inTail, same⟩ := completed
    obtain rfl : value :: others = values := by simpa using same
    exact List.Forall₂.cons atHead (inductionHypothesis others inTail)

/-- A completed traversal with values of a kind is one in which every element has its value of
that kind. -/
theorem collect_related_iff (f : α → Outcome ε β) (related : α → β → Prop) (elements : List α) :
    (∃ values, collect f elements = .ok values ∧ List.Forall₂ related elements values) ↔
      ∀ element ∈ elements, ∃ value, f element = .ok value ∧ related element value := by
  induction elements with
  | nil => simp [collect]
  | cons head tail inductionHypothesis =>
    rw [List.forall_mem_cons, ← inductionHypothesis]
    constructor
    · rintro ⟨values, completed, relates⟩
      simp only [collect, bind_ok_iff] at completed
      obtain ⟨first, atHead, others, inTail, same⟩ := completed
      obtain rfl : first :: others = values := by simpa using same
      obtain ⟨headRelates, tailRelates⟩ := List.forall₂_cons.mp relates
      exact ⟨⟨first, atHead, headRelates⟩, others, inTail, tailRelates⟩
    · rintro ⟨⟨first, atHead, headRelates⟩, others, inTail, tailRelates⟩
      exact ⟨first :: others, by simp [collect, atHead, inTail],
        List.forall₂_cons.mpr ⟨headRelates, tailRelates⟩⟩

/-- A completed whole traversal evaluated each of its elements. -/
theorem collect_each (f : α → Outcome ε β) (elements : List α) (values : List β)
    (completed : collect f elements = .ok values) (element : α) (member : element ∈ elements) :
    ∃ value, f element = .ok value := by
  induction elements generalizing values with
  | nil => simp at member
  | cons head tail inductionHypothesis =>
    simp only [collect, bind_ok_iff] at completed
    obtain ⟨value, atHead, others, inTail, _⟩ := completed
    rcases List.mem_cons.mp member with rfl | later
    · exact ⟨value, atHead⟩
    · exact inductionHypothesis others inTail later

/-- A collection succeeds exactly if each of its parts does. -/
theorem collect_succeeds_iff (f : α → Outcome ε β) (elements : List α) :
    (∃ values, collect f elements = .ok values) ↔
      ∀ element ∈ elements, ∃ value, f element = .ok value := by
  have related := collect_related_iff f (fun element value => f element = .ok value) elements
  simp only [and_self] at related
  rw [← related]
  exact exists_congr fun values => (and_iff_left_of_imp (collect_forall₂ f elements values)).symm

/-- A whole traversal of elements that succeed maps them. -/
theorem collect_of_ok (f : α → Outcome ε β) (g : α → β) (elements : List α)
    (each : ∀ element ∈ elements, f element = .ok (g element)) :
    collect f elements = .ok (elements.map g) := by
  induction elements with
  | nil => rfl
  | cons head tail inductionHypothesis =>
    obtain ⟨atHead, inTail⟩ := List.forall_mem_cons.mp each
    simp [collect, atHead, inductionHypothesis inTail]

/-- Functions that agree on the elements collect alike. -/
theorem collect_congr (f g : α → Outcome ε β) (elements : List α)
    (agree : ∀ element ∈ elements, f element = g element) :
    collect f elements = collect g elements := by
  induction elements with
  | nil => rfl
  | cons element rest inductionHypothesis =>
    rw [collect, collect, agree element List.mem_cons_self, inductionHypothesis fun other among =>
      agree other (List.mem_cons_of_mem element among)]

/-- A traversal of elements that succeed keeps what they yield. -/
theorem collectSome_of_ok (f : α → Outcome ε (Option β)) (g : α → Option β) (elements : List α)
    (each : ∀ element ∈ elements, f element = .ok (g element)) :
    collectSome f elements = .ok (elements.filterMap g) := by
  induction elements with
  | nil => rfl
  | cons head tail inductionHypothesis =>
    obtain ⟨atHead, inTail⟩ := List.forall_mem_cons.mp each
    cases yielded : g head with
    | none => simp [collectSome, atHead, yielded, inductionHypothesis inTail]
    | some value => simp [collectSome, atHead, yielded, inductionHypothesis inTail]

/-- A traversal completes exactly if each of its elements succeeds. -/
theorem collectSome_succeeds_iff (f : α → Outcome ε (Option β)) (elements : List α) :
    (∃ values, collectSome f elements = .ok values) ↔
      ∀ element ∈ elements, ∃ yielded, f element = .ok yielded := by
  refine ⟨fun ⟨values, completed⟩ => (collectSome_eq_filterMap f elements values completed).1, ?_⟩
  intro each
  refine ⟨_, collectSome_of_ok f (fun element => (f element).toOption.join) elements ?_⟩
  intro element member
  obtain ⟨yielded, atElement⟩ := each element member
  rw [atElement]
  rfl

/-- A whole traversal is one that keeps every value. -/
theorem collect_eq_collectSome (f : α → Outcome ε β) (elements : List α) :
    collect f elements = collectSome (fun element => some <$> f element) elements := by
  induction elements with
  | nil => rfl
  | cons head tail inductionHypothesis =>
    rw [collect, collectSome, inductionHypothesis]
    cases f head <;> rfl

/-- A whole traversal fails exactly at an element that does after all before it succeeded. -/
theorem collect_err_iff (f : α → Outcome ε β) (elements : List α) (error : ε) :
    collect f elements = .err error ↔
      ∃ before element after, elements = before ++ element :: after ∧
        (∀ earlier ∈ before, ∃ value, f earlier = .ok value) ∧ f element = .err error := by
  have succeeds (element : α) :
      (∃ yielded, (some <$> f element : Outcome ε (Option β)) = .ok yielded) ↔
        ∃ value, f element = .ok value := by
    cases f element <;> simp
  have fails (element : α) :
      (some <$> f element : Outcome ε (Option β)) = .err error ↔ f element = .err error := by
    cases f element <;> simp
  simp only [collect_eq_collectSome, collectSome_err_iff, succeeds, fails]

/-- A whole traversal fails only at an element that does. -/
theorem collect_err (f : α → Outcome ε β) (elements : List α) (error : ε)
    (failed : collect f elements = .err error) :
    ∃ element ∈ elements, f element = .err error := by
  obtain ⟨before, element, after, rfl, _, fails⟩ := (collect_err_iff f elements error).mp failed
  exact ⟨element, by simp, fails⟩

/-- A whole traversal panics only at an element that does. -/
theorem collect_panic (f : α → Outcome ε β) (elements : List α)
    (panics : collect f elements = .panic) : ∃ element ∈ elements, f element = .panic := by
  induction elements with
  | nil => simp [collect] at panics
  | cons head tail inductionHypothesis =>
    simp only [collect, bind_panic_iff] at panics
    rcases panics with atHead | ⟨_, _, inTail | ⟨_, _, impossible⟩⟩
    · exact ⟨head, List.mem_cons_self, atHead⟩
    · obtain ⟨element, member, found⟩ := inductionHypothesis inTail
      exact ⟨element, List.mem_cons_of_mem _ member, found⟩
    · simp at impossible

/-- A whole traversal without errors panics exactly when one of its elements does. -/
theorem collect_ne_panic_iff (f : α → Outcome ε β) (elements : List α)
    (noError : ∀ element error, f element ≠ .err error) :
    collect f elements ≠ .panic ↔ ∀ element ∈ elements, f element ≠ .panic := by
  constructor
  · intro completes element member panics
    cases outcome : collect f elements with
    | panic => exact completes outcome
    | err error =>
      obtain ⟨failing, _, fails⟩ := collect_err f elements error outcome
      exact noError failing error fails
    | ok values =>
      have each := collect_forall₂ f elements values outcome
      obtain ⟨index, bound, rfl⟩ := List.getElem_of_mem member
      have succeeds := (List.forall₂_iff_get.mp each).2 index bound
        ((List.forall₂_iff_get.mp each).1 ▸ bound)
      rw [List.get_eq_getElem, panics] at succeeds
      simp at succeeds
  · intro each panics
    obtain ⟨element, member, atElement⟩ := collect_panic f elements panics
    exact each element member atElement

/-- A search panics exactly at an element that does while nothing before it was found or
failed. -/
theorem findMap_panic_iff (f : α → Outcome ε (Option β)) (elements : List α) :
    findMap f elements = .panic ↔
      ∃ before element after, elements = before ++ element :: after ∧
        (∀ earlier ∈ before, f earlier = .ok none) ∧ f element = .panic := by
  induction elements with
  | nil => simp [findMap]
  | cons head tail inductionHypothesis =>
    constructor
    · intro panics
      rcases (bind_panic_iff _ _).mp panics with atHead | ⟨yielded, atHead, rest⟩
      · exact ⟨[], head, tail, rfl, by simp, atHead⟩
      · cases yielded with
        | some value => simp at rest
        | none =>
          obtain ⟨before, element, after, split, passed, atElement⟩ :=
            inductionHypothesis.mp rest
          refine ⟨head :: before, element, after, by simp [split], ?_, atElement⟩
          intro earlier member
          rcases List.mem_cons.mp member with rfl | member
          · exact atHead
          · exact passed earlier member
    · rintro ⟨before, element, after, split, passed, atElement⟩
      cases before with
      | nil =>
        obtain ⟨rfl, rfl⟩ := List.cons.inj split
        simp [findMap, atElement]
      | cons first others =>
        obtain ⟨rfl, rfl⟩ := List.cons.inj split
        have inTail : findMap f (others ++ element :: after) = .panic :=
          inductionHypothesis.mpr ⟨others, element, after, rfl,
            fun earlier member => passed earlier (List.mem_cons_of_mem _ member), atElement⟩
        simp [findMap, passed head List.mem_cons_self, inTail]

/-- A search that finds nothing ends, unless an element stops it. -/
theorem findMap_of_missing (f : α → Outcome ε (Option β)) (elements : List α)
    (missing : ∀ element ∈ elements, f element = .ok none ∨ f element = .panic) :
    (findMap f elements = .ok none ∧ ∀ element ∈ elements, f element ≠ .panic) ∨
      (findMap f elements = .panic ∧ ∃ element ∈ elements, f element = .panic) := by
  induction elements with
  | nil => exact .inl ⟨rfl, by simp⟩
  | cons head tail inductionHypothesis =>
    rcases missing head List.mem_cons_self with nothing | atHead
    · have sameSearch : findMap f (head :: tail) = findMap f tail := by simp [findMap, nothing]
      rw [sameSearch]
      have inTail := inductionHypothesis
        fun element member => missing element (List.mem_cons_of_mem _ member)
      simpa [nothing] using inTail
    · exact .inr ⟨by simp [findMap, atHead], head, List.mem_cons_self, atHead⟩

end Outcome

end Graced
