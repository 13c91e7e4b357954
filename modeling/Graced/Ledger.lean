import Graced.FirstInput
import Graced.SwapGraph
import Mathlib.Logic.Function.Basic

/-!
# The walk over a route in unbounded integers

A ledger is the state of the walk with balances and an input that know no bound. A swap
that lacks some of its input takes what there is. It is short if it lacks more than five of
ten thousand parts of its input, of a mint that did not enter the route. The walk itself
stops at a short swap if it notices it, and as long as no balance reaches 2 ^ 64 it follows
the ledger: the balances are the same, and the input is the same unless it is clamped at
the greatest word.
-/

namespace Graced.SwapGraph

open FirstInput

/-! ## One round of the walk -/

/-- What is left of a balance when an input is taken out of it, as far as it goes. -/
def remaining (avail amount : UInt64) : UInt64 := if avail < amount then 0 else avail - amount

/-- What a balance lacks for an input. -/
def lacking (avail amount : UInt64) : UInt64 := if avail < amount then amount - avail else 0

/-- A swap is refused if it lacks more than dust of a mint other than the entry's. -/
def refuses (entry : Pubkey) (s : Swap) (missing : UInt64) : Bool :=
  s.inputMint ≠ entry ∧ isDust missing s.inputAmount = false

/-- What a swap lacks at this point of the walk. -/
def Walk.missing (walk : Walk) (s : Swap) : UInt64 :=
  lacking (walk.available s.inputMint) s.inputAmount

/-- The walk after the input of a swap was drawn. -/
def Walk.drawn (entry : Pubkey) (walk : Walk) (s : Swap) : Walk where
  balance := walk.balance.insert s.inputMint (remaining (walk.available s.inputMint) s.inputAmount)
  netInput := if s.inputMint = entry then saturatingAdd walk.netInput (walk.missing s)
    else walk.netInput

/-- The walk after the output of a swap was credited as well. -/
def Walk.settled (entry : Pubkey) (walk : Walk) (s : Swap) : Walk where
  balance := (walk.drawn entry s).balance.insert s.outputMint
    ((walk.drawn entry s).available s.outputMint + s.outputAmount)
  netInput := (walk.drawn entry s).netInput

@[simp] theorem remaining_toNat (avail amount : UInt64) :
    (remaining avail amount).toNat = avail.toNat - amount.toNat := by
  unfold remaining
  split
  · rename_i short
    have shortNat : avail.toNat < amount.toNat := short
    simp only [UInt64.toNat_zero]
    omega
  · rename_i enough
    exact UInt64.toNat_sub_of_le _ _ (UInt64.not_lt.mp enough)

@[simp] theorem lacking_toNat (avail amount : UInt64) :
    (lacking avail amount).toNat = amount.toNat - avail.toNat := by
  unfold lacking
  split
  · rename_i short
    exact UInt64.toNat_sub_of_le _ _ (UInt64.le_of_lt short)
  · rename_i enough
    have enoughNat : ¬ avail.toNat < amount.toNat := enough
    simp only [UInt64.toNat_zero]
    omega

/-- Nothing lacking is dust beside anything. -/
@[simp] theorem isDust_zero (reference : UInt64) : isDust 0 reference = true := by
  simp [isDust, saturatingMul]

@[simp] theorem available_insert (walk : Walk) (mint other : Pubkey) (amount input : UInt64) :
    (Walk.mk (walk.balance.insert mint amount) input).available other =
      if mint = other then amount else walk.available other := by
  by_cases same : mint = other <;> simp [Walk.available, same]

theorem drawn_available (entry mint : Pubkey) (walk : Walk) (s : Swap) :
    (walk.drawn entry s).available mint =
      if s.inputMint = mint then remaining (walk.available mint) s.inputAmount
      else walk.available mint := by
  by_cases same : s.inputMint = mint
  · simp [Walk.drawn, same]
  · simp [Walk.drawn, same]

theorem settled_available (entry mint : Pubkey) (walk : Walk) (s : Swap) :
    (walk.settled entry s).available mint =
      if s.outputMint = mint then (walk.drawn entry s).available mint + s.outputAmount
      else (walk.drawn entry s).available mint := by
  by_cases same : s.outputMint = mint
  · simp [Walk.settled, same]
  · simp [Walk.settled, same]

/-- Drawing an input either refuses the swap or takes out what there is. -/
theorem draw_eq (entry : Pubkey) (walk : Walk) (s : Swap) :
    draw entry walk s =
      if refuses entry s (walk.missing s) then
        .err (.imbalancedRoute s.inputMint (walk.missing s))
      else .ok (walk.drawn entry s) := by
  by_cases short : walk.available s.inputMint < s.inputAmount
  · by_cases external : s.inputMint = entry
    · have short' : walk.available entry < s.inputAmount := external ▸ short
      simp [draw, short', external, refuses, Walk.drawn, Walk.missing, remaining, lacking]
    · by_cases dust : isDust (s.inputAmount - walk.available s.inputMint) s.inputAmount
      · simp [draw, short, external, dust, refuses, Walk.drawn, Walk.missing, remaining, lacking]
      · simp [draw, short, external, dust, refuses, Walk.missing, lacking]
  · have unchanged : saturatingAdd walk.netInput 0 = walk.netInput := by
      apply UInt64.toNat_inj.mp
      have bounded := walk.netInput.toNat_lt
      rw [saturatingAdd_toNat, UInt64.toNat_zero]
      omega
    simp [draw, short, refuses, Walk.drawn, Walk.missing, remaining, lacking, unchanged]

/-- The credit of a swap leaves the range of a balance. -/
def Walk.Overflows (entry : Pubkey) (walk : Walk) (s : Swap) : Prop :=
  2 ^ 64 ≤ ((walk.drawn entry s).available s.outputMint).toNat + s.outputAmount.toNat

instance (entry : Pubkey) (walk : Walk) (s : Swap) : Decidable (walk.Overflows entry s) :=
  inferInstanceAs (Decidable (_ ≤ _))

/-- One round refuses the swap, panics at its credit if the build checks, or settles it. -/
theorem step_eq (profile : Profile) (entry : Pubkey) (walk : Walk) (s : Swap) :
    step profile entry walk s =
      if refuses entry s (walk.missing s) then
        .err (.imbalancedRoute s.inputMint (walk.missing s))
      else if profile.overflowChecks ∧ walk.Overflows entry s then .panic
      else .ok (walk.settled entry s) := by
  rw [step, draw_eq]
  by_cases refused : refuses entry s (walk.missing s) = true
  · simp [refused]
  · have added : (profile.add64 ((walk.drawn entry s).available s.outputMint) s.outputAmount :
        Outcome SwapGraphError UInt64) =
          if profile.overflowChecks ∧ walk.Overflows entry s then .panic
          else .ok ((walk.drawn entry s).available s.outputMint + s.outputAmount) := rfl
    rw [if_neg refused, if_neg refused, Outcome.ok_bind, added]
    by_cases overflow : profile.overflowChecks ∧ walk.Overflows entry s
    · rw [if_pos overflow, if_pos overflow]
      rfl
    · rw [if_neg overflow, if_neg overflow]
      rfl

/-! ## The ledger -/

/-- The balances and the input, unbounded. -/
structure Ledger where
  balance : Pubkey → Nat
  netInput : Nat

namespace Ledger

/-- Before the first swap nothing is held and nothing was put in. -/
def start : Ledger := ⟨fun _ => 0, 0⟩

/-- What a swap lacks of its input. -/
def shortfall (ledger : Ledger) (s : Swap) : Nat :=
  s.inputAmount.toNat - ledger.balance s.inputMint

/-- The balances after the input of a swap was taken out, as far as it goes. -/
def drawn (ledger : Ledger) (s : Swap) : Pubkey → Nat :=
  Function.update ledger.balance s.inputMint
    (ledger.balance s.inputMint - s.inputAmount.toNat)

/-- Execute one swap. What it lacks of the entry mint is put in. -/
def execute (entry : Pubkey) (ledger : Ledger) (s : Swap) : Ledger where
  balance := Function.update (ledger.drawn s) s.outputMint
    (ledger.drawn s s.outputMint + s.outputAmount.toNat)
  netInput := ledger.netInput + if s.inputMint = entry then ledger.shortfall s else 0

/-- Execute some swaps in order. -/
def after (entry : Pubkey) (swaps : List Swap) : Ledger := swaps.foldl (execute entry) start

/-- Every balance is a machine word. -/
def BalancesFit (ledger : Ledger) : Prop := ∀ mint, ledger.balance mint < 2 ^ 64

/-- Every balance is a machine word, and so is the input. -/
def Fits (ledger : Ledger) : Prop := ledger.BalancesFit ∧ ledger.netInput < 2 ^ 64

theorem execute_balance (entry mint : Pubkey) (ledger : Ledger) (s : Swap) :
    (ledger.execute entry s).balance mint =
      ledger.balance mint - (if s.inputMint = mint then s.inputAmount.toNat else 0) +
        (if s.outputMint = mint then s.outputAmount.toNat else 0) := by
  have taken : ledger.drawn s mint =
      ledger.balance mint - (if s.inputMint = mint then s.inputAmount.toNat else 0) := by
    by_cases same : s.inputMint = mint
    · subst same
      simp [drawn]
    · simp [drawn, same, Function.update_of_ne (Ne.symm same)]
  by_cases same : s.outputMint = mint
  · subst same
    simp [execute, taken]
  · simp [execute, same, Function.update_of_ne (Ne.symm same), taken]

/-- What a swap lacks is at most its input, and so a machine word. -/
@[simp] theorem shortfall_toNat (ledger : Ledger) (s : Swap) :
    (UInt64.ofNat (ledger.shortfall s)).toNat = ledger.shortfall s := by
  have bounded := s.inputAmount.toNat_lt
  exact UInt64.toNat_ofNat_of_lt' (by unfold shortfall; simp only [UInt64.size]; omega)

end Ledger

/-! ## What a swap may lack -/

/-- A swap is short if it lacks more than five of ten thousand parts of its input, of a mint
other than the entry's. -/
def short (entry : Pubkey) (ledger : Ledger) (s : Swap) : Bool :=
  s.inputMint ≠ entry ∧ s.inputAmount.toNat * 5 < ledger.shortfall s * 10000

/-- A short swap is noticed if five times its input is below the greatest word. -/
def noticed (entry : Pubkey) (ledger : Ledger) (s : Swap) : Bool :=
  short entry ledger s ∧ s.inputAmount.toNat * 5 < 2 ^ 64 - 1

/-- The test is exact below a fifth of the greatest word, and passes everything from there
on. -/
theorem isDust_eq_false_iff (amount reference : UInt64) :
    isDust amount reference = false ↔
      reference.toNat * 5 < amount.toNat * 10000 ∧ reference.toNat * 5 < 2 ^ 64 - 1 := by
  have bounded := amount.toNat_lt
  rw [isDust, decide_eq_false_iff_not, UInt64.not_le, UInt64.lt_iff_toNat_lt,
    saturatingMul_toNat, saturatingMul_toNat]
  have tolerance : dustToleranceBps.toNat = 5 := rfl
  have parts : (10000 : UInt64).toNat = 10000 := rfl
  rw [tolerance, parts]
  omega

/-- The walk refuses the swaps that are noticed. -/
theorem refuses_shortfall (entry : Pubkey) (ledger : Ledger) (s : Swap) :
    refuses entry s (UInt64.ofNat (ledger.shortfall s)) = noticed entry ledger s := by
  rw [Bool.eq_iff_iff]
  simp only [refuses, noticed, short, decide_eq_true_eq, isDust_eq_false_iff,
    Ledger.shortfall_toNat, and_assoc]

/-! ## The walk follows the ledger -/

/-- The walk has the balances of the ledger, and its input as far as a word goes. -/
structure Follows (ledger : Ledger) (walk : Walk) : Prop where
  balance : ∀ mint, (walk.available mint).toNat = ledger.balance mint
  netInput : walk.netInput.toNat = min ledger.netInput (2 ^ 64 - 1)

theorem start_follows : Follows .start .start := ⟨fun _ => rfl, rfl⟩

section Round

variable {ledger : Ledger} {walk : Walk} (follows : Follows ledger walk)
include follows

/-- The walk lacks what the ledger lacks. -/
theorem missing_follows (s : Swap) : walk.missing s = UInt64.ofNat (ledger.shortfall s) := by
  apply UInt64.toNat_inj.mp
  rw [Ledger.shortfall_toNat, Walk.missing, lacking_toNat, follows.balance, Ledger.shortfall]

/-- An input is drawn unless the swap is noticed. -/
theorem draw_refuses (entry : Pubkey) (s : Swap) :
    draw entry walk s =
      if noticed entry ledger s then
        .err (.imbalancedRoute s.inputMint (UInt64.ofNat (ledger.shortfall s)))
      else .ok (walk.drawn entry s) := by
  rw [draw_eq, missing_follows follows, refuses_shortfall]

/-- One round refuses what is noticed. -/
theorem step_refuses (profile : Profile) (entry : Pubkey) (s : Swap) :
    step profile entry walk s =
      if noticed entry ledger s then
        .err (.imbalancedRoute s.inputMint (UInt64.ofNat (ledger.shortfall s)))
      else if profile.overflowChecks ∧ walk.Overflows entry s then .panic
      else .ok (walk.settled entry s) := by
  rw [step_eq, missing_follows follows, refuses_shortfall]

/-- A credit overflows exactly if the ledger's balance of its mint does. -/
theorem overflows_iff (entry : Pubkey) (s : Swap) :
    walk.Overflows entry s ↔ 2 ^ 64 ≤ (ledger.execute entry s).balance s.outputMint := by
  rw [Ledger.execute_balance, if_pos rfl, Walk.Overflows, drawn_available]
  split <;> simp [follows.balance]

/-- A settled swap is executed on the ledger, unless its credit overflows. -/
theorem settled_follows (entry : Pubkey) (s : Swap) (room : ¬ walk.Overflows entry s) :
    Follows (ledger.execute entry s) (walk.settled entry s) := by
  constructor
  · intro mint
    have taken : ((walk.drawn entry s).available mint).toNat =
        ledger.balance mint - (if s.inputMint = mint then s.inputAmount.toNat else 0) := by
      rw [drawn_available]
      split <;> simp [follows.balance]
    rw [Ledger.execute_balance, settled_available, ← taken]
    by_cases same : s.outputMint = mint
    · subst same
      rw [Walk.Overflows] at room
      rw [if_pos rfl, if_pos rfl, UInt64.toNat_add, Nat.mod_eq_of_lt (by omega)]
    · simp [same]
  · change (walk.drawn entry s).netInput.toNat = _
    simp only [Walk.drawn, Ledger.execute]
    split
    · rw [saturatingAdd_toNat, missing_follows follows, Ledger.shortfall_toNat, follows.netInput]
      omega
    · rw [follows.netInput, Nat.add_zero]

/-- A swap that is not refused and leaves balances that fit is settled. -/
theorem step_settles (profile : Profile) (entry : Pubkey) (s : Swap)
    (passes : noticed entry ledger s = false) (fits : (ledger.execute entry s).BalancesFit) :
    step profile entry walk s = .ok (walk.settled entry s) ∧
      Follows (ledger.execute entry s) (walk.settled entry s) := by
  have room : ¬ walk.Overflows entry s := by
    rw [overflows_iff follows]
    exact Nat.not_le_of_lt (fits s.outputMint)
  refine ⟨?_, settled_follows follows entry s room⟩
  rw [step_refuses follows, passes, if_neg Bool.false_ne_true, if_neg (fun both => room both.2)]

end Round

/-! ## A whole walk -/

/-- The ledgers that the walk gets to: those after the swaps up to which none is noticed. -/
def Reached (entry : Pubkey) (ledger : Ledger) (swaps : List Swap) (reached : Ledger) : Prop :=
  Reaches (Ledger.execute entry) (noticed entry) ledger swaps reached

/-- The swap that ends the walk, with the ledger at which it is refused. -/
def firstRefused (entry : Pubkey) (ledger : Ledger) (swaps : List Swap) : Option (Ledger × Swap) :=
  firstWhere (Ledger.execute entry) (noticed entry) ledger swaps

/-- The end of a walk that no balance stops: it is refused where a swap is noticed, or follows
the ledger to the last swap. -/
def Ends (entry : Pubkey) (ledger : Ledger) (swaps : List Swap) :
    Outcome SwapGraphError Walk → Prop
  | .ok final =>
    firstRefused entry ledger swaps = none ∧
      Follows (swaps.foldl (Ledger.execute entry) ledger) final
  | .err error => ∃ found s, firstRefused entry ledger swaps = some (found, s) ∧
      error = .imbalancedRoute s.inputMint (UInt64.ofNat (found.shortfall s))
  | .panic => False

section Route

variable {profile : Profile} {entry : Pubkey} {ledger : Ledger} {state : Walk} {swaps : List Swap}

/-- A walk that gets to no balance of 2 ^ 64 follows the ledger to its end. -/
theorem walk_ends (follows : Follows ledger state)
    (fits : ∀ reached, Reached entry ledger swaps reached → reached.BalancesFit) :
    Ends entry ledger swaps (walk profile entry state swaps) := by
  induction swaps generalizing ledger state with
  | nil => exact ⟨rfl, follows⟩
  | cons s rest inductionHypothesis =>
    cases verdict : noticed entry ledger s with
    | true =>
      rw [walk, step_refuses follows, verdict, if_pos rfl]
      exact ⟨ledger, s, firstWhere_here _ _ ledger s rest verdict, rfl⟩
    | false =>
      have onwards (reached : Ledger)
          (later : Reached entry (ledger.execute entry s) rest reached) :
          Reached entry ledger (s :: rest) reached :=
        (reaches_cons _ _ ledger reached s rest).mpr (.inr ⟨verdict, later⟩)
      have nextFits : (ledger.execute entry s).BalancesFit :=
        fits _ (onwards _ ⟨[], rest, rfl, rfl, rfl⟩)
      obtain ⟨stepped, nextFollows⟩ := step_settles follows profile entry s verdict nextFits
      have rest := inductionHypothesis nextFollows
        (fun reached later => fits reached (onwards reached later))
      rw [walk, stepped, Outcome.ok_bind]
      unfold Ends firstRefused at rest ⊢
      rw [firstWhere_later _ _ ledger s _ verdict]
      exact rest

/-- A walk that gets to a balance of 2 ^ 64 panics in a build that checks. -/
theorem walk_panics (checks : profile.overflowChecks = true) (follows : Follows ledger state)
    (reached : Ledger) (gotThere : Reached entry ledger swaps reached)
    (unfit : ¬ reached.BalancesFit) : walk profile entry state swaps = .panic := by
  have fitting : ledger.BalancesFit := by
    intro mint
    rw [← follows.balance]
    exact (state.available mint).toNat_lt
  induction swaps generalizing ledger state with
  | nil => exact absurd ((reaches_nil _ _ ledger reached).mp gotThere ▸ fitting) unfit
  | cons s rest inductionHypothesis =>
    rcases (reaches_cons _ _ ledger reached s rest).mp gotThere with rfl | ⟨verdict, later⟩
    · exact absurd fitting unfit
    · rw [walk, step_refuses follows, verdict, if_neg Bool.false_ne_true]
      by_cases overflow : state.Overflows entry s
      · rw [if_pos ⟨checks, overflow⟩]
        rfl
      · have next := settled_follows follows entry s overflow
        rw [if_neg (fun both => overflow both.2), Outcome.ok_bind]
        refine inductionHypothesis next later ?_
        intro mint
        rw [← next.balance]
        exact UInt64.toNat_lt _

end Route

/-- A build without checks never panics in a walk. -/
theorem walk_unchecked {profile : Profile} (unchecked : profile.overflowChecks = false)
    (entry : Pubkey) (state : Walk) (swaps : List Swap) :
    walk profile entry state swaps ≠ .panic := by
  induction swaps generalizing state with
  | nil => simp [walk]
  | cons s rest inductionHypothesis =>
    rw [walk, step_eq]
    by_cases refused : refuses entry s (state.missing s) = true
    · simp [refused]
    · rw [if_neg refused, if_neg (by simp [unchecked]), Outcome.ok_bind]
      exact inductionHypothesis _

/-- The net swap of a route that gets to no balance of 2 ^ 64: the first refused swap as an
error, or what the ledger has put in and holds after the last swap. -/
theorem swap_ends (profile : Profile) (swaps : List Swap) (nonempty : swaps ≠ [])
    (fits : ∀ reached, Reached (swaps.head nonempty).inputMint .start swaps reached →
      reached.BalancesFit) :
    (∃ found s, firstRefused (swaps.head nonempty).inputMint .start swaps = some (found, s) ∧
      swap profile ⟨swaps⟩ =
        .err (.imbalancedRoute s.inputMint (UInt64.ofNat (found.shortfall s)))) ∨
    firstRefused (swaps.head nonempty).inputMint .start swaps = none ∧
      ∃ net, swap profile ⟨swaps⟩ = .ok net ∧
        net.inputAmount.toNat =
          min (Ledger.after (swaps.head nonempty).inputMint swaps).netInput (2 ^ 64 - 1) ∧
        net.outputAmount.toNat = (Ledger.after (swaps.head nonempty).inputMint swaps).balance
          (swaps.getLast nonempty).outputMint := by
  cases swaps with
  | nil => exact absurd rfl nonempty
  | cons first rest =>
    have ends : Ends first.inputMint .start (first :: rest)
        (walk profile first.inputMint Walk.start (first :: rest)) := walk_ends start_follows fits
    simp only [swap]
    simp only [List.head_cons] at ends ⊢
    cases walked : walk profile first.inputMint Walk.start (first :: rest) with
    | ok final =>
      rw [walked] at ends
      exact .inr ⟨ends.1, _, rfl, ends.2.netInput, ends.2.balance _⟩
    | err error =>
      rw [walked] at ends
      obtain ⟨found, s, refused, rfl⟩ := ends
      exact .inl ⟨found, s, refused, rfl⟩
    | panic =>
      rw [walked] at ends
      exact ends.elim

/-- Netting a route panics exactly if the build checks and the walk gets to a balance of
2 ^ 64. -/
theorem swap_ne_panic_iff (profile : Profile) (swaps : List Swap) (nonempty : swaps ≠ []) :
    swap profile ⟨swaps⟩ ≠ .panic ↔
      (profile.overflowChecks = true →
        ∀ reached, Reached (swaps.head nonempty).inputMint .start swaps reached →
          reached.BalancesFit) := by
  constructor
  · intro returns checks reached gotThere
    by_contra unfit
    apply returns
    cases swaps with
    | nil => exact absurd rfl nonempty
    | cons first rest =>
      have panics := walk_panics checks start_follows reached gotThere unfit
      rw [List.head_cons] at panics
      simp [swap, panics]
  · intro fits
    cases checks : profile.overflowChecks with
    | false =>
      cases swaps with
      | nil => exact absurd rfl nonempty
      | cons first rest =>
        rw [swap, Outcome.bind_ne_panic_iff]
        exact ⟨walk_unchecked checks _ _ _, by simp⟩
    | true =>
      rcases swap_ends profile swaps nonempty (fits checks) with
        ⟨_, _, _, failed⟩ | ⟨_, net, succeeded, _⟩
      · simp [failed]
      · simp [succeeded]

end Graced.SwapGraph
