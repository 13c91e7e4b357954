import Mathlib.Data.List.Induction
import Mathlib.Algebra.BigOperators.Group.List.Basic
import Mathlib.Algebra.GroupWithZero.Nat
import Mathlib.Order.Bounds.Basic

/-!
# An account that is topped up when it runs short

An account meets a list of moves. Each move first takes an amount out and then
puts an amount in. When a withdrawal exceeds the balance, exactly the missing part
is supplied from outside. The two questions about such an account are answered
here once: nothing is lost, and what was supplied is the least capital that would
have avoided every shortage had it been there from the start.
-/

namespace Graced.Overdraft

/-- One withdrawal followed by one deposit. -/
structure Move where
  debit : Nat
  credit : Nat

/-- What is in the account, and what outside supplied so far. -/
structure Account where
  balance : Nat
  supplied : Nat

/-- Execute one move, supplying what is missing. -/
def Account.execute (account : Account) (move : Move) : Account :=
  if account.balance < move.debit then
    ⟨move.credit, account.supplied + (move.debit - account.balance)⟩
  else ⟨account.balance - move.debit + move.credit, account.supplied⟩

/-- Execute the moves in order, starting from an empty account. -/
def settle (moves : List Move) : Account := moves.foldl Account.execute ⟨0, 0⟩

/-- The sum of all withdrawals. -/
def debits (moves : List Move) : Nat := (moves.map Move.debit).sum

/-- The sum of all deposits. -/
def credits (moves : List Move) : Nat := (moves.map Move.credit).sum

/-- Capital held from the start suffices when no withdrawal exceeds it together
with the deposits made before that withdrawal. -/
def Covers (capital : Nat) (moves : List Move) : Prop :=
  ∀ k < moves.length, debits (moves.take (k + 1)) ≤ capital + credits (moves.take k)

/-- With this much at hand every withdrawal can be paid out in turn, without any
help from outside. -/
def Affords : Nat → List Move → Prop
  | _, [] => True
  | held, move :: rest => move.debit ≤ held ∧ Affords (held - move.debit + move.credit) rest

@[simp] theorem settle_snoc (moves : List Move) (move : Move) :
    settle (moves ++ [move]) = (settle moves).execute move := by
  simp [settle]

@[simp] theorem debits_singleton (move : Move) : debits [move] = move.debit := by simp [debits]

@[simp] theorem credits_singleton (move : Move) : credits [move] = move.credit := by
  simp [credits]

@[simp] theorem debits_append (moves others : List Move) :
    debits (moves ++ others) = debits moves + debits others := by
  simp [debits]

@[simp] theorem credits_append (moves others : List Move) :
    credits (moves ++ others) = credits moves + credits others := by
  simp [credits]

/-- Covering a longer list is paying its first withdrawal and covering the rest
with what is left over and deposited. -/
theorem covers_cons (capital : Nat) (move : Move) (rest : List Move) :
    Covers capital (move :: rest) ↔
      move.debit ≤ capital ∧ Covers (capital - move.debit + move.credit) rest := by
  have cut (k : Nat) : debits ((move :: rest).take (k + 1)) = move.debit + debits (rest.take k) ∧
      credits ((move :: rest).take (k + 1)) = move.credit + credits (rest.take k) := by
    simp [debits, credits]
  constructor
  · intro covers
    have first := covers 0 (by simp)
    rw [(cut 0).1] at first
    simp only [List.take_zero, debits, credits, List.map_nil, List.sum_nil] at first
    refine ⟨by omega, ?_⟩
    intro k inside
    have later := covers (k + 1) (by simpa using inside)
    rw [(cut (k + 1)).1, (cut k).2] at later
    omega
  · rintro ⟨first, covers⟩ k inside
    cases k with
    | zero =>
      rw [(cut 0).1]
      simp only [List.take_zero, debits, credits, List.map_nil, List.sum_nil]
      omega
    | succ k =>
      have later := covers k (by simpa using inside)
      rw [(cut (k + 1)).1, (cut k).2]
      omega

/-- Paying every withdrawal in turn is the same as never exceeding the capital and
the earlier deposits in total. -/
theorem affords_iff_covers (moves : List Move) (capital : Nat) :
    Affords capital moves ↔ Covers capital moves := by
  induction moves generalizing capital with
  | nil => simp [Affords, Covers]
  | cons move rest inductionHypothesis =>
    rw [covers_cons, ← inductionHypothesis]
    rfl

/-- A move takes out what there is, and what is missing is supplied. -/
theorem execute_eq (account : Account) (move : Move) :
    account.execute move = ⟨account.balance - move.debit + move.credit,
      account.supplied + (move.debit - account.balance)⟩ := by
  unfold Account.execute
  split
  · rename_i short
    rw [Nat.sub_eq_zero_of_le (Nat.le_of_lt short), Nat.zero_add]
  · rename_i enough
    rw [Nat.sub_eq_zero_of_le (Nat.le_of_not_lt enough), Nat.add_zero]

/-- Outside never takes anything back. -/
theorem supplied_le_execute (account : Account) (move : Move) :
    account.supplied ≤ (account.execute move).supplied := by
  unfold Account.execute
  split <;> simp

/-- Everything that entered the account is either withdrawn or still there. -/
theorem settle_conserves (moves : List Move) :
    (settle moves).balance + debits moves = credits moves + (settle moves).supplied := by
  induction moves using List.reverseRecOn with
  | nil => rfl
  | append_singleton moves move inductionHypothesis =>
    rw [settle_snoc, debits_append, credits_append, debits_singleton, credits_singleton]
    unfold Account.execute
    split <;> simp only <;> omega

/-- Outside supplies at most what is withdrawn. -/
theorem supplied_le_debits (moves : List Move) : (settle moves).supplied ≤ debits moves := by
  induction moves using List.reverseRecOn with
  | nil => simp [settle]
  | append_singleton moves move inductionHypothesis =>
    rw [settle_snoc, debits_append, debits_singleton]
    unfold Account.execute
    split <;> simp only <;> omega

/-- The balance never exceeds what was deposited. -/
theorem balance_le_credits (moves : List Move) : (settle moves).balance ≤ credits moves := by
  have conserved := settle_conserves moves
  have bounded := supplied_le_debits moves
  omega

/-- What outside supplies is enough capital. The last withdrawal of a longer list
is covered by conservation: whatever the account lacks is supplied. -/
theorem supplied_covers (moves : List Move) : Covers (settle moves).supplied moves := by
  induction moves using List.reverseRecOn with
  | nil => simp [Covers]
  | append_singleton moves move inductionHypothesis =>
    intro k inside
    rw [settle_snoc]
    have grown := supplied_le_execute (settle moves) move
    rcases Nat.lt_or_ge k moves.length with earlier | last
    · have covered := inductionHypothesis k earlier
      rw [List.take_append_of_le_length (by omega), List.take_append_of_le_length (by omega)]
      omega
    · obtain rfl : k = moves.length := by simp at inside; omega
      have conserved := settle_conserves moves
      rw [List.take_of_length_le (by simp), List.take_left, debits_append, debits_singleton]
      unfold Account.execute
      split <;> simp only <;> omega

/-- No smaller positive amount is: something is supplied only at a withdrawal
that leaves nothing over, and there the supply so far is exactly the excess of
the withdrawals over the earlier deposits. -/
theorem supplied_attained (moves : List Move) :
    (settle moves).supplied = 0 ∨ ∃ k < moves.length,
      debits (moves.take (k + 1)) = (settle moves).supplied + credits (moves.take k) := by
  induction moves using List.reverseRecOn with
  | nil => exact Or.inl rfl
  | append_singleton moves move inductionHypothesis =>
    rw [settle_snoc]
    by_cases short : (settle moves).balance < move.debit
    · right
      refine ⟨moves.length, by simp, ?_⟩
      have conserved := settle_conserves moves
      rw [List.take_of_length_le (by simp), List.take_left, debits_append, debits_singleton]
      simp only [Account.execute, if_pos short]
      omega
    · have unchanged : ((settle moves).execute move).supplied = (settle moves).supplied := by
        simp [Account.execute, short]
      rw [unchanged]
      rcases inductionHypothesis with nothing | ⟨k, inside, attained⟩
      · exact Or.inl nothing
      · refine Or.inr ⟨k, by simp; omega, ?_⟩
        rw [List.take_append_of_le_length (by omega), List.take_append_of_le_length (by omega)]
        exact attained

/-- What outside supplies is the least capital that affords all moves. -/
theorem supplied_isLeast (moves : List Move) :
    IsLeast {capital | Affords capital moves} (settle moves).supplied := by
  refine ⟨(affords_iff_covers moves _).mpr (supplied_covers moves), ?_⟩
  intro capital affords
  have covers := (affords_iff_covers moves capital).mp affords
  rcases supplied_attained moves with nothing | ⟨k, inside, attained⟩
  · omega
  · have needed := covers k inside
    omega

/-- It is also the largest excess of withdrawals over earlier deposits, or zero
when no such excess is positive. -/
theorem supplied_isGreatest (moves : List Move) :
    IsGreatest (insert (0 : Int) {excess | ∃ k < moves.length,
      excess = (debits (moves.take (k + 1)) : Int) - credits (moves.take k)})
      (settle moves).supplied := by
  constructor
  · rcases supplied_attained moves with nothing | ⟨k, inside, attained⟩
    · exact Or.inl (by omega)
    · exact Or.inr ⟨k, inside, by omega⟩
  · rintro excess (rfl | ⟨k, inside, rfl⟩)
    · omega
    · have covered := supplied_covers moves k inside
      omega

/-- What was supplied so far stays supplied. -/
theorem supplied_le_append (moves others : List Move) :
    (settle moves).supplied ≤ (settle (moves ++ others)).supplied := by
  induction others using List.reverseRecOn with
  | nil => simp
  | append_singleton others move inductionHypothesis =>
    rw [← List.append_assoc, settle_snoc]
    exact inductionHypothesis.trans (supplied_le_execute _ move)

/-- An account that starts with something is supplied that much less, and keeps what it would
not have been supplied. -/
theorem execute_from (held : Nat) (moves : List Move) :
    moves.foldl Account.execute ⟨held, 0⟩ =
      ⟨(settle moves).balance + (held - (settle moves).supplied),
        (settle moves).supplied - held⟩ := by
  induction moves using List.reverseRecOn with
  | nil => simp [settle]
  | append_singleton moves move inductionHypothesis =>
    rw [List.foldl_append, inductionHypothesis, settle_snoc]
    simp only [List.foldl_cons, List.foldl_nil, execute_eq, Account.mk.injEq]
    constructor <;> omega

/-- Nothing is supplied to an account that pays every withdrawal out of earlier deposits. -/
theorem supplied_eq_zero (moves : List Move) (affords : Affords 0 moves) :
    (settle moves).supplied = 0 :=
  Nat.le_zero.mp ((supplied_isLeast moves).2 affords)

end Graced.Overdraft
