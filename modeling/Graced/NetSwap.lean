import Graced.Ledger
import Graced.Overdraft
import Mathlib.Algebra.Order.BigOperators.Group.List
import Mathlib.Algebra.Order.Ring.Nat

/-!
# The net swap of a route

Seen from one mint, a route is an account whose withdrawals are the inputs and
whose deposits are the outputs in that mint. The walk over the swaps keeps one
such account for every mint at once. On the entry mint, what outside supplies is
the reported input; on any other mint it is what was forgiven as dust.

Everything here holds in both builds: while the totals of every mint fit in 64
bits, no running balance and no running input can leave that range.
-/

namespace Graced.SwapGraph

open Overdraft

/-- The total of all outputs in a mint. -/
def produced (mint : Pubkey) (swaps : List Swap) : Nat :=
  ((swaps.filter (fun s => s.outputMint = mint)).map (fun s => s.outputAmount.toNat)).sum

/-- The total of all inputs in a mint. -/
def consumed (mint : Pubkey) (swaps : List Swap) : Nat :=
  ((swaps.filter (fun s => s.inputMint = mint)).map (fun s => s.inputAmount.toNat)).sum

/-- The totals of every mint are machine words. -/
def Fits (swaps : List Swap) : Prop :=
  ∀ mint, produced mint swaps < 2 ^ 64 ∧ consumed mint swaps < 2 ^ 64

/-- What one swap does to the account of a mint. -/
def moveOn (mint : Pubkey) (s : Swap) : Move where
  debit := if s.inputMint = mint then s.inputAmount.toNat else 0
  credit := if s.outputMint = mint then s.outputAmount.toNat else 0

/-- Holding this much of a mint before the first swap, the swaps can be executed in
order without ever being short of it. -/
def NeverShort (capital : Nat) (mint : Pubkey) (swaps : List Swap) : Prop :=
  Affords capital (swaps.map (moveOn mint))

/-- The account of a mint after some swaps. -/
def account (mint : Pubkey) (swaps : List Swap) : Account := settle (swaps.map (moveOn mint))

theorem credits_moves (mint : Pubkey) (swaps : List Swap) :
    credits (swaps.map (moveOn mint)) = produced mint swaps := by
  induction swaps with
  | nil => rfl
  | cons s rest inductionHypothesis =>
    have whole : credits ((s :: rest).map (moveOn mint)) =
        (moveOn mint s).credit + produced mint rest := by
      rw [← inductionHypothesis]
      rfl
    rw [whole]
    by_cases out : s.outputMint = mint <;> simp [produced, moveOn, out]

theorem debits_moves (mint : Pubkey) (swaps : List Swap) :
    debits (swaps.map (moveOn mint)) = consumed mint swaps := by
  induction swaps with
  | nil => rfl
  | cons s rest inductionHypothesis =>
    have whole : debits ((s :: rest).map (moveOn mint)) =
        (moveOn mint s).debit + consumed mint rest := by
      rw [← inductionHypothesis]
      rfl
    rw [whole]
    by_cases into : s.inputMint = mint <;> simp [consumed, moveOn, into]

/-- Totals only grow along a route. -/
theorem fits_of_append (swaps others : List Swap) (fits : Fits (swaps ++ others)) : Fits swaps := by
  intro mint
  have whole := fits mint
  simp only [produced, consumed, List.filter_append, List.map_append, List.sum_append] at whole
  exact ⟨by unfold produced; omega, by unfold consumed; omega⟩

/-- The totals over all mints bound the totals of each. -/
theorem fits_of_total (swaps : List Swap)
    (outputs : (swaps.map (fun s => s.outputAmount.toNat)).sum < 2 ^ 64)
    (inputs : (swaps.map (fun s => s.inputAmount.toNat)).sum < 2 ^ 64) : Fits swaps := by
  intro mint
  have fewer (wanted : Swap → Bool) (amount : Swap → Nat) :
      ((swaps.filter wanted).map amount).sum ≤ (swaps.map amount).sum :=
    (List.filter_sublist.map amount).sum_le_sum (fun _ _ => Nat.zero_le _)
  exact ⟨Nat.lt_of_le_of_lt (fewer _ _) outputs, Nat.lt_of_le_of_lt (fewer _ _) inputs⟩

/-- The walk has every mint's account in its balances and the entry mint's supply
in its net input. -/
structure Tracks (entry : Pubkey) (done : List Swap) (walk : Walk) : Prop where
  balance : ∀ mint, (walk.available mint).toNat = (account mint done).balance
  netInput : walk.netInput.toNat = (account entry done).supplied

theorem start_tracks (entry : Pubkey) : Tracks entry [] Walk.start :=
  ⟨fun _ => rfl, rfl⟩

/-- The shortfall on a mint that executing a swap forgives as dust. -/
def forgiven (entry mint : Pubkey) (walk : Walk) (s : Swap) : Nat :=
  let avail := walk.available s.inputMint
  if s.inputMint = mint ∧ mint ≠ entry ∧ avail < s.inputAmount ∧
      isDust (s.inputAmount - avail) s.inputAmount then
    (s.inputAmount - avail).toNat
  else 0

/-- All shortfalls on a mint that the walk over the swaps forgives. -/
def forgivenTotal (profile : Profile) (entry mint : Pubkey) : Walk → List Swap → Nat
  | _, [] => 0
  | walk, s :: rest => forgiven entry mint walk s +
    match step profile entry walk s with
    | .ok next => forgivenTotal profile entry mint next rest
    | _ => 0

/-- The account of a mint after one more swap. -/
theorem account_snoc (mint : Pubkey) (done : List Swap) (s : Swap) :
    account mint (done ++ [s]) = (account mint done).execute (moveOn mint s) := by
  simp [account]

/-- A balance is at most what was produced. -/
theorem account_balance_le (mint : Pubkey) (swaps : List Swap) :
    (account mint swaps).balance ≤ produced mint swaps := by
  rw [← credits_moves]
  exact balance_le_credits _

/-- Outside supplies at most what is consumed. -/
theorem account_supplied_le (mint : Pubkey) (swaps : List Swap) :
    (account mint swaps).supplied ≤ consumed mint swaps := by
  rw [← debits_moves]
  exact supplied_le_debits _

/-- The ledger has the accounts of all mints in its balances, and the supply of the entry
mint in its input. -/
theorem ledger_account (entry : Pubkey) (done : List Swap) :
    (∀ mint, (Ledger.after entry done).balance mint = (account mint done).balance) ∧
      (Ledger.after entry done).netInput = (account entry done).supplied := by
  induction done using List.reverseRecOn with
  | nil => exact ⟨fun _ => rfl, rfl⟩
  | append_singleton done s inductionHypothesis =>
    obtain ⟨balances, input⟩ := inductionHypothesis
    have next : Ledger.after entry (done ++ [s]) = (Ledger.after entry done).execute entry s := by
      simp [Ledger.after]
    constructor
    · intro mint
      rw [next, Ledger.execute_balance, account_snoc, execute_eq, balances]
      rfl
    · rw [next, account_snoc, execute_eq, Ledger.execute, input]
      by_cases same : s.inputMint = entry
      · simp [same, moveOn, Ledger.shortfall, balances]
      · simp [same, moveOn]

/-- While the totals fit, no account and no supply leaves the range of a word. -/
theorem account_fits (mint : Pubkey) (swaps : List Swap) (fits : Fits swaps) :
    (account mint swaps).balance < 2 ^ 64 ∧ (account mint swaps).supplied < 2 ^ 64 :=
  ⟨Nat.lt_of_le_of_lt (account_balance_le mint swaps) (fits mint).1,
    Nat.lt_of_le_of_lt (account_supplied_le mint swaps) (fits mint).2⟩

/-- A route whose totals fit gets to no balance of 2 ^ 64. -/
theorem reached_fits (entry : Pubkey) (swaps : List Swap) (fits : Fits swaps)
    (reached : Ledger) (gotThere : Reached entry .start swaps reached) : reached.BalancesFit := by
  obtain ⟨before, after, rfl, _, rfl⟩ := gotThere
  intro mint
  have balances := (ledger_account entry before).1 mint
  rw [show before.foldl (Ledger.execute entry) .start = .after entry before from rfl, balances]
  exact (account_fits mint before (fits_of_append before after fits)).1

/-- A walk that has every mint's account follows the ledger. -/
theorem follows_of_tracks (entry : Pubkey) (done : List Swap) (walk : Walk)
    (tracks : Tracks entry done walk) : Follows (.after entry done) walk := by
  obtain ⟨balances, input⟩ := ledger_account entry done
  constructor
  · intro mint
    rw [tracks.balance, balances]
  · have bounded := walk.netInput.toNat_lt
    rw [input, ← tracks.netInput]
    omega

/-- One successful step executes the swap on every account. The credit cannot
overflow: the balance it produces is at most what was produced so far. -/
theorem step_tracks (profile : Profile) (entry : Pubkey) (done : List Swap) (walk next : Walk)
    (s : Swap) (tracks : Tracks entry done walk) (fits : Fits (done ++ [s]))
    (success : step profile entry walk s = .ok next) :
    Tracks entry (done ++ [s]) next ∧ ∀ mint, mint ≠ entry →
      (account mint (done ++ [s])).supplied =
        (account mint done).supplied + forgiven entry mint walk s := by
  have follows := follows_of_tracks entry done walk tracks
  obtain ⟨balances, input⟩ := ledger_account entry (done ++ [s])
  have executed : Ledger.after entry (done ++ [s]) = (Ledger.after entry done).execute entry s := by
    simp [Ledger.after]
  have room : ¬ walk.Overflows entry s := by
    rw [overflows_iff follows, ← executed, balances]
    exact Nat.not_le_of_lt (account_fits _ _ fits).1
  rw [step_eq] at success
  by_cases refused : refuses entry s (walk.missing s) = true
  · simp [refused] at success
  rw [if_neg refused, if_neg (fun both => room both.2)] at success
  obtain rfl := Outcome.ok.inj success
  have settled := settled_follows follows entry s room
  rw [← executed] at settled
  refine ⟨⟨fun mint => by rw [settled.balance, balances], ?_⟩, ?_⟩
  · have bounded := (account_fits entry _ fits).2
    rw [settled.netInput, input]
    omega
  · intro mint different
    rw [account_snoc, execute_eq]
    have held := tracks.balance mint
    by_cases same : s.inputMint = mint
    · subst same
      have dust : isDust (walk.missing s) s.inputAmount = true := by
        simpa [refuses, different] using refused
      have missing : (walk.missing s).toNat =
          s.inputAmount.toNat - (account s.inputMint done).balance := by
        rw [Walk.missing, lacking_toNat, held]
      by_cases short : walk.available s.inputMint < s.inputAmount
      · rw [Walk.missing, lacking, if_pos short] at dust missing
        simp [moveOn, forgiven, different, short, dust, missing]
      · have enough : ¬ (account s.inputMint done).balance < s.inputAmount.toNat := by
          rw [← held]
          exact short
        simp only [moveOn, forgiven, short, if_true, false_and, and_false, if_false]
        omega
    · simp [moveOn, forgiven, same]

/-- The whole walk executes all of its swaps on every account, and what the
account of another mint than the entry was supplied is what was forgiven on it. -/
theorem walk_tracks (profile : Profile) (entry : Pubkey) (swaps done : List Swap)
    (state final : Walk) (tracks : Tracks entry done state) (fits : Fits (done ++ swaps))
    (success : walk profile entry state swaps = .ok final) :
    Tracks entry (done ++ swaps) final ∧ ∀ mint, mint ≠ entry →
      (account mint (done ++ swaps)).supplied =
        (account mint done).supplied + forgivenTotal profile entry mint state swaps := by
  induction swaps generalizing done state with
  | nil =>
    obtain rfl : state = final := Outcome.ok.inj success
    simpa [forgivenTotal] using tracks
  | cons s rest inductionHypothesis =>
    simp only [walk, Outcome.bind_ok_iff] at success
    obtain ⟨next, stepped, continued⟩ := success
    have split : done ++ s :: rest = (done ++ [s]) ++ rest := by simp
    rw [split] at fits ⊢
    have now := step_tracks profile entry done state next s tracks
      (fits_of_append _ _ fits) stepped
    have later := inductionHypothesis (done ++ [s]) next now.1 fits continued
    refine ⟨later.1, ?_⟩
    intro mint different
    rw [later.2 mint different, now.2 mint different]
    simp only [forgivenTotal, stepped]
    omega

/-- What a net swap consists of, in terms of the accounts of the whole route. -/
theorem swap_tracks (profile : Profile) (swaps : List Swap) (nonempty : swaps ≠ []) (net : Swap)
    (fits : Fits swaps) (success : swap profile ⟨swaps⟩ = .ok net) :
    net.inputMint = (swaps.head nonempty).inputMint ∧
    net.outputMint = (swaps.getLast nonempty).outputMint ∧
    net.inputAmount.toNat = (account net.inputMint swaps).supplied ∧
    net.outputAmount.toNat = (account net.outputMint swaps).balance ∧
    ∀ mint, mint ≠ net.inputMint → (account mint swaps).supplied =
      forgivenTotal profile net.inputMint mint Walk.start swaps := by
  cases swaps with
  | nil => exact absurd rfl nonempty
  | cons first rest =>
    simp only [swap, Outcome.bind_ok_iff, Outcome.pure_eq, Outcome.ok.injEq] at success
    obtain ⟨final, walked, rfl⟩ := success
    have tracked := walk_tracks profile first.inputMint (first :: rest) [] Walk.start final
      (start_tracks first.inputMint) fits walked
    refine ⟨rfl, rfl, tracked.1.netInput, tracked.1.balance _, ?_⟩
    intro mint different
    have exactSupply := tracked.2 mint different
    simpa [account, settle] using exactSupply

/-- The reported input is the least capital that lets the route run, and it is the
largest amount by which the inputs up to some swap exceed the outputs before it. -/
theorem input_amount_minimal (profile : Profile) (swaps : List Swap) (nonempty : swaps ≠ [])
    (net : Swap) (fits : Fits swaps) (success : swap profile ⟨swaps⟩ = .ok net) :
    IsLeast {capital | NeverShort capital (swaps.head nonempty).inputMint swaps}
      net.inputAmount.toNat ∧
    IsGreatest (insert (0 : Int) {excess | ∃ k < swaps.length,
      excess = (consumed (swaps.head nonempty).inputMint (swaps.take (k + 1)) : Int) -
        produced (swaps.head nonempty).inputMint (swaps.take k)})
      net.inputAmount.toNat := by
  obtain ⟨entry, _, input, _, _⟩ := swap_tracks profile swaps nonempty net fits success
  rw [input, entry]
  refine ⟨supplied_isLeast _, ?_⟩
  have greatest := supplied_isGreatest (swaps.map (moveOn (swaps.head nonempty).inputMint))
  simpa only [account, List.length_map, ← List.map_take, debits_moves, credits_moves]
    using greatest

/-- A route that returns to its entry mint after a gain asks for the first input only. -/
theorem input_amount_minimal_of_gain :
    IsLeast {capital | NeverShort capital ⟨0xA⟩
      [⟨5, 9, ⟨0xA⟩, ⟨0xB⟩⟩, ⟨9, 8, ⟨0xB⟩, ⟨0xA⟩⟩, ⟨7, 4, ⟨0xA⟩, ⟨0xC⟩⟩]} 5 :=
  (input_amount_minimal ⟨true⟩
    [⟨5, 9, ⟨0xA⟩, ⟨0xB⟩⟩, ⟨9, 8, ⟨0xB⟩, ⟨0xA⟩⟩, ⟨7, 4, ⟨0xA⟩, ⟨0xC⟩⟩] (by decide)
    ⟨5, 4, ⟨0xA⟩, ⟨0xC⟩⟩ (fits_of_total _ (by decide) (by decide)) (by decide)).1

/-- Every unit of the exit mint is accounted for: what was produced and what came
from outside is either consumed along the way or reported as output. -/
theorem output_amount_conserved (profile : Profile) (swaps : List Swap) (nonempty : swaps ≠ [])
    (net : Swap) (fits : Fits swaps) (success : swap profile ⟨swaps⟩ = .ok net) :
    net.outputMint = (swaps.getLast nonempty).outputMint ∧
    (net.outputAmount.toNat : Int) =
      (produced net.outputMint swaps : Int) - consumed net.outputMint swaps +
        (if net.outputMint = (swaps.head nonempty).inputMint then net.inputAmount.toNat
          else forgivenTotal profile (swaps.head nonempty).inputMint net.outputMint
            Walk.start swaps) := by
  obtain ⟨entry, exit, input, output, forgave⟩ :=
    swap_tracks profile swaps nonempty net fits success
  refine ⟨exit, ?_⟩
  have conserved := settle_conserves (swaps.map (moveOn net.outputMint))
  rw [debits_moves, credits_moves] at conserved
  change (account net.outputMint swaps).balance + _ = _ +
    (account net.outputMint swaps).supplied at conserved
  rw [← entry]
  by_cases same : net.outputMint = net.inputMint
  · rw [if_pos same, output, input, ← same]
    omega
  · rw [if_neg same, output, ← forgave _ same]
    omega

/-- One unit of the exit mint is missing halfway, little enough to count as dust. -/
def dustRoute : List Swap :=
  [⟨5, 9999, ⟨0xA⟩, ⟨0xB⟩⟩, ⟨10000, 1, ⟨0xB⟩, ⟨0xC⟩⟩, ⟨1, 7, ⟨0xC⟩, ⟨0xB⟩⟩]

/-- The forgiven unit shows up in the output. -/
theorem output_amount_conserved_of_dust :
    (7 : Int) = (produced ⟨0xB⟩ dustRoute : Int) - consumed ⟨0xB⟩ dustRoute +
      forgivenTotal ⟨true⟩ ⟨0xA⟩ ⟨0xB⟩ Walk.start dustRoute :=
  (output_amount_conserved ⟨true⟩ dustRoute (by decide) ⟨5, 7, ⟨0xA⟩, ⟨0xB⟩⟩
    (fits_of_total _ (by decide) (by decide)) (by decide)).2

end Graced.SwapGraph
