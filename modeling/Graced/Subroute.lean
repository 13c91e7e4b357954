import Graced.NetSwap

/-!
# A part of a route in place of its net swap

An aggregator may run a whole route of another one as a single leg. Such a part of a route
can be netted by itself first: where it spends nothing it has not produced, except its own
input, and leaves nothing but its own output, the route with the part and the route with
the part's net swap come to the same end. The input has to be at hand when the part begins,
or to be the caller's.

Executing swaps on a ledger that holds something is compared with executing them alone, one
mint at a time.
-/

namespace Graced.SwapGraph

open FirstInput Overdraft

/-- Alone, the swaps are never short of a mint other than the net input's, and what they
produce they consume, up to the net input and the net output. -/
structure SelfContained (swaps : List Swap) (net : Swap) : Prop where
  spendsOwn : ∀ mint, mint ≠ net.inputMint → NeverShort 0 mint swaps
  leavesNothing : ∀ mint, mint ≠ net.outputMint →
    produced mint swaps + (if mint = net.inputMint then net.inputAmount.toNat else 0) =
      consumed mint swaps

/-- The input of a swap is the caller's, or at hand after the swaps before it. -/
def Funded (entry : Pubkey) (before : List Swap) (s : Swap) : Prop :=
  s.inputMint = entry ∨ s.inputAmount.toNat ≤ (account s.inputMint before).balance

theorem produced_append (mint : Pubkey) (swaps others : List Swap) :
    produced mint (swaps ++ others) = produced mint swaps + produced mint others := by
  simp [produced]

theorem consumed_append (mint : Pubkey) (swaps others : List Swap) :
    consumed mint (swaps ++ others) = consumed mint swaps + consumed mint others := by
  simp [consumed]

theorem account_singleton (mint : Pubkey) (s : Swap) :
    account mint [s] = ⟨if s.outputMint = mint then s.outputAmount.toNat else 0,
      if s.inputMint = mint then s.inputAmount.toNat else 0⟩ := by
  simp [account, settle, execute_eq, moveOn]

/-! ## Swaps on a ledger that holds something -/

/-- Every mint of a ledger is an account that starts with its balance. -/
theorem foldl_accounts (entry : Pubkey) (ledger : Ledger) (swaps : List Swap) :
    (∀ mint, (swaps.foldl (Ledger.execute entry) ledger).balance mint =
      ((swaps.map (moveOn mint)).foldl Account.execute ⟨ledger.balance mint, 0⟩).balance) ∧
    (swaps.foldl (Ledger.execute entry) ledger).netInput = ledger.netInput +
      ((swaps.map (moveOn entry)).foldl Account.execute ⟨ledger.balance entry, 0⟩).supplied := by
  induction swaps using List.reverseRecOn with
  | nil => simp
  | append_singleton swaps s inductionHypothesis =>
    obtain ⟨balances, input⟩ := inductionHypothesis
    simp only [List.foldl_append, List.map_append, List.foldl_cons, List.foldl_nil, List.map_cons,
      List.map_nil, execute_eq]
    constructor
    · intro mint
      rw [Ledger.execute_balance, balances]
      rfl
    · rw [Ledger.execute, input]
      by_cases same : s.inputMint = entry
      · simp only [same, moveOn, Ledger.shortfall, balances, if_true]
        omega
      · simp [same, moveOn]

/-- A ledger comes out of some swaps with what they leave alone, and with what they were not
supplied of its own balances. -/
theorem foldl_execute (entry : Pubkey) (ledger : Ledger) (swaps : List Swap) :
    (∀ mint, (swaps.foldl (Ledger.execute entry) ledger).balance mint =
      (account mint swaps).balance + (ledger.balance mint - (account mint swaps).supplied)) ∧
    (swaps.foldl (Ledger.execute entry) ledger).netInput =
      ledger.netInput + ((account entry swaps).supplied - ledger.balance entry) := by
  obtain ⟨balances, input⟩ := foldl_accounts entry ledger swaps
  constructor
  · intro mint
    rw [balances, execute_from]
    rfl
  · rw [input, execute_from]
    rfl

/-- A ledger that has at hand what the swaps are supplied with alone refuses none of them. -/
theorem firstRefused_of_supplied (entry : Pubkey) (ledger : Ledger) (swaps : List Swap)
    (atHand : ∀ mint, mint ≠ entry → (account mint swaps).supplied ≤ ledger.balance mint) :
    firstRefused entry ledger swaps = none := by
  apply (firstWhere_eq_none_iff _ _ ledger swaps).mpr
  rintro before s after rfl
  by_cases own : s.inputMint = entry
  · simp [noticed, short, own]
  · have upToHere : (account s.inputMint (before ++ [s])).supplied ≤
        ledger.balance s.inputMint := by
      refine le_trans ?_ (atHand s.inputMint own)
      have grown := supplied_le_append ((before ++ [s]).map (moveOn s.inputMint))
        (after.map (moveOn s.inputMint))
      rw [← List.map_append, List.append_assoc] at grown
      exact grown
    rw [account_snoc, execute_eq] at upToHere
    have held := (foldl_execute entry ledger before).1 s.inputMint
    have nothing : (before.foldl (Ledger.execute entry) ledger).shortfall s = 0 := by
      simp only [moveOn, if_true] at upToHere
      rw [Ledger.shortfall, held]
      omega
    simp [noticed, short, nothing]

/-! ## Routes that come to the same end -/

/-- Two routes with one entry and one exit, the same first refused swap and the same ledger in
the end have the same net swap, or the same error. -/
theorem swap_congr (profile : Profile) (swaps others : List Swap) (nonempty : swaps ≠ [])
    (otherNonempty : others ≠ []) (fits : Fits swaps) (otherFits : Fits others)
    (entry : (others.head otherNonempty).inputMint = (swaps.head nonempty).inputMint)
    (exit : (others.getLast otherNonempty).outputMint = (swaps.getLast nonempty).outputMint)
    (refused : firstRefused (swaps.head nonempty).inputMint .start others =
      firstRefused (swaps.head nonempty).inputMint .start swaps)
    (after : Ledger.after (swaps.head nonempty).inputMint others =
      Ledger.after (swaps.head nonempty).inputMint swaps) :
    swap profile ⟨others⟩ = swap profile ⟨swaps⟩ := by
  have otherEnds := swap_ends profile others otherNonempty (reached_fits _ others otherFits)
  rw [entry, exit, refused, after] at otherEnds
  rcases swap_ends profile swaps nonempty (reached_fits _ swaps fits) with
    ⟨found, s, stopped, failed⟩ | ⟨passed, net, success, input, output⟩
  · rcases otherEnds with ⟨otherFound, otherS, otherStopped, otherFailed⟩ | ⟨otherPassed, _⟩
    · obtain ⟨rfl, rfl⟩ := Prod.mk.inj (Option.some.inj (stopped.symm.trans otherStopped))
      rw [failed, otherFailed]
    · simp [otherPassed] at stopped
  · rcases otherEnds with
      ⟨_, _, otherStopped, _⟩ | ⟨_, otherNet, otherSuccess, otherInput, otherOutput⟩
    · simp [passed] at otherStopped
    · obtain ⟨inputMint, outputMint, _⟩ := swap_tracks profile swaps nonempty net fits success
      obtain ⟨otherInputMint, otherOutputMint, _⟩ :=
        swap_tracks profile others otherNonempty otherNet otherFits otherSuccess
      have inputs : otherNet.inputAmount = net.inputAmount :=
        UInt64.toNat_inj.mp (otherInput.trans input.symm)
      have outputs : otherNet.outputAmount = net.outputAmount :=
        UInt64.toNat_inj.mp (otherOutput.trans output.symm)
      rw [success, otherSuccess]
      cases net
      cases otherNet
      simp_all

section Part

variable {profile : Profile} {middle : List Swap} {net : Swap} (nonempty : middle ≠ [])
  (fits : Fits middle) (netted : swap profile ⟨middle⟩ = .ok net)
  (selfContained : SelfContained middle net)
include nonempty fits netted selfContained

/-- The accounts of a self-contained part are those of its net swap alone. -/
theorem account_net (mint : Pubkey) : account mint middle = account mint [net] := by
  obtain ⟨inputMint, outputMint, input, output, _⟩ :=
    swap_tracks profile middle nonempty net fits netted
  have conserved := settle_conserves (middle.map (moveOn mint))
  rw [debits_moves, credits_moves] at conserved
  change (account mint middle).balance + _ = _ + (account mint middle).supplied at conserved
  have supplied : (account mint middle).supplied =
      if net.inputMint = mint then net.inputAmount.toNat else 0 := by
    by_cases own : net.inputMint = mint
    · subst own
      rw [if_pos rfl, input]
    · rw [if_neg own]
      exact supplied_eq_zero _ (selfContained.spendsOwn mint (Ne.symm own))
  have balance : (account mint middle).balance =
      if net.outputMint = mint then net.outputAmount.toNat else 0 := by
    by_cases own : net.outputMint = mint
    · subst own
      rw [if_pos rfl, output]
    · have left := selfContained.leavesNothing mint (Ne.symm own)
      rw [if_neg own]
      rw [supplied] at conserved
      simp only [eq_comm (a := mint)] at left
      omega
  rw [account_singleton, ← supplied, ← balance]

/-- Wherever a self-contained part begins, it does to the ledger what its net swap does. -/
theorem foldl_net (entry : Pubkey) (ledger : Ledger) :
    middle.foldl (Ledger.execute entry) ledger = [net].foldl (Ledger.execute entry) ledger := by
  obtain ⟨balances, input⟩ := foldl_execute entry ledger middle
  obtain ⟨netBalances, netInput⟩ := foldl_execute entry ledger [net]
  have same (mint : Pubkey) : account mint middle = account mint [net] :=
    account_net nonempty fits netted selfContained mint
  have held : (middle.foldl (Ledger.execute entry) ledger).balance =
      ([net].foldl (Ledger.execute entry) ledger).balance := by
    funext mint
    rw [balances, netBalances, same]
  have paid : (middle.foldl (Ledger.execute entry) ledger).netInput =
      ([net].foldl (Ledger.execute entry) ledger).netInput := by
    rw [input, netInput, same]
  cases whole : middle.foldl (Ledger.execute entry) ledger
  cases alone : [net].foldl (Ledger.execute entry) ledger
  simp_all

/-- The totals of a net swap are within the totals of the part. -/
theorem fits_net (before after : List Swap) (fitsAll : Fits (before ++ middle ++ after)) :
    Fits (before ++ [net] ++ after) := by
  intro mint
  have whole := fitsAll mint
  have same := account_net nonempty fits netted selfContained mint
  have most := account_balance_le mint middle
  have mostSupplied := account_supplied_le mint middle
  rw [same, account_singleton] at most mostSupplied
  have paidOut : produced mint [net] ≤ produced mint middle := by
    by_cases own : net.outputMint = mint <;> simp_all [produced]
  have takenIn : consumed mint [net] ≤ consumed mint middle := by
    by_cases own : net.inputMint = mint <;> simp_all [consumed]
  simp only [produced_append, consumed_append] at whole ⊢
  omega

end Part

/-- A self-contained part that is funded is refused nowhere, and neither is its net swap. -/
theorem firstRefused_part (profile : Profile) (before middle : List Swap) (net : Swap)
    (entry : Pubkey) (nonempty : middle ≠ []) (fits : Fits middle)
    (netted : swap profile ⟨middle⟩ = .ok net) (selfContained : SelfContained middle net)
    (funded : Funded entry before net) :
    firstRefused entry (.after entry before) middle = none ∧
      firstRefused entry (.after entry before) [net] = none := by
  have atHand (mint : Pubkey) (external : mint ≠ entry) :
      (account mint [net]).supplied ≤ (Ledger.after entry before).balance mint := by
    rw [account_singleton, (ledger_account entry before).1]
    by_cases own : net.inputMint = mint
    · subst own
      rw [if_pos rfl]
      exact funded.resolve_left external
    · rw [if_neg own]
      exact Nat.zero_le _
  refine ⟨firstRefused_of_supplied entry _ middle ?_, firstRefused_of_supplied entry _ _ atHand⟩
  intro mint external
  rw [account_net nonempty fits netted selfContained]
  exact atHand mint external

/-- Netting composes: a self-contained part of a route may be netted first, and its net swap
put in its place. -/
theorem netting_composes (profile : Profile) (before middle after : List Swap) (net : Swap)
    (nonempty : middle ≠ []) (fits : Fits (before ++ middle ++ after))
    (netted : swap profile ⟨middle⟩ = .ok net) (selfContained : SelfContained middle net)
    (funded : Funded (((before ++ middle ++ after).head (by simp [nonempty])).inputMint)
      before net) :
    swap profile ⟨before ++ [net] ++ after⟩ = swap profile ⟨before ++ middle ++ after⟩ := by
  have fitsMiddle : Fits middle := by
    intro mint
    have whole := fits mint
    simp only [produced_append, consumed_append] at whole
    omega
  obtain ⟨inputMint, outputMint, _⟩ := swap_tracks profile middle nonempty net fitsMiddle netted
  refine swap_congr profile (before ++ middle ++ after) (before ++ [net] ++ after)
    (by simp [nonempty]) (by simp) fits
    (fits_net nonempty fitsMiddle netted selfContained before after fits) ?_ ?_ ?_ ?_
  · cases before with
    | nil => simp [List.head_append_of_ne_nil nonempty, inputMint]
    | cons first others => rfl
  · cases after using List.reverseRecOn with
    | nil => simp [List.getLast_append_of_ne_nil _ nonempty, outputMint]
    | append_singleton others last => simp [← List.append_assoc]
  · obtain ⟨passes, netPasses⟩ := firstRefused_part profile before middle net _ nonempty fitsMiddle
      netted selfContained funded
    have same := foldl_net nonempty fitsMiddle netted selfContained
    unfold firstRefused at passes netPasses ⊢
    simp only [firstWhere_append, List.foldl_append, same]
    simp only [Ledger.after] at passes netPasses
    rw [passes, netPasses]
  · have same := foldl_net nonempty fitsMiddle netted selfContained
    simp only [Ledger.after, List.foldl_append, same]

/-- A route within a route: its input is split over two legs that meet in the middle. -/
def innerRoute (input hub output : Pubkey) : List Swap :=
  [⟨5, 7, input, hub⟩, ⟨15, 9, input, hub⟩, ⟨16, 4, hub, output⟩]

/-- It spends what it produces, and nothing else but its input. -/
theorem innerRoute_selfContained (input hub output : Pubkey) (first : input ≠ hub)
    (second : hub ≠ output) (ends : input ≠ output) :
    SelfContained (innerRoute input hub output) ⟨20, 4, input, output⟩ where
  spendsOwn := by
    intro mint other
    by_cases isHub : hub = mint
    · subst isHub
      simp [NeverShort, innerRoute, moveOn, Affords, first]
    · simp [NeverShort, innerRoute, moveOn, Affords, isHub, Ne.symm other]
  leavesNothing := by
    intro mint other
    by_cases isHub : hub = mint
    · subst isHub
      simp [produced, consumed, innerRoute, first, Ne.symm first, Ne.symm second]
    · by_cases isInput : input = mint
      · subst isInput
        simp [produced, consumed, innerRoute, Ne.symm first, Ne.symm ends]
      · simp [produced, consumed, innerRoute, isHub, isInput, Ne.symm isInput, Ne.symm other]

/-- An outer route nets the same with the inner route's net swap as one leg. -/
theorem netting_composes_nested :
    swap ⟨true⟩ ⟨[⟨10, 20, ⟨0xA⟩, ⟨0xB⟩⟩] ++ [⟨20, 4, ⟨0xB⟩, ⟨0xD⟩⟩] ++
      [⟨4, 50, ⟨0xD⟩, ⟨0xE⟩⟩]⟩ =
    swap ⟨true⟩ ⟨[⟨10, 20, ⟨0xA⟩, ⟨0xB⟩⟩] ++ innerRoute ⟨0xB⟩ ⟨0xC⟩ ⟨0xD⟩ ++
      [⟨4, 50, ⟨0xD⟩, ⟨0xE⟩⟩]⟩ :=
  netting_composes ⟨true⟩ [⟨10, 20, ⟨0xA⟩, ⟨0xB⟩⟩] (innerRoute ⟨0xB⟩ ⟨0xC⟩ ⟨0xD⟩)
    [⟨4, 50, ⟨0xD⟩, ⟨0xE⟩⟩] ⟨20, 4, ⟨0xB⟩, ⟨0xD⟩⟩ (by decide)
    (fits_of_total _ (by decide) (by decide)) (by decide)
    (innerRoute_selfContained _ _ _ (by decide) (by decide) (by decide)) (.inr (by decide))

end Graced.SwapGraph
