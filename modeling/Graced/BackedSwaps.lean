import Graced.CallTree
import Graced.LegSelection
import Graced.Reports
import Graced.RootLists
import Mathlib.Data.List.Flatten

/-!
# Reported swaps are backed by transfers

Most dex parsers read a swap from two token transfers among the calls of its instruction. Over
a whole transaction these are different transfers for different swaps: in the order in which
the swaps are reported, the payments can be picked from the recorded inner instructions, each
with the signature of the swap's user, and so can the payouts. No swap is made up, and no
transfer is counted as the payment of two swaps. This takes every root instruction to have a
list of its own, as up to 256 of them do.
-/

namespace Graced.BackedSwaps

open CallTree Forest Reports LegSelection RootLists

/-- The transfer that a call is, if it is one. -/
def transferOf (env : Env) (keys : AccountKeys) (ix : CompiledInstruction) :
    Option TokenTransfer :=
  (parseTokenTransfer env keys ix.accounts ix.data ix.programIdIndex).toOption.join

/-- The transfers among calls. -/
def transfersAmong (env : Env) (keys : AccountKeys) (ixs : List CompiledInstruction) :
    List TokenTransfer :=
  ixs.filterMap (transferOf env keys)

/-- All transfers that were recorded, each once: by root instruction, and in the order in which
they ran. -/
def recordedTransfers (env : Env) (tx : SolanaTx) : List TokenTransfer :=
  tx.enumerated.flatMap (fun root =>
    transfersAmong env tx.accountKeys ((ownList tx root.2).map IxWithStackHeight.ix))

/-- The dexes whose parsers read nothing but transfers. -/
def readsTransfers (program : Program) : Bool :=
  (Dex.formatOf program).isSome || program = .humidiFi

/-- A swap and the two transfers from which it was read. -/
structure Backs (swap : DexSwap) (paid received : TokenTransfer) : Prop where
  signed : paid.signer = swap.user
  input : paid.amount.toNat ≤ 2 ^ 63 → swap.swap.inputAmount = paid.amount
  output : received.amount.toNat ≤ 2 ^ 63 → swap.swap.outputAmount = received.amount
  inputBound : swap.swap.inputAmount ≤ paid.amount
  outputBound : swap.swap.outputAmount ≤ received.amount
  inputMint : ∀ mint, paid.mint = some mint → swap.swap.inputMint = mint
  outputMint : ∀ mint, received.mint = some mint → swap.swap.outputMint = mint

/-! ## One instruction -/

/-- An amount never grows on its way through a signed integer. -/
theorem unsignedAbs_asI64_le (amount : UInt64) : unsignedAbs (asI64 amount) ≤ amount := by
  have bounded := amount.toNat_lt
  by_cases below : amount.toNat ≤ 2 ^ 63
  · exact UInt64.le_of_eq ((unsignedAbs_asI64_iff amount).mpr below)
  · have magnitude : (asI64 amount).natAbs = 2 ^ 64 - amount.toNat := by
      rw [asI64, if_neg (by omega)]
      omega
    rw [UInt64.le_iff_toNat_le, unsignedAbs, magnitude,
      UInt64.toNat_ofNat_of_lt' (by change _ < 2 ^ 64; omega)]
    omega

/-- The transfers among calls that can all be read are those that each of them is. -/
theorem parseMultiple_eq (env : Env) (keys : AccountKeys) (calls : List StackIx)
    (transfers : List TokenTransfer)
    (read : parseMultipleTokenTransfers env keys calls = .ok transfers) :
    transfers = transfersAmong env keys (calls.map StackIx.ix) := by
  induction calls generalizing transfers with
  | nil => exact (Except.ok.inj read).symm
  | cons call rest inductionHypothesis =>
    rw [parseMultipleTokenTransfers] at read
    change (parseTokenTransfer env keys call.ix.accounts call.ix.data call.ix.programIdIndex >>=
      fun parsed => _) = _ at read
    obtain ⟨parsed, atCall, later⟩ := (Outcome.exceptBind_ok_iff _ _ _).mp read
    obtain ⟨others, inRest, same⟩ := (Outcome.exceptBind_ok_iff _ _ _).mp later
    have found : transferOf env keys call.ix = parsed := by
      rw [transferOf, atCall]
      rfl
    rw [List.map_cons, transfersAmong, List.filterMap_cons, found]
    cases parsed with
    | none =>
      obtain rfl := Except.ok.inj same
      exact inductionHypothesis _ inRest
    | some transfer =>
      obtain rfl := Except.ok.inj same
      exact congrArg _ (inductionHypothesis _ inRest)

/-- What is found among the transfers of an instruction is backed by two of them. -/
theorem swapInfo_backed (env : Env) (view : IxView StackIx) (a b user market : Pubkey)
    (program : Program) (info : SwapInfo)
    (found : view.swapInfo env a b user = .ok (some info)) :
    ∃ paid ∈ transfersAmong env view.keys (view.ix.inner.map StackIx.ix),
      ∃ received ∈ transfersAmong env view.keys (view.ix.inner.map StackIx.ix),
        Backs ⟨user, market, program, info.toSwap⟩ paid received := by
  rw [IxView.swapInfo, Outcome.mapError_eq_ok, Outcome.ofExcept_eq_ok, getSwapInfo] at found
  obtain ⟨transfers, read, chosen⟩ := (Outcome.exceptBind_ok_iff _ _ _).mp found
  have readOk : parseMultipleTokenTransfers env view.keys view.ix.inner = .ok transfers := by
    change (parseMultipleTokenTransfers env view.keys view.ix.inner).mapError _ = _ at read
    cases parsed : parseMultipleTokenTransfers env view.keys view.ix.inner with
    | error error => rw [parsed] at read; cases read
    | ok others => rw [parsed] at read; exact congrArg Except.ok (Except.ok.inj read)
  rw [← parseMultiple_eq env view.keys view.ix.inner transfers readOk]
  rcases selects_or_nothing transfers a b user true with ⟨paid, received, selects⟩ | nothing
  · rw [of_selects selects] at chosen
    obtain ⟨readFrom, inputAmount, outputAmount⟩ := readSwap_some chosen
    refine ⟨paid, selects.pays.mem, received, selects.returns.mem, selects.signed, ?_, ?_, ?_, ?_,
      ?_, ?_⟩
    · exact fun below => inputAmount.trans ((unsignedAbs_asI64_iff _).mpr below)
    · exact fun below => outputAmount.trans ((unsignedAbs_asI64_iff _).mpr below)
    · exact inputAmount.trans_le (unsignedAbs_asI64_le _)
    · exact outputAmount.trans_le (unsignedAbs_asI64_le _)
    · intro mint named
      have resolved := readFrom.inputMint
      rw [mintOf, named] at resolved
      exact (Option.some.inj resolved).symm
    · intro mint named
      have resolved := readFrom.outputMint
      rw [mintOf, named] at resolved
      exact (Option.some.inj resolved).symm
  · rw [of_nothing nothing] at chosen
    cases chosen

/-- A layout is decoded as what is found among the transfers. -/
theorem decode_backed (format : Format) (env : Env) (view : IxView StackIx)
    (accs : InstructionAccounts) (layout : Layout) (swap : DexSwap)
    (decoded : format.decode env view accs layout = .ok (some swap)) :
    ∃ paid ∈ transfersAmong env view.keys (view.ix.inner.map StackIx.ix),
      ∃ received ∈ transfersAmong env view.keys (view.ix.inner.map StackIx.ix),
        Backs swap paid received := by
  simp only [Format.decode, Outcome.bind_ok_iff] at decoded
  obtain ⟨accounts, _, info, found, rest⟩ := decoded
  cases info with
  | some info =>
    obtain rfl := Option.some.inj (Outcome.ok.inj rest)
    exact swapInfo_backed env view _ _ _ _ _ info found
  | none => cases required : format.required <;> simp [required] at rest

/-- So is a format's swap. -/
theorem format_backed (format : Format) (env : Env) (view : IxView StackIx) (swap : DexSwap)
    (parsed : format.parse env view = .ok (some swap)) :
    ∃ paid ∈ transfersAmong env view.keys (view.ix.inner.map StackIx.ix),
      ∃ received ∈ transfersAmong env view.keys (view.ix.inner.map StackIx.ix),
        Backs swap paid received := by
  rw [Format.parse] at parsed
  split at parsed
  · simp only [Outcome.bind_ok_iff] at parsed
    obtain ⟨accs, _, data, _, rest⟩ := parsed
    split at rest
    · simp at rest
    · exact decode_backed format env view accs _ swap rest
  · obtain ⟨data, _, rest⟩ := (Outcome.bind_ok_iff _ _ _).mp parsed
    split at rest
    · obtain ⟨accs, _, found⟩ := (Outcome.bind_ok_iff _ _ _).mp rest
      split at found
      · simp at found
      · exact decode_backed format env view accs _ swap found
    · simp at rest

/-- And the swap of every parser that reads nothing but transfers. -/
theorem parse_backed (env : Env) (view : IxView StackIx) (program : Program) (swap : DexSwap)
    (reads : readsTransfers program = true)
    (parsed : Dex.parse env view program = .ok (some swap)) :
    ∃ paid ∈ transfersAmong env view.keys (view.ix.inner.map StackIx.ix),
      ∃ received ∈ transfersAmong env view.keys (view.ix.inner.map StackIx.ix),
        Backs swap paid received := by
  cases formatted : Dex.formatOf program with
  | some format =>
    rw [Dex.parse_formatOf env view program format formatted] at parsed
    exact format_backed format env view swap parsed
  | none =>
    obtain rfl : program = .humidiFi := by simpa [readsTransfers, formatted] using reads
    change Dex.humidifi env view = _ at parsed
    simp only [Dex.humidifi, Outcome.bind_ok_iff] at parsed
    obtain ⟨accs, _, accounts, _, info, found, rest⟩ := parsed
    cases info with
    | some info =>
      obtain rfl := Option.some.inj (Outcome.ok.inj rest)
      exact swapInfo_backed env view _ _ _ _ _ info found
    | none => simp at rest

/-- The label of a swap tells whether it was read from transfers. -/
theorem readsTransfers_labelOf (program : Program) :
    readsTransfers (Dex.labelOf program) = readsTransfers program := by
  cases program <;> rfl

/-! ## All instructions -/

/-- The transfers that the parser of a view reads. -/
def transfersOf (env : Env) (view : IxView StackIx) : List TokenTransfer :=
  transfersAmong env view.keys (view.ix.inner.map StackIx.ix)

/-- A swap found in a view, if it was read from transfers, is backed by two of them. -/
theorem found_backed (env : Env) (view : IxView StackIx) (swap : DexSwap)
    (read : (found env view).filter (fun swap => readsTransfers swap.program) = some swap) :
    ∃ paid ∈ transfersOf env view, ∃ received ∈ transfersOf env view, Backs swap paid received := by
  obtain ⟨atView, reads⟩ := Option.filter_eq_some_iff.mp read
  obtain ⟨program, _, parsed⟩ := Option.bind_eq_some_iff.mp atView
  have parsedOk : Dex.parse env view program = .ok (some swap) := by
    cases outcome : Dex.parse env view program with
    | ok yielded => rw [outcome] at parsed; exact congrArg Outcome.ok parsed
    | err | panic => rw [outcome] at parsed; cases parsed
  rw [Dex.parse_label env view program swap parsedOk, readsTransfers_labelOf] at reads
  exact parse_backed env view program swap reads parsedOk

/-- What is picked from every view is picked in order from all of them. -/
theorem pick_each (env : Env) (views : List (IxView StackIx)) :
    ∃ pairs : List (TokenTransfer × TokenTransfer),
      (pairs.map Prod.fst).Sublist (views.flatMap (transfersOf env)) ∧
      (pairs.map Prod.snd).Sublist (views.flatMap (transfersOf env)) ∧
      List.Forall₂ (fun swap pair => Backs swap pair.1 pair.2)
        ((views.filterMap (found env)).filter (fun swap => readsTransfers swap.program)) pairs := by
  induction views with
  | nil => exact ⟨[], .slnil, .slnil, .nil⟩
  | cons view rest inductionHypothesis =>
    obtain ⟨pairs, payments, payouts, backed⟩ := inductionHypothesis
    rw [List.filter_filterMap] at backed ⊢
    rw [List.filterMap_cons, List.flatMap_cons]
    cases atView : (found env view).filter (fun swap => readsTransfers swap.program) with
    | none =>
      exact ⟨pairs, payments.trans (List.sublist_append_right _ _),
        payouts.trans (List.sublist_append_right _ _), backed⟩
    | some swap =>
      obtain ⟨paid, paidHere, received, receivedHere, backs⟩ := found_backed env view swap atView
      exact ⟨(paid, received) :: pairs,
        (List.singleton_sublist.mpr paidHere).append payments,
        (List.singleton_sublist.mpr receivedHere).append payouts, .cons backs backed⟩

/-- The direct calls are among all calls. -/
theorem inner_sublist_flatten (calls : List StackIx) : calls.Sublist (StackIx.flatten calls) := by
  induction calls with
  | nil => exact .slnil
  | cons call rest inductionHypothesis =>
    exact (inductionHypothesis.trans (List.sublist_append_right _ _)).cons_cons call

/-- So are the direct calls of the direct calls. -/
theorem innermost_sublist_flatten (calls : List StackIx) :
    (calls.flatMap StackIx.inner).Sublist (StackIx.flatten calls) := by
  induction calls with
  | nil => exact .slnil
  | cons call rest inductionHypothesis =>
    obtain ⟨ix, inner, path⟩ := call
    exact ((inner_sublist_flatten inner).append inductionHypothesis).cons _

/-- Transfers among more calls are more transfers. -/
theorem transfersAmong_sublist (env : Env) (keys : AccountKeys) (fewer more : List StackIx)
    (sublist : fewer.Sublist more) :
    (transfersAmong env keys (fewer.map StackIx.ix)).Sublist
      (transfersAmong env keys (more.map StackIx.ix)) :=
  (sublist.map StackIx.ix).filterMap _

/-- The legs of a route read the transfers below the direct calls. -/
theorem hops_transfers (env : Env) (view : IxView StackIx) :
    (hops view).flatMap (transfersOf env) = transfersAmong env view.keys
      (((view.ix.inner.filter (Aggregator.isHop view)).flatMap StackIx.inner).map StackIx.ix) := by
  rw [hops, List.flatMap_map, transfersAmong, List.map_flatMap, List.filterMap_flatMap]
  rfl

/-- What the dex parsers read of a root instruction is among its recorded calls, each once. -/
theorem dexViews_transfers (env : Env) (view : IxView StackIx) :
    ((dexViews env view).flatMap (transfersOf env)).Sublist
      (transfersAmong env view.keys ((StackIx.flatten view.ix.inner).map StackIx.ix)) := by
  have nothing : (List.flatMap (transfersOf env) []).Sublist
      (transfersAmong env view.keys ((StackIx.flatten view.ix.inner).map StackIx.ix)) :=
    List.nil_sublist _
  rw [dexViews]
  cases view.program.toOption with
  | none => exact nothing
  | some program =>
    rw [Option.elim_some, dexViewsOf]
    split
    · split
      · rw [hops_transfers]
        exact transfersAmong_sublist env view.keys _ _
          ((List.filter_sublist.flatMap _).trans (innermost_sublist_flatten _))
      · exact nothing
    · split
      · rw [List.flatMap_singleton]
        exact transfersAmong_sublist env view.keys _ _ (inner_sublist_flatten _)
      · exact nothing

/-- The tree of a root instruction has the calls recorded under its position. -/
theorem rootView_record (env : Env) (tx : SolanaTx) (root : CompiledInstruction × Nat)
    (fits : root.2 < 256) (view : IxView StackIx) (viewed : rootView env tx root = some view) :
    view.keys = tx.accountKeys ∧
      (StackIx.flatten view.ix.inner).map StackIx.ix =
        (ownList tx root.2).map IxWithStackHeight.ix := by
  obtain ⟨tree, kept, rfl⟩ := Option.map_eq_some_iff.mp viewed
  obtain ⟨built, _⟩ := Option.filter_eq_some_iff.mp kept
  rw [Outcome.toOption_eq_some, rootInstruction_own env.profile fits, ownTree,
    buildIxStack_eq] at built
  split at built
  · simp at built
  · obtain rfl := Outcome.ok.inj built
    refine ⟨rfl, ?_⟩
    change (StackIx.flatten (place _ _ _ _)).map (fun ix => ix.ix) = _
    rw [flatten_ix, calls_place, preorder_map, preorder_nest]

/-- What all dex parsers read is among the recorded transfers, each once. -/
theorem dispatched_transfers (env : Env) (tx : SolanaTx) (few : tx.instructions.length ≤ 256) :
    ((dispatched env tx).flatMap (transfersOf env)).Sublist (recordedTransfers env tx) := by
  have fits : ∀ root ∈ tx.enumerated, root.2 < 256 := fun root listed =>
    Nat.lt_of_lt_of_le (enumerated_position listed) few
  rw [dispatched, recordedTransfers]
  revert fits
  induction tx.enumerated with
  | nil => exact fun _ => .slnil
  | cons root rest inductionHypothesis =>
    intro fits
    have others := inductionHypothesis fun other among =>
      fits other (List.mem_cons_of_mem _ among)
    rw [List.filterMap_cons, List.flatMap_cons]
    cases viewed : rootView env tx root with
    | none => exact others.trans (List.sublist_append_right _ _)
    | some view =>
      obtain ⟨sameKeys, sameCalls⟩ :=
        rootView_record env tx root (fits root List.mem_cons_self) view viewed
      rw [List.flatMap_cons, List.flatMap_append, ← sameKeys, ← sameCalls]
      exact (dexViews_transfers env view).append (by rw [sameKeys]; exact others)

/-- The reported swaps that were read from transfers are backed, in order, by different recorded
payments and by different recorded payouts. -/
theorem backed_by_transfers (env : Env) (tx : SolanaTx) (result : List Parsed)
    (few : tx.instructions.length ≤ 256) (ok : parseTransaction env tx = .ok result) :
    ∃ pairs : List (TokenTransfer × TokenTransfer),
      (pairs.map Prod.fst).Sublist (recordedTransfers env tx) ∧
      (pairs.map Prod.snd).Sublist (recordedTransfers env tx) ∧
      List.Forall₂ (fun swap pair => Backs swap pair.1 pair.2)
        ((reported result).filter (fun swap => readsTransfers swap.program)) pairs := by
  obtain ⟨pairs, payments, payouts, backed⟩ := pick_each env (dispatched env tx)
  rw [(reported_found env tx result ok).2]
  exact ⟨pairs, payments.trans (dispatched_transfers env tx few),
    payouts.trans (dispatched_transfers env tx few), backed⟩

/-- The only leg of a route is backed by the two transfers below it. -/
theorem backed_leg :
    ∃ pairs : List (TokenTransfer × TokenTransfer),
      (pairs.map Prod.fst).Sublist
        (recordedTransfers poolLibraries (routeTx .orca [2, 0, 3, 2, 4, 2, 5] Dex.swapDisc)) ∧
      (pairs.map Prod.snd).Sublist
        (recordedTransfers poolLibraries (routeTx .orca [2, 0, 3, 2, 4, 2, 5] Dex.swapDisc)) ∧
      List.Forall₂ (fun swap pair => Backs swap pair.1 pair.2)
        [⟨⟨2⟩, ⟨3⟩, .orca, ⟨100, 50, ⟨8⟩, ⟨9⟩⟩⟩] pairs :=
  backed_by_transfers poolLibraries (routeTx .orca [2, 0, 3, 2, 4, 2, 5] Dex.swapDisc)
    [.aggregator ⟨.axiomTrade, ⟨2⟩, some ⟨100, 50, ⟨8⟩, ⟨9⟩⟩,
      [.decoded ⟨⟨2⟩, ⟨3⟩, .orca, ⟨100, 50, ⟨8⟩, ⟨9⟩⟩⟩]⟩] (by decide) rfl

end Graced.BackedSwaps
