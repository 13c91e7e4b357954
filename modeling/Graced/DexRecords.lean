import Graced.AggregatorRuns
import Graced.DexPanics
import Graced.LegSelection

/-!
# What a recorded dex instruction tells

A dex parser finds a swap in an instruction, passes it over, or fails. Which of the three it
is can be told from what was recorded: the program, the first bytes of the data, the accounts
at a few places, and the transfers, the log or the balances that the parser of the program
looks at. Each program has its conditions for a swap and for being passed over, and where
neither holds the parser fails.
-/

namespace Graced

open LegSelection

/-- A search that may fail finds something exactly under one condition, and finds out that
there is nothing exactly under another. -/
structure Told {ε α : Type} (found : Outcome ε (Option α)) (shows passes : Prop) : Prop where
  shows_iff : (∃ value, found = .ok (some value)) ↔ shows
  passes_iff : found = .ok none ↔ passes

namespace Told

variable {ε α β : Type} {found : Outcome ε (Option α)} {shows passes : Prop}

/-- Nothing is found, ever. -/
theorem of_none : Told (.ok none : Outcome ε (Option α)) False True :=
  ⟨by simp, by simp⟩

/-- What is found may be changed. -/
theorem map (told : Told found shows passes) (f : α → β) :
    Told (found >>= fun value => (.ok (value.map f) : Outcome ε (Option β))) shows passes := by
  constructor
  · rw [← told.shows_iff]
    cases found with
    | ok value => cases value <;> simp
    | err | panic => simp
  · rw [← told.passes_iff]
    cases found with
    | ok value => cases value <;> simp
    | err | panic => simp

/-- The same search, written in another way. -/
theorem of_eq {found' : Outcome ε (Option α)} (told : Told found shows passes)
    (same : found' = found) : Told found' shows passes := same ▸ told

/-- The conditions may be put in other words. -/
theorem congr {shows' passes' : Prop} (told : Told found shows passes) (sameShows : shows ↔ shows')
    (samePasses : passes ↔ passes') : Told found shows' passes' :=
  ⟨told.shows_iff.trans sameShows, told.passes_iff.trans samePasses⟩

/-- A search that comes out empty may be made to fail. -/
theorem settle (told : Told found shows passes) (f : α → β) (required : Bool) (error : ε) :
    Told (found >>= fun
      | some value => (.ok (some (f value)) : Outcome ε (Option β))
      | none => if required then .err error else .ok none) shows (required = false ∧ passes) := by
  constructor
  · rw [← told.shows_iff]
    cases found with
    | ok value => cases value <;> cases required <;> simp
    | err | panic => simp
  · rw [← told.passes_iff]
    cases found with
    | ok value => cases value <;> cases required <;> simp
    | err | panic => simp

/-- A search that must not come out empty finds something, or fails. -/
theorem of_search {found : Outcome ε β} (f : β → α)
    (succeeds : (∃ value, found = .ok value) ↔ shows) :
    Told (found >>= fun value => (.ok (some (f value)) : Outcome ε (Option α))) shows False := by
  constructor
  · rw [← succeeds]
    cases found <;> simp
  · cases found <;> simp

end Told

/-- The account in a place of an instruction. -/
def IxView.accountAt (view : IxView StackIx) (place : Nat) : Option Pubkey :=
  view.ix.ix.accounts[place]?.bind fun index => view.keys.get index.toNat

/-- These are the accounts at the positions of a layout, and the unused positions have
accounts too. -/
structure Layout.Placed (layout : Layout) (view : IxView StackIx) (accounts : SwapAccounts) :
    Prop where
  user : view.accountAt layout.user = some accounts.user
  market : view.accountAt layout.market = some accounts.market
  tokenAccountA : view.accountAt layout.tokenAccountA = some accounts.tokenAccountA
  tokenAccountB : view.accountAt layout.tokenAccountB = some accounts.tokenAccountB
  unused : ∀ place ∈ layout.unused, (view.accountAt place).isSome

/-! ## The accounts -/

section Accounts

variable (view : IxView StackIx) (id : Pubkey)

/-- A position resolves to the account in that place. -/
theorem peek_place_iff (place : Nat) (key : Pubkey) :
    (⟨view.keys, view.ix.ix.accounts, 0, id⟩ : InstructionAccounts).peek place = .ok key ↔
      view.accountAt place = some key := by
  rw [IxView.accountAt, ← Aggregator.peek_ok_iff view.keys view.ix.ix.accounts id place key,
    Aggregator.peek, Outcome.mapError_eq_ok, Outcome.ofExcept_eq_ok]

/-- The accounts that are read in a layout are those in its places. -/
theorem Layout.read_place_iff (layout : Layout) (accounts : SwapAccounts) :
    layout.read ⟨view.keys, view.ix.ix.accounts, 0, id⟩ = .ok accounts ↔
      layout.Placed view accounts := by
  simp only [Layout.read, Outcome.bind_ok_iff, InstructionAccounts.index_ok_iff, peek_place_iff]
  constructor
  · rintro ⟨user, atUser, market, atMarket, a, atA, b, atB, _, unused, same⟩
    obtain rfl := Outcome.ok.inj same
    refine ⟨atUser, atMarket, atA, atB, fun place listed => ?_⟩
    obtain ⟨key, read⟩ := Outcome.collect_each _ _ _ unused place listed
    rw [InstructionAccounts.index_ok_iff, peek_place_iff] at read
    exact Option.isSome_of_eq_some read
  · rintro ⟨atUser, atMarket, atA, atB, unused⟩
    have read : ∀ place ∈ layout.unused, ∃ key, (InstructionAccounts.index
        ⟨view.keys, view.ix.ix.accounts, 0, id⟩ place : Outcome ParseError _) = .ok key := by
      intro place listed
      obtain ⟨key, known⟩ := Option.isSome_iff_exists.mp (unused place listed)
      exact ⟨key, by rw [InstructionAccounts.index_ok_iff, peek_place_iff, known]⟩
    obtain ⟨keys, collected⟩ := (Outcome.collect_succeeds_iff _ _).mpr read
    exact ⟨_, atUser, _, atMarket, _, atA, _, atB, keys, collected, rfl⟩

end Accounts

/-! ## The transfers -/

/-- The mint and the token program of the account that a transfer moves are known. -/
def OnRecord (env : Env) (balance : TxBalance) (transfer : TokenTransfer) (account : Pubkey) :
    Prop :=
  (LegSelection.mintOf env balance transfer account).isSome ∧
    ((balance.findTokenAccountBalance account).tokenProgram env).isSome

/-- Among these transfers are one in which the user pays and one in which they are paid, between
known accounts. -/
def Trade (env : Env) (balance : TxBalance) (transfers : List TokenTransfer)
    (accounts : SwapAccounts) : Prop :=
  ∃ paid received, Selects transfers accounts.tokenAccountA accounts.tokenAccountB accounts.user
      true paid received ∧
    OnRecord env balance paid (userAccountOf true paid) ∧
    OnRecord env balance received (poolAccountOf true received)

/-- The direct calls can be read as transfers, and they are a trade between these accounts. -/
def Traded (env : Env) (view : IxView StackIx) (accounts : SwapAccounts) : Prop :=
  ∃ transfers, parseMultipleTokenTransfers env view.keys view.ix.inner = .ok transfers ∧
    Trade env view.balance transfers accounts

/-- The direct calls can be read as transfers, and one side of a trade is missing. -/
def Untraded (env : Env) (view : IxView StackIx) (accounts : SwapAccounts) : Prop :=
  ∃ transfers, parseMultipleTokenTransfers env view.keys view.ix.inner = .ok transfers ∧
    SelectsNothing transfers accounts.tokenAccountA accounts.tokenAccountB accounts.user true

section Transfers

variable (env : Env)

/-- One side is resolved exactly if its mint and token program are known. -/
theorem resolveLeg_onRecord_iff (balance : TxBalance) (transfer : TokenTransfer)
    (account : Pubkey) :
    (∃ leg, resolveLeg env balance transfer.mint account transfer.amount = .ok leg) ↔
      OnRecord env balance transfer account := by
  rw [OnRecord, LegSelection.mintOf, resolveLeg]
  cases transfer.mint.or ((balance.findTokenAccountBalance account).mint env) with
  | none => simp
  | some mint => cases (balance.findTokenAccountBalance account).tokenProgram env <;> simp

/-- The sides are found exactly in a trade, and not found exactly if one of them is missing. -/
theorem trade_iff (balance : TxBalance) (transfers : List TokenTransfer)
    (accounts : SwapAccounts) :
    ((∃ info, getSwapInfoFromTokenTransfers env balance transfers accounts.tokenAccountA
        accounts.tokenAccountB accounts.user true = .ok (some info)) ↔
      Trade env balance transfers accounts) ∧
    (getSwapInfoFromTokenTransfers env balance transfers accounts.tokenAccountA
        accounts.tokenAccountB accounts.user true = .ok none ↔
      SelectsNothing transfers accounts.tokenAccountA accounts.tokenAccountB accounts.user
        true) := by
  have read (paid received : TokenTransfer) :
      (∃ info, readSwap env balance accounts.tokenAccountA true paid received = .ok (some info)) ↔
        OnRecord env balance paid (userAccountOf true paid) ∧
          OnRecord env balance received (poolAccountOf true received) := by
    rw [← resolveLeg_onRecord_iff, ← resolveLeg_onRecord_iff]
    simp only [readSwap, Outcome.exceptBind_ok_iff]
    constructor
    · rintro ⟨info, input, atInput, output, atOutput, _⟩
      exact ⟨⟨input, atInput⟩, output, atOutput⟩
    · rintro ⟨⟨input, atInput⟩, output, atOutput⟩
      exact ⟨_, input, atInput, output, atOutput, rfl⟩
  have absent (nothing : SelectsNothing transfers accounts.tokenAccountA accounts.tokenAccountB
      accounts.user true) :
      getSwapInfoFromTokenTransfers env balance transfers accounts.tokenAccountA
        accounts.tokenAccountB accounts.user true = .ok none := of_nothing nothing
  rcases selects_or_nothing transfers accounts.tokenAccountA accounts.tokenAccountB accounts.user
    true with ⟨paid, received, selects⟩ | nothing
  · constructor
    · constructor
      · intro found
        rw [of_selects selects, read] at found
        exact ⟨paid, received, selects, found⟩
      · rintro ⟨paid', received', selects', known⟩
        rw [of_selects selects', read]
        exact known
    · refine iff_of_false (by rw [of_selects selects]; exact readSwap_ne_none) fun nothing => ?_
      have unread := absent nothing
      rw [of_selects selects] at unread
      exact readSwap_ne_none unread
  · have unread := absent nothing
    refine ⟨iff_of_false (by simp [unread]) ?_, iff_of_true unread nothing⟩
    rintro ⟨paid, received, selects, _⟩
    rw [of_selects selects] at unread
    exact readSwap_ne_none unread

/-- The transfers tell a swap in a trade, and none if a side is missing. -/
theorem told_swapInfo (view : IxView StackIx) (accounts : SwapAccounts) :
    Told (view.swapInfo env accounts.tokenAccountA accounts.tokenAccountB accounts.user)
      (Traded env view accounts) (Untraded env view accounts) := by
  have ends (found : Option SwapInfo) :
      view.swapInfo env accounts.tokenAccountA accounts.tokenAccountB accounts.user = .ok found ↔
        ∃ transfers, parseMultipleTokenTransfers env view.keys view.ix.inner = .ok transfers ∧
          getSwapInfoFromTokenTransfers env view.balance transfers accounts.tokenAccountA
            accounts.tokenAccountB accounts.user true = .ok found := by
    rw [IxView.swapInfo, Outcome.mapError_eq_ok, Outcome.ofExcept_eq_ok, getSwapInfo,
      Outcome.exceptBind_ok_iff]
    simp only [Outcome.exceptMapError_ok_iff]
    rfl
  constructor
  · simp only [ends, Traded, ← (trade_iff env view.balance _ accounts).1]
    constructor
    · rintro ⟨info, transfers, parsed, found⟩
      exact ⟨transfers, parsed, info, found⟩
    · rintro ⟨transfers, parsed, info, found⟩
      exact ⟨info, transfers, parsed, found⟩
  · simp only [ends, Untraded, ← (trade_iff env view.balance _ accounts).2]

/-- A swap that has to be among the transfers is there exactly if they are a trade. -/
theorem swapOfTransfers_traded_iff (view : IxView StackIx) (accounts : SwapAccounts) :
    (∃ swap, Dex.swapOfTransfers env view accounts = .ok swap) ↔ Traded env view accounts := by
  rw [← (told_swapInfo env view accounts).shows_iff]
  simp only [Dex.swapOfTransfers, Outcome.bind_ok_iff, Outcome.okOr_eq_ok]
  constructor
  · rintro ⟨swap, _, found, info, rfl, _⟩
    exact ⟨info, found⟩
  · rintro ⟨info, found⟩
    exact ⟨_, _, found, info, rfl, rfl⟩

end Transfers

/-! ## The parsers -/

namespace Dex

/-- The data calls for a layout, and these are the accounts in its places. -/
def Called (view : IxView StackIx) (chosen : Option Layout) (accounts : SwapAccounts) : Prop :=
  ∃ layout, chosen = some layout ∧ layout.Placed view accounts

/-- Both token accounts have their mints on record. -/
def BothMints (env : Env) (view : IxView StackIx) (accounts : SwapAccounts) : Prop :=
  (mintOf env view accounts.tokenAccountA).isSome ∧ (mintOf env view accounts.tokenAccountB).isSome

/-- An instruction of a dex that is told apart by positions is one in which a swap is found. -/
def Format.HoldsSwap (format : Format) (env : Env) (view : IxView StackIx) : Prop :=
  ∃ accounts, Called view (format.select view.ix.ix.data) accounts ∧ Traded env view accounts

/-- It is one that is passed over: no swap by its data, or one without the transfers of a trade
where these are not required. -/
def Format.Passes (format : Format) (env : Env) (view : IxView StackIx) : Prop :=
  format.select view.ix.ix.data = none ∨ (format.required = false ∧
    ∃ accounts, Called view (format.select view.ix.ix.data) accounts ∧
      Untraded env view accounts)

/-- A Raydium V4 swap between accounts whose mints are on record: its log has the event, or no
line without a payload, and then the transfers are a trade. -/
def RaydiumV4.HoldsSwap (env : Env) (view : IxView StackIx) : Prop :=
  ∃ discriminator accounts, view.ix.ix.data.head? = some discriminator ∧
    Called view (RaydiumV4.layout discriminator view.ix.ix.accounts.length) accounts ∧
    BothMints env view accounts ∧
    ((∃ event, RaydiumV4.parseLog env view (RaydiumV4.isBaseIn discriminator) =
        .ok (some event)) ∨
      (∀ lines, view.programLogs env = .ok lines →
        RaydiumV4.LinesGuarded env (RaydiumV4.isBaseIn discriminator) lines) ∧
        Traded env view accounts)

/-- A Raydium V4 instruction without data, or without a layout for its first byte. -/
def RaydiumV4.Passes (view : IxView StackIx) : Prop :=
  ∀ discriminator, view.ix.ix.data.head? = some discriminator →
    RaydiumV4.layout discriminator view.ix.ix.accounts.length = none

/-- A Raydium CP swap whose log has an event with the mints, or one without them while both are
on record, or whose transfers are a trade. -/
def RaydiumCp.HoldsSwap (env : Env) (view : IxView StackIx) : Prop :=
  ∃ accounts, Called view (RaydiumCp.layout view.ix.ix.data) accounts ∧
    ((∃ event, RaydiumCp.parseLog env view = .ok (some event) ∧
        (event.mints = none → BothMints env view accounts)) ∨
      Traded env view accounts)

/-- A Raydium CLMM swap with a log: the log has an event and both mints are on record, or it has
none and the transfers are a trade. -/
def RaydiumClmm.HoldsSwap (env : Env) (view : IxView StackIx) : Prop :=
  ∃ accounts, Called view (RaydiumClmm.layout view.ix.ix.data) accounts ∧
    ((∃ event, RaydiumClmm.parseLog env view = .ok (some event)) ∧ BothMints env view accounts ∨
      RaydiumClmm.parseLog env view = .ok none ∧ Traded env view accounts)

/-- A Stabble swap with a payment of the vault program, with which the transfers are a trade. -/
def StabbleStable.HoldsSwap (env : Env) (view : IxView StackIx) : Prop :=
  ∃ accounts, Called view (StabbleStable.layout view.ix.ix.data) accounts ∧
    ∃ transfers payment, parseMultipleTokenTransfers env view.keys view.ix.inner = .ok transfers ∧
      StabbleStable.withdrawal env view = some payment ∧
      Trade env view.balance (transfers ++ [payment]) accounts

/-- A purchase or a sale of Pump, over which the base vault gained and the curve did not, or the
other way around. -/
def Pump.HoldsSwap (env : Env) (view : IxView StackIx) : Prop :=
  Pump.matched view.ix.ix.data = true ∧
    ∃ mint vault curve user baseChange curveChange, view.accountAt 2 = some mint ∧
      view.accountAt 4 = some vault ∧ view.accountAt 3 = some curve ∧
      view.accountAt 6 = some user ∧
      (view.balance.findTokenAccountBalance vault).difference env.profile = .ok baseChange ∧
      (view.balance.findNativeBalance curve).difference = .ok curveChange ∧
      (0 < baseChange ↔ ¬ 0 < curveChange)

/-- What is recorded of an instruction of this program is a swap. -/
def HoldsSwap (env : Env) (view : IxView StackIx) (program : Program) : Prop :=
  match program with
  | .humidiFi => ∃ accounts, Called view (some ⟨0, 1, 2, 3, []⟩) accounts ∧ Traded env view accounts
  | .pump => Pump.HoldsSwap env view
  | .raydiumV4 => RaydiumV4.HoldsSwap env view
  | .raydiumCpSwap => RaydiumCp.HoldsSwap env view
  | .raydiumClmm | .pancakeSwap => RaydiumClmm.HoldsSwap env view
  | .stabbleStable | .stabbleWeighted => StabbleStable.HoldsSwap env view
  | program => ∃ format, formatOf program = some format ∧ Format.HoldsSwap format env view

/-- An instruction of this program is passed over. -/
def Passes (env : Env) (view : IxView StackIx) (program : Program) : Prop :=
  match program with
  | .humidiFi =>
    ∃ accounts, Called view (some ⟨0, 1, 2, 3, []⟩) accounts ∧ Untraded env view accounts
  | .pump => Pump.matched view.ix.ix.data = false
  | .raydiumV4 => RaydiumV4.Passes view
  | .raydiumCpSwap => RaydiumCp.layout view.ix.ix.data = none
  | .raydiumClmm | .pancakeSwap => RaydiumClmm.layout view.ix.ix.data = none
  | .stabbleStable | .stabbleWeighted => StabbleStable.layout view.ix.ix.data = none
  | program => ∀ format, formatOf program = some format → Format.Passes format env view

/-- The accounts of a layout are read exactly if they are in their places. -/
theorem read_called_iff (view : IxView StackIx) (id : Pubkey) (layout : Layout)
    (accounts : SwapAccounts) :
    layout.read ⟨view.keys, view.ix.ix.accounts, 0, id⟩ = .ok accounts ↔
      Called view (some layout) accounts := by
  simp [Called, Layout.read_place_iff]

/-- A search after a layout is read tells what it tells of the accounts in their places. -/
theorem told_read (view : IxView StackIx) (id : Pubkey) (layout : Layout)
    (find : SwapAccounts → Outcome ParseError (Option DexSwap)) (shows passes : SwapAccounts → Prop)
    (told : ∀ accounts, Told (find accounts) (shows accounts) (passes accounts)) :
    Told (layout.read ⟨view.keys, view.ix.ix.accounts, 0, id⟩ >>= find)
      (∃ accounts, Called view (some layout) accounts ∧ shows accounts)
      (∃ accounts, Called view (some layout) accounts ∧ passes accounts) := by
  constructor
  · simp only [Outcome.bind_ok_iff, read_called_iff, ← (told _).shows_iff]
    constructor
    · rintro ⟨value, accounts, placed, found⟩
      exact ⟨accounts, placed, value, found⟩
    · rintro ⟨accounts, placed, value, found⟩
      exact ⟨value, accounts, placed, found⟩
  · simp only [Outcome.bind_ok_iff, read_called_iff, ← (told _).passes_iff]

/-- A format finds a swap in the transfers of a trade, and passes over what its data or its
transfers are none for. -/
theorem told_decode (format : Format) (env : Env) (view : IxView StackIx) (id : Pubkey)
    (layout : Layout) :
    Told (format.decode env view ⟨view.keys, view.ix.ix.accounts, 0, id⟩ layout)
      (∃ accounts, Called view (some layout) accounts ∧ Traded env view accounts)
      (∃ accounts, Called view (some layout) accounts ∧
        (format.required = false ∧ Untraded env view accounts)) := by
  refine told_read view id layout _ _ _ fun accounts => ?_
  have told := (told_swapInfo env view accounts).settle (fun info : SwapInfo =>
    (⟨accounts.user, accounts.market, format.program, info.toSwap⟩ : DexSwap)) format.required
    ParseError.noDetailsFound
  refine told.of_eq ?_
  congr 1
  funext info
  cases info <;> rfl

theorem told_format (format : Format) (env : Env) (view : IxView StackIx) (id : Pubkey)
    (runs : view.keys.get view.ix.ix.programIdIndex.toNat = some id)
    (gated : ∀ data layout, format.select data = some layout → format.gate data = true) :
    Told (format.parse env view) (Format.HoldsSwap format env view)
      (Format.Passes format env view) := by
  have data : view.data = .ok view.ix.ix.data := rfl
  rw [Format.parse, data, Aggregator.accounts_eq view id runs]
  simp only [Outcome.ok_bind]
  cases selected : format.select view.ix.ix.data with
  | none =>
    refine ((Told.of_none (ε := ParseError) (α := DexSwap)).of_eq ?_).congr ?_ ?_
    · cases format.accountsFirst <;> cases format.gate view.ix.ix.data <;> rfl
    · simp [Format.HoldsSwap, Called, selected]
    · simp [Format.Passes, selected]
  | some layout =>
    refine ((told_decode format env view id layout).of_eq ?_).congr ?_ ?_
    · rw [gated _ _ selected]
      cases format.accountsFirst <;> rfl
    · simp [Format.HoldsSwap, selected]
    · simp only [Format.Passes, selected, reduceCtorEq, false_or]
      constructor
      · rintro ⟨accounts, called, optional, untraded⟩
        exact ⟨optional, accounts, called, untraded⟩
      · rintro ⟨optional, accounts, called, untraded⟩
        exact ⟨accounts, called, optional, untraded⟩

/-- A parser that looks for the swap once a layout is read passes over what has none. -/
theorem told_parseLayout (view : IxView StackIx) (id : Pubkey) (label : Program)
    (runs : view.keys.get view.ix.ix.programIdIndex.toNat = some id)
    (choose : Bytes → Option Layout) (find : SwapAccounts → Outcome ParseError Swap)
    (shows : SwapAccounts → Prop)
    (succeeds : ∀ accounts, (∃ swap, find accounts = .ok swap) ↔ shows accounts) :
    Told (parseLayout view label choose find)
      (∃ accounts, Called view (choose view.ix.ix.data) accounts ∧ shows accounts)
      (choose view.ix.ix.data = none) := by
  have data : view.data = .ok view.ix.ix.data := rfl
  rw [parseLayout, data, Aggregator.accounts_eq view id runs]
  simp only [Outcome.ok_bind]
  cases choose view.ix.ix.data with
  | none => exact (Told.of_none (ε := ParseError) (α := DexSwap)).congr (by simp [Called]) (by simp)
  | some layout =>
    refine (told_read view id layout _ _ _
      fun accounts => Told.of_search _ (succeeds accounts)).congr .rfl ?_
    simp

theorem told_humidifi (env : Env) (view : IxView StackIx) (id : Pubkey)
    (runs : view.keys.get view.ix.ix.programIdIndex.toNat = some id) :
    Told (humidifi env view) (HoldsSwap env view .humidiFi) (Passes env view .humidiFi) := by
  rw [humidifi, Aggregator.accounts_eq view id runs, Outcome.ok_bind]
  refine told_read view id ⟨0, 1, 2, 3, []⟩ _ _ _ fun accounts => ?_
  refine ((told_swapInfo env view accounts).map (fun info : SwapInfo =>
    (⟨accounts.user, accounts.market, .humidiFi, info.toSwap⟩ : DexSwap))).of_eq ?_
  congr 1
  funext info
  cases info <;> rfl

/-! ## The parsers that look at logs -/

theorem bothMints_iff (env : Env) (view : IxView StackIx) (accounts : SwapAccounts) :
    BothMints env view accounts ↔ ∃ a b, mintOf env view accounts.tokenAccountA = some a ∧
      mintOf env view accounts.tokenAccountB = some b := by
  simp [BothMints, Option.isSome_iff_exists]

theorem v4_swap_succeeds_iff (env : Env) (view : IxView StackIx) (accounts : SwapAccounts)
    (baseIn : Bool) :
    (∃ swap, RaydiumV4.swap env view accounts baseIn = .ok swap) ↔
      BothMints env view accounts ∧
        ((∃ event, RaydiumV4.parseLog env view baseIn = .ok (some event)) ∨
          (∀ lines, view.programLogs env = .ok lines →
            RaydiumV4.LinesGuarded env baseIn lines) ∧ Traded env view accounts) := by
  have guarded := RaydiumV4.parseLog_ne_panic_iff env view baseIn
  have traded := swapOfTransfers_traded_iff env view accounts
  rw [← guarded, ← traded, RaydiumV4.swap, BothMints]
  cases mintOf env view accounts.tokenAccountA with
  | none => simp
  | some coinMint =>
    cases mintOf env view accounts.tokenAccountB with
    | none => simp
    | some pcMint =>
      cases logged : RaydiumV4.parseLog env view baseIn with
      | panic => simp [Outcome.discard]
      | err error => simp [Outcome.discard]
      | ok found => cases found <;> simp [Outcome.discard]

theorem cp_swap_succeeds_iff (env : Env) (view : IxView StackIx) (accounts : SwapAccounts) :
    (∃ swap, RaydiumCp.swap env view accounts = .ok swap) ↔
      (∃ event, RaydiumCp.parseLog env view = .ok (some event) ∧
        (event.mints = none → BothMints env view accounts)) ∨ Traded env view accounts := by
  have traded := swapOfTransfers_traded_iff env view accounts
  have fromLog : (∃ swap, RaydiumCp.swapOfLog env view accounts = some swap) ↔
      ∃ event, RaydiumCp.parseLog env view = .ok (some event) ∧
        (event.mints = none → BothMints env view accounts) := by
    rw [bothMints_iff, RaydiumCp.swapOfLog]
    cases RaydiumCp.parseLog env view with
    | error error => simp [Except.toOption]
    | ok found =>
      cases found with
      | none => simp [Except.toOption]
      | some event =>
        cases named : event.mints with
        | some mints => simp [Except.toOption, named]
        | none => simp [Except.toOption, named, Option.bind_eq_some_iff]
  rw [← fromLog, ← traded, RaydiumCp.swap]
  cases RaydiumCp.swapOfLog env view accounts <;> simp

theorem clmm_swap_succeeds_iff (env : Env) (view : IxView StackIx) (accounts : SwapAccounts) :
    (∃ swap, RaydiumClmm.swap env view accounts = .ok swap) ↔
      (∃ event, RaydiumClmm.parseLog env view = .ok (some event)) ∧ BothMints env view accounts ∨
        RaydiumClmm.parseLog env view = .ok none ∧ Traded env view accounts := by
  have traded := swapOfTransfers_traded_iff env view accounts
  rw [← traded, RaydiumClmm.swap, BothMints]
  cases RaydiumClmm.parseLog env view with
  | error error => simp
  | ok found =>
    cases found with
    | none => simp
    | some event =>
      cases mintOf env view accounts.tokenAccountA <;>
        cases mintOf env view accounts.tokenAccountB <;>
          cases direction : event.zeroForOne <;> simp [direction]

theorem stabble_swap_succeeds_iff (env : Env) (view : IxView StackIx) (accounts : SwapAccounts) :
    (∃ swap, StabbleStable.swap env view accounts = .ok swap) ↔
      ∃ transfers payment,
        parseMultipleTokenTransfers env view.keys view.ix.inner = .ok transfers ∧
        StabbleStable.withdrawal env view = some payment ∧
        Trade env view.balance (transfers ++ [payment]) accounts := by
  simp only [StabbleStable.swap, Outcome.bind_ok_iff, Outcome.mapError_eq_ok,
    Outcome.ofExcept_eq_ok, Outcome.okOr_eq_ok, ← (trade_iff env view.balance _ accounts).1]
  constructor
  · rintro ⟨_, transfers, parsed, payment, paid, _, found, info, rfl, _⟩
    exact ⟨transfers, payment, parsed, paid, info, found⟩
  · rintro ⟨transfers, payment, parsed, paid, info, found⟩
    exact ⟨_, transfers, parsed, payment, paid, _, found, info, rfl, rfl⟩

theorem told_v4 (env : Env) (view : IxView StackIx) (id : Pubkey)
    (runs : view.keys.get view.ix.ix.programIdIndex.toNat = some id) :
    Told (RaydiumV4.parse env view) (RaydiumV4.HoldsSwap env view) (RaydiumV4.Passes view) := by
  have data : view.data = .ok view.ix.ix.data := rfl
  rw [RaydiumV4.parse, data, Aggregator.accounts_eq view id runs]
  simp only [Outcome.ok_bind, InstructionAccounts.len, RaydiumV4.HoldsSwap, RaydiumV4.Passes]
  cases view.ix.ix.data.head? with
  | none => exact (Told.of_none (ε := ParseError) (α := DexSwap)).congr (by simp) (by simp)
  | some discriminator =>
    simp only [Option.some.injEq, forall_eq']
    cases chosen : RaydiumV4.layout discriminator view.ix.ix.accounts.length with
    | none =>
      refine (Told.of_none (ε := ParseError) (α := DexSwap)).congr ?_ (by simp)
      simp [Called, chosen]
    | some layout =>
      refine (told_read view id layout _ _ _ fun accounts => Told.of_search _
        (v4_swap_succeeds_iff env view accounts _)).congr ?_ (by simp)
      constructor
      · rintro ⟨accounts, called, shown⟩
        exact ⟨discriminator, accounts, rfl, by rw [chosen]; exact called, shown⟩
      · rintro ⟨_, accounts, rfl, called, shown⟩
        rw [chosen] at called
        exact ⟨accounts, called, shown⟩

/-- Pump finds a swap exactly between opposite changes. -/
theorem pump_swap_succeeds_iff (baseChange curveChange : Int) (mint : Pubkey)
    (fits : baseChange.natAbs < 2 ^ 63 ∧ curveChange.natAbs < 2 ^ 63) :
    (∃ swap, Pump.swap baseChange curveChange mint = .ok swap) ↔
      (0 < baseChange ↔ ¬ 0 < curveChange) := by
  rw [Pump.swap, absIntoU64_fits _ fits.1, absIntoU64_fits _ fits.2]
  by_cases gained : 0 < baseChange <;> by_cases paid : 0 < curveChange <;> simp [gained, paid]

theorem told_pump (env : Env) (view : IxView StackIx) (id : Pubkey)
    (runs : view.keys.get view.ix.ix.programIdIndex.toNat = some id) :
    Told (Pump.parse env view) (Pump.HoldsSwap env view)
      (Pump.matched view.ix.ix.data = false) := by
  have data : view.data = .ok view.ix.ix.data := rfl
  rw [Pump.parse, data, Aggregator.accounts_eq view id runs, Pump.HoldsSwap]
  simp only [Outcome.ok_bind]
  cases matched : Pump.matched view.ix.ix.data with
  | false => exact (Told.of_none (ε := ParseError) (α := DexSwap)).congr (by simp) (by simp)
  | true =>
    rw [if_pos rfl]
    constructor
    · simp only [Outcome.bind_ok_iff, InstructionAccounts.index_ok_iff, peek_place_iff,
        Outcome.mapError_eq_ok, Outcome.pure_eq, true_and]
      constructor
      · rintro ⟨_, mint, atMint, vault, atVault, curve, atCurve, user, atUser, baseChange, base,
          curveChange, quote, swap, swapped, _⟩
        have fits := And.intro (TokenBalance.difference_range _ _ _ base)
          (Pump.native_range _ _ quote)
        exact ⟨mint, vault, curve, user, baseChange, curveChange, atMint, atVault, atCurve, atUser,
          base, quote, (pump_swap_succeeds_iff _ _ mint fits).mp ⟨swap, swapped⟩⟩
      · rintro ⟨mint, vault, curve, user, baseChange, curveChange, atMint, atVault, atCurve, atUser,
          base, quote, opposite⟩
        have fits := And.intro (TokenBalance.difference_range _ _ _ base)
          (Pump.native_range _ _ quote)
        obtain ⟨swap, swapped⟩ := (pump_swap_succeeds_iff _ _ mint fits).mpr opposite
        exact ⟨_, mint, atMint, vault, atVault, curve, atCurve, user, atUser, baseChange, base,
          curveChange, quote, swap, swapped, rfl⟩
    · simp [Outcome.bind_ok_iff]

/-- The conditions for all programs are those under which the parser of the program finds a swap
and passes an instruction over. -/
theorem told_parse (env : Env) (view : IxView StackIx) (program : Program)
    (known : view.program = .ok program) :
    Told (Dex.parse env view program) (HoldsSwap env view program) (Passes env view program) := by
  obtain ⟨id, runs, _⟩ := program_known view program known
  have layouts (kind : Program) (unlisted : formatOf kind = none)
      (silent : Dex.parse env view kind = .ok none) :
      Told (Dex.parse env view kind)
        (∃ format, formatOf kind = some format ∧ Format.HoldsSwap format env view)
        (∀ format, formatOf kind = some format → Format.Passes format env view) :=
    ((Told.of_none (ε := ParseError) (α := DexSwap)).of_eq silent).congr (by simp [unlisted])
      (by simp [unlisted])
  have formats (kind : Program) (format : Format) (listed : formatOf kind = some format) :
      Told (Dex.parse env view kind)
        (∃ format, formatOf kind = some format ∧ Format.HoldsSwap format env view)
        (∀ format, formatOf kind = some format → Format.Passes format env view) := by
    refine ((told_format format env view id runs (formatOf_gated kind format listed)).of_eq
      (parse_formatOf env view kind format listed)).congr ?_ ?_
    · simp [listed]
    · simp [listed]
  cases program
  case humidiFi => exact told_humidifi env view id runs
  case pump => exact told_pump env view id runs
  case raydiumV4 => exact told_v4 env view id runs
  case raydiumCpSwap =>
    exact told_parseLayout view id .raydiumV4 runs _ _ _ (cp_swap_succeeds_iff env view)
  case raydiumClmm =>
    exact told_parseLayout view id .raydiumClmm runs _ _ _ (clmm_swap_succeeds_iff env view)
  case pancakeSwap =>
    exact (told_parseLayout view id .raydiumClmm runs _ _ _
      (clmm_swap_succeeds_iff env view)).map _
  case stabbleStable =>
    exact told_parseLayout view id .stabbleStable runs _ _ _ (stabble_swap_succeeds_iff env view)
  case stabbleWeighted =>
    exact (told_parseLayout view id .stabbleStable runs _ _ _
      (stabble_swap_succeeds_iff env view)).map _
  all_goals first
    | exact formats _ _ rfl
    | exact layouts _ rfl rfl

end Dex

end Graced
