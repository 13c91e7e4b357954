import Graced.ErrorTraces
import Graced.LegAgreement

/-!
# Stabble swaps and the vault that pays them out

A Stabble swap takes the user's tokens in by a transfer of its own and pays out through a
vault program, whose call makes the second transfer. The parser looks for the call of the
vault program among the direct calls, and then reads that call itself as a transfer. A
transfer is a call of a token program, and the vault program is none, so the withdrawal is
never found: every swap ends in an error, and with it the transaction.
-/

namespace Graced.StabbleVault

open LegAgreement
open Dex.StabbleStable (layout vaultProgram withdrawal)

/-- A swap that settles in two transfers: what the user paid and what the vault paid out. -/
structure VaultSwap where
  accounts : SwapAccounts
  paid : TokenTransfer
  received : TokenTransfer
  inputMint : Pubkey
  inputProgram : Pubkey
  outputMint : Pubkey
  outputProgram : Pubkey

/-- The amounts that moved, of the mints of the two vaults. -/
def VaultSwap.swap (settled : VaultSwap) : Swap :=
  ⟨settled.paid.amount, settled.received.amount, settled.inputMint, settled.outputMint⟩

section View

variable {T : Type} [SolanaInstruction T]

/-- The user pays in a direct transfer, a call of the vault program makes the transfer in
which they are paid, and no other of these transfers touches the two vaults. -/
def SettlesInVaults (env : Env) (view : IxView T) (settled : VaultSwap) : Prop :=
  ∃ direct vaultCall payouts others,
    parseMultipleTokenTransfers env view.keys (SolanaInstruction.innerInstructions view.ix) =
      .ok direct ∧
    vaultCall ∈ SolanaInstruction.innerInstructions view.ix ∧
    view.keys.get (SolanaInstruction.programId vaultCall).toNat = some vaultProgram ∧
    parseMultipleTokenTransfers env view.keys (SolanaInstruction.innerInstructions vaultCall) =
      .ok payouts ∧
    settled.paid ∈ direct ∧ settled.received ∈ payouts ∧
    Settles (direct ++ payouts) (Side.forUserLeg true) settled.accounts.tokenAccountA
      settled.accounts.tokenAccountB settled.accounts.user settled.paid settled.received others

/-- A genuine Stabble swap, with both vaults on record. -/
structure Genuine (env : Env) (view : IxView T) (settled : VaultSwap) : Prop where
  accounts : Dex.ReadsLayout view layout settled.accounts
  distinct : settled.accounts.tokenAccountA ≠ settled.accounts.tokenAccountB
  settles : SettlesInVaults env view settled
  paidAmount : 0 < settled.paid.amount.toNat ∧ settled.paid.amount.toNat < 2 ^ 63
  receivedAmount : 0 < settled.received.amount.toNat ∧ settled.received.amount.toNat < 2 ^ 63
  names : NamesAtMost settled.paid settled.inputMint ∧
    NamesAtMost settled.received settled.outputMint
  recorded :
    Recorded env view.balance settled.accounts.tokenAccountA settled.inputMint
      settled.inputProgram ∧
    Recorded env view.balance settled.accounts.tokenAccountB settled.outputMint
      settled.outputProgram

/-- Both parsers find the swap, each under its own label. -/
structure Decoded (env : Env) (view : IxView T) (settled : VaultSwap) : Prop where
  stable : Dex.StabbleStable.parse env view =
    .ok (some ⟨settled.accounts.user, settled.accounts.market, .stabbleStable, settled.swap⟩)
  weighted : Dex.stabbleWeighted env view =
    .ok (some ⟨settled.accounts.user, settled.accounts.market, .stabbleWeighted, settled.swap⟩)

/-- A call of the vault program is no transfer. -/
theorem vaultCall_no_transfer (env : Env) (keys : AccountKeys) (accounts : List UInt8)
    (data : Bytes) (programIdIndex : UInt8)
    (calls : keys.get programIdIndex.toNat = some vaultProgram) :
    parseTokenTransfer env keys accounts data programIdIndex = .ok none := by
  have noTokenProgram : vaultProgram ≠ Ids.splToken ∧ vaultProgram ≠ Ids.splToken2022 := by decide
  rw [parseTokenTransfer, calls]
  exact if_pos noTokenProgram

/-- The withdrawal is not found, whatever the instruction calls. -/
theorem withdrawal_eq_none (env : Env) (view : IxView T) : withdrawal env view = none := by
  rw [withdrawal, List.findSome?_eq_none_iff]
  intro call _
  cases inTable : view.keys.get (SolanaInstruction.programId call).toNat with
  | none => rfl
  | some programId =>
    by_cases vault : programId = vaultProgram
    · subst vault
      cases SolanaInstruction.data call with
      | error _ => simp [Except.toOption]
      | ok data =>
        simp [Except.toOption, vaultCall_no_transfer env view.keys _ data _ inTable]
    · simp [vault]

/-- Where the accounts and the direct transfers can be read, both parsers fail for want of the
withdrawal. -/
theorem parse_fails (env : Env) (view : IxView T) (accounts : SwapAccounts)
    (direct : List TokenTransfer) (reads : Dex.ReadsLayout view layout accounts)
    (readable : parseMultipleTokenTransfers env view.keys
      (SolanaInstruction.innerInstructions view.ix) = .ok direct) :
    Dex.StabbleStable.parse env view = .err .noDetailsFound ∧
      Dex.stabbleWeighted env view = .err .noDetailsFound := by
  have stable : Dex.StabbleStable.parse env view = .err .noDetailsFound := by
    rw [Dex.StabbleStable.parse, Dex.parseLayout_reads view _ _ _ accounts reads]
    simp [Dex.StabbleStable.swap, readable, withdrawal_eq_none]
  refine ⟨stable, ?_⟩
  rw [Dex.stabbleWeighted, stable]
  rfl

end View

/-- In the parsing of a transaction, the parser of a dex is run on this view: on a root
instruction, or on a leg of its route. -/
inductive RunsAt (env : Env) (tx : SolanaTx) (position : Nat) :
    IxView StackIx → Program → Prop where
  | root (view : IxView StackIx) (program : Program) :
      Reached env tx position view → view.program = .ok program →
      Aggregator.isAggregator program = false → Dex.isAmm program = true →
      RunsAt env tx position view program
  | hop (view : IxView StackIx) (aggregator : Program) (header : Aggregator.Header)
      (before after : List StackIx) (child : StackIx) (program : Program) :
      Reached env tx position view → view.program = .ok aggregator →
      Aggregator.isAggregator aggregator = true →
      Aggregator.header env view aggregator = .ok (some header) →
      view.ix.inner = before ++ child :: after →
      (∀ earlier ∈ before, ∃ yielded, Aggregator.routeOf env view earlier = .ok yielded) →
      Aggregator.isHop view child = true → (view.newCloned child).program = .ok program →
      RunsAt env tx position (view.newCloned child) program

/-- An error of a parser that is run is an error of the transaction. -/
theorem transaction_fails (env : Env) (tx : SolanaTx) (position : Nat) (view : IxView StackIx)
    (program : Program) (error : ParseError) (runs : RunsAt env tx position view program)
    (fails : Dex.parse env view program = .err error) :
    ∃ trace, parseTransaction env tx = .err trace ∧ trace.error = error := by
  have failsAt : FailsAt env tx position view program error := by
    cases runs with
    | root _ _ reached known notAggregator listed =>
      exact .root view program error reached known notAggregator listed fails
    | hop view aggregator header before after child _ reached known isAggregator headed called
        fine hop knownHop =>
      exact .hop view aggregator header before after child program error reached known
        isAggregator headed called fine hop knownHop fails
  obtain ⟨_, _, _, reported, _⟩ :=
    ErrorTraces.failure_reported env tx position view program error failsAt
  exact ⟨_, reported, rfl⟩

/-- No genuine Stabble swap is decoded by either parser, and the transaction in which one of
them is run on it fails. -/
theorem genuine_never_decoded (env : Env) :
    (∀ (T : Type) [SolanaInstruction T] (view : IxView T) (settled : VaultSwap),
      Genuine env view settled →
        Dex.StabbleStable.parse env view = .err .noDetailsFound ∧
        Dex.stabbleWeighted env view = .err .noDetailsFound ∧ ¬ Decoded env view settled) ∧
    ∀ (tx : SolanaTx) (position : Nat) (view : IxView StackIx) (program : Program)
      (settled : VaultSwap), Genuine env view settled → RunsAt env tx position view program →
      program = .stabbleStable ∨ program = .stabbleWeighted →
        ∃ trace, parseTransaction env tx = .err trace ∧ trace.error = .noDetailsFound := by
  constructor
  · intro T _ view settled genuine
    obtain ⟨direct, _, _, _, readable, _⟩ := genuine.settles
    obtain ⟨stable, weighted⟩ := parse_fails env view _ direct genuine.accounts readable
    refine ⟨stable, weighted, fun decoded => ?_⟩
    exact absurd decoded.stable (by simp [stable])
  · intro tx position view program settled genuine runs stabble
    obtain ⟨direct, _, _, _, readable, _⟩ := genuine.settles
    obtain ⟨stable, weighted⟩ := parse_fails env view _ direct genuine.accounts readable
    apply transaction_fails env tx position view program .noDetailsFound runs
    rcases stabble with rfl | rfl
    · exact stable
    · exact weighted

/-! ## A swap of 100 against 50 -/

/-- A transaction with one Stabble swap: the user, key 2, pays 100 into the vault 4, and the
vault program pays 50 out of the vault 5. -/
def vaultTx : SolanaTx where
  instructions := [⟨2, [0, 3, 3, 4, 5, 3, 11], Dex.swapDisc⟩]
  accountKeys := ⟨[⟨2⟩, Ids.splToken, Ids.stabbleStable, ⟨3⟩, ⟨4⟩, ⟨5⟩, ⟨6⟩, ⟨7⟩, Ids.nativeMint,
    otherMint, vaultProgram, ⟨11⟩], [], []⟩
  metadata := ⟨[], [], .ofList [(0,
      [⟨⟨1, [6, 8, 4, 0], [12, 100, 0, 0, 0, 0, 0, 0, 0, 6]⟩, some 2⟩,
        ⟨⟨10, [3, 5, 7], [1]⟩, some 2⟩,
        ⟨⟨1, [5, 9, 7, 3], [12, 50, 0, 0, 0, 0, 0, 0, 0, 6]⟩, some 3⟩])], [],
    [vaultHolding 4 "So11111111111111111111111111111111111111112" 1000,
      vaultHolding 5 "EPjFWdd5AufqSSqeM2qN1xzybapC8G4wEGGkZwyTDt1v" 500],
    [vaultHolding 4 "So11111111111111111111111111111111111111112" 1100,
      vaultHolding 5 "EPjFWdd5AufqSSqeM2qN1xzybapC8G4wEGGkZwyTDt1v" 450]⟩

/-- The call of the vault program, with the transfer that it makes. -/
def vaultCall : StackIx :=
  ⟨⟨10, [3, 5, 7], [1]⟩,
    [⟨⟨1, [5, 9, 7, 3], [12, 50, 0, 0, 0, 0, 0, 0, 0, 6]⟩, [], [0, 1, 0]⟩], [0, 1]⟩

/-- The Stabble swap in its context. -/
def vaultView : IxView StackIx :=
  vaultTx.view ⟨⟨2, [0, 3, 3, 4, 5, 3, 11], Dex.swapDisc⟩,
    [⟨⟨1, [6, 8, 4, 0], [12, 100, 0, 0, 0, 0, 0, 0, 0, 6]⟩, [], [0, 0]⟩, vaultCall], [0]⟩

/-- What the swap is to be decoded as. -/
def vaultSettled : VaultSwap where
  accounts := ⟨⟨2⟩, ⟨11⟩, ⟨4⟩, ⟨5⟩⟩
  paid := ⟨⟨6⟩, some Ids.nativeMint, ⟨4⟩, ⟨2⟩, 100, false⟩
  received := ⟨⟨5⟩, some otherMint, ⟨7⟩, ⟨3⟩, 50, false⟩
  inputMint := Ids.nativeMint
  inputProgram := Ids.splToken
  outputMint := otherMint
  outputProgram := Ids.splToken

theorem vaultView_genuine : Genuine vaultLibraries vaultView vaultSettled where
  accounts := ⟨_, _, _, rfl, rfl, rfl, rfl⟩
  distinct := by decide
  settles := by
    refine ⟨[vaultSettled.paid], vaultCall, [vaultSettled.received], [], rfl,
      List.mem_cons_of_mem _ List.mem_cons_self, rfl, rfl, List.mem_cons_self,
      List.mem_cons_self, ?_⟩
    exact ⟨List.Perm.refl _, rfl, rfl, by decide, rfl, by decide, by simp⟩
  paidAmount := by decide
  receivedAmount := by decide
  names := ⟨.inr rfl, .inr rfl⟩
  recorded := ⟨⟨rfl, rfl⟩, ⟨rfl, rfl⟩⟩

/-- The transaction with this swap fails. -/
theorem never_decoded_in_vaultTx :
    ∃ trace, parseTransaction vaultLibraries vaultTx = .err trace ∧
      trace.error = .noDetailsFound :=
  (genuine_never_decoded vaultLibraries).2 vaultTx 0 vaultView .stabbleStable vaultSettled
    vaultView_genuine
    (.root vaultView .stabbleStable ⟨[], _, [], _, rfl, by simp, rfl, by decide, rfl⟩ rfl rfl rfl)
    (.inl rfl)

/-- This genuine swap is decoded by neither parser, and fails its transaction. -/
theorem vaultView_not_decoded :
    Genuine vaultLibraries vaultView vaultSettled ∧
    Dex.StabbleStable.parse vaultLibraries vaultView = .err .noDetailsFound ∧
    Dex.stabbleWeighted vaultLibraries vaultView = .err .noDetailsFound ∧
    parseTransaction vaultLibraries vaultTx = .err ⟨[0], some .stabbleStable, .noDetailsFound⟩ :=
  ⟨vaultView_genuine, rfl, rfl, rfl⟩

end Graced.StabbleVault
