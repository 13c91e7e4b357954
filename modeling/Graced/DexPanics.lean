import Graced.Dispatch

/-!
# When a dex parser panics

The dex parsers read accounts by index. An instruction whose accounts do not reach as
far as its data lets the parser look stops the whole program. So does a Raydium V4 log
line without a payload, whose first byte is read before there is known to be one, and a
number of decimals that a checked power of ten does not fit. There is no other way: where
all of these are as the parser expects them, it returns.
-/

namespace Graced.Dex

variable {T : Type} [SolanaInstruction T]

/-- The positions of a layout, if there is one. -/
def positionsOf : Option Layout → List Nat
  | none => []
  | some layout => layout.positions

/-- The positions that the parser of a program reads by index, for the data of an
instruction and the number of accounts it declares. -/
def positionsRead (program : Program) (data : Bytes) (declared : Nat) : List Nat :=
  match program with
  | .humidiFi => [0, 1, 2, 3]
  | .pump => if Pump.matched data then [2, 4, 3, 6] else []
  | .raydiumV4 =>
    positionsOf (data.head?.bind (fun discriminator => RaydiumV4.layout discriminator declared))
  | .raydiumCpSwap => positionsOf (RaydiumCp.layout data)
  | .raydiumClmm | .pancakeSwap => positionsOf (RaydiumClmm.layout data)
  | .stabbleStable | .stabbleWeighted => positionsOf (StabbleStable.layout data)
  | program => positionsOf ((formatOf program).bind (fun format => format.select data))

namespace RaydiumV4

/-- A line that announces an event and holds no byte of it. -/
def EmptyPayload (env : Env) (line : String) : Prop :=
  ∃ log, logData "Program log: ray_log:" line = some log ∧ env.decodeBase64 log = .ok []

/-- Every line without a payload comes after an event of the wanted kind. -/
def LinesGuarded (env : Env) (baseIn : Bool) (lines : List String) : Prop :=
  ∀ before line after, lines = before ++ line :: after →
    (∀ earlier ∈ before, eventOf env baseIn earlier = .ok none) → ¬ EmptyPayload env line

/-- The lines of the instruction are guarded wherever they are looked at: if it is a swap
between two accounts whose mints are on record, and has logs. -/
def LogsGuarded (env : Env) (view : IxView T) : Prop :=
  ∀ data accs discriminator layout accounts lines, view.data = .ok data →
    data.head? = some discriminator → view.accounts = .ok accs →
    RaydiumV4.layout discriminator accs.len = some layout → layout.read accs = .ok accounts →
    mintOf env view accounts.tokenAccountA ≠ none →
    mintOf env view accounts.tokenAccountB ≠ none → view.programLogs env = .ok lines →
    LinesGuarded env (isBaseIn discriminator) lines

end RaydiumV4

namespace Pump

/-- The power of ten that an amount was divided by is a 64-bit number, if the build
minds. -/
def DecimalsFit (profile : Profile) (recorded : Option TransactionTokenBalance) : Prop :=
  profile.overflowChecks = true →
    ∀ balance, recorded = some balance → balance.uiTokenAmount.decimals.toNat ≤ 19

/-- The decimals of the base vault fit wherever they are looked at: before the
transaction, and after it if the amount before it was a signed number. -/
def DecimalsGuarded (env : Env) (view : IxView T) : Prop :=
  ∀ data accs vault, view.data = .ok data → matched data = true → view.accounts = .ok accs →
    accs.peek 4 = .ok vault →
    DecimalsFit env.profile (view.balance.findTokenAccountBalance vault).before ∧
    ∀ amount, (TokenBalance.amountOr env.profile
        (view.balance.findTokenAccountBalance vault).before : Outcome BalanceError UInt64) =
          .ok amount → tryI64 amount ≠ none →
      DecimalsFit env.profile (view.balance.findTokenAccountBalance vault).after

end Pump

/-- The instruction is one on which the parser of the program returns: all positions that
are read resolve, and what is looked at of logs and decimals is in order. The data of a
HumidiFi instruction is not looked at. -/
structure Guarded (env : Env) (view : IxView T) (program : Program) : Prop where
  positions : ∀ data accs, view.data = .ok data ∨ program = .humidiFi → view.accounts = .ok accs →
    ∀ position ∈ positionsRead program data accs.len, accs.Resolves position
  logs : program = .raydiumV4 → RaydiumV4.LogsGuarded env view
  decimals : program = .pump → Pump.DecimalsGuarded env view

/-! ## Parsers that only read positions -/

/-- All accounts at some positions that depend on the data resolve. -/
def Resolved (view : IxView T) (positions : Bytes → Nat → List Nat) : Prop :=
  ∀ data accs, view.data = .ok data → view.accounts = .ok accs →
    ∀ position ∈ positions data accs.len, accs.Resolves position

/-- Decoding panics only at a position. -/
theorem Format.decode_ne_panic_iff (format : Format) (env : Env) (view : IxView T)
    (accs : InstructionAccounts) (layout : Layout) :
    format.decode env view accs layout ≠ .panic ↔
      ∀ position ∈ layout.positions, accs.Resolves position := by
  rw [Format.decode, Outcome.bind_ne_panic_iff, Layout.read_ne_panic_iff]
  apply and_iff_left_of_imp
  intro _ accounts _
  rw [Outcome.bind_ne_panic_iff]
  refine ⟨by simp, fun info _ => ?_⟩
  cases info with
  | some info => simp
  | none => cases format.required <;> simp

/-- A format whose gate lets all swaps through panics only at a position of the layout it
selects. -/
theorem Format.parse_ne_panic_iff (format : Format) (env : Env) (view : IxView T)
    (gated : ∀ data layout, format.select data = some layout → format.gate data = true) :
    format.parse env view ≠ .panic ↔
      Resolved view (fun data _ => positionsOf (format.select data)) := by
  cases dataRead : view.data with
  | panic => exact absurd dataRead (IxView.data_ne_panic view)
  | err error =>
    cases accountsRead : view.accounts <;> cases first : format.accountsFirst <;>
      simp_all [Format.parse, Resolved]
  | ok data =>
    cases accountsRead : view.accounts with
    | panic => exact absurd accountsRead (IxView.accounts_ne_panic view)
    | err error =>
      cases first : format.accountsFirst <;> cases gate : format.gate data <;>
        simp_all [Format.parse, Resolved]
    | ok accs =>
      cases selected : format.select data with
      | none =>
        cases first : format.accountsFirst <;> cases gate : format.gate data <;>
          simp_all [Format.parse, Resolved, positionsOf]
      | some layout =>
        have decoded := Format.decode_ne_panic_iff format env view accs layout
        cases first : format.accountsFirst <;>
          simp_all [Format.parse, Resolved, positionsOf, gated data layout selected]

/-- The gates of the formats let all swaps through. -/
theorem formatOf_gated (program : Program) (format : Format)
    (known : formatOf program = some format) (data : Bytes) (layout : Layout)
    (selected : format.select data = some layout) : format.gate data = true := by
  cases program <;> cases known
  all_goals first
    | rfl
    | (cases data <;> first | rfl | cases selected)
    | (dsimp only [alphaq, bisonfi, goonfiV1, goonfiV2, solfi, solfiV2, tessera, meteoraPools]
        at selected ⊢
       split at selected
       · simpa
       · cases selected)

/-- A parser that finds its swap without panics panics only at a position. -/
theorem parseLayout_ne_panic_iff (view : IxView T) (label : Program)
    (choose : Bytes → Option Layout) (find : SwapAccounts → Outcome ParseError Swap)
    (quiet : ∀ accounts, find accounts ≠ .panic) :
    parseLayout view label choose find ≠ .panic ↔
      Resolved view (fun data _ => positionsOf (choose data)) := by
  cases dataRead : view.data with
  | panic => exact absurd dataRead (IxView.data_ne_panic view)
  | err error => simp [parseLayout, Resolved, dataRead]
  | ok data =>
    cases accountsRead : view.accounts with
    | panic => exact absurd accountsRead (IxView.accounts_ne_panic view)
    | err error => simp [parseLayout, Resolved, dataRead, accountsRead]
    | ok accs =>
      cases chosen : choose data with
      | none => simp [parseLayout, Resolved, dataRead, accountsRead, chosen, positionsOf]
      | some layout =>
        simp only [parseLayout, dataRead, accountsRead, chosen, Outcome.ok_bind]
        rw [Outcome.bind_ne_panic_iff, Layout.read_ne_panic_iff]
        simp [Resolved, dataRead, accountsRead, chosen, positionsOf, Outcome.bind_ne_panic_iff,
          quiet]

theorem humidifi_ne_panic_iff (env : Env) (view : IxView T) :
    humidifi env view ≠ .panic ↔ ∀ accs, view.accounts = .ok accs →
      ∀ position ∈ [0, 1, 2, 3], accs.Resolves position := by
  rw [humidifi, Outcome.bind_ne_panic_iff]
  refine (and_iff_right (IxView.accounts_ne_panic view)).trans
    (forall_congr' fun accs => imp_congr_right fun _ => ?_)
  rw [Outcome.bind_ne_panic_iff, Layout.read_ne_panic_iff]
  apply and_iff_left_of_imp
  intro _ accounts _
  rw [Outcome.bind_ne_panic_iff]
  refine ⟨by simp, fun info _ => ?_⟩
  cases info <;> simp

/-- The transfers are read without looking at positions. -/
theorem swapOfTransfers_ne_panic (env : Env) (view : IxView T) (accounts : SwapAccounts) :
    swapOfTransfers env view accounts ≠ .panic := by
  simp [swapOfTransfers, Outcome.bind_ne_panic_iff]

theorem RaydiumCp.parse_ne_panic_iff (env : Env) (view : IxView T) :
    RaydiumCp.parse env view ≠ .panic ↔
      Resolved view (fun data _ => positionsOf (RaydiumCp.layout data)) := by
  apply parseLayout_ne_panic_iff
  intro accounts
  unfold RaydiumCp.swap
  split
  · simp
  · exact swapOfTransfers_ne_panic env view accounts

theorem RaydiumClmm.parse_ne_panic_iff (env : Env) (view : IxView T) :
    RaydiumClmm.parse env view ≠ .panic ↔
      Resolved view (fun data _ => positionsOf (RaydiumClmm.layout data)) := by
  apply parseLayout_ne_panic_iff
  intro accounts
  rw [RaydiumClmm.swap, Outcome.bind_ne_panic_iff]
  constructor
  · simp [Outcome.mapError_eq_panic]
  · intro logged _
    cases logged with
    | some event =>
      simp only
      split
      · split <;> simp
      · simp
    | none => exact swapOfTransfers_ne_panic env view accounts

theorem StabbleStable.parse_ne_panic_iff (env : Env) (view : IxView T) :
    StabbleStable.parse env view ≠ .panic ↔
      Resolved view (fun data _ => positionsOf (StabbleStable.layout data)) := by
  apply parseLayout_ne_panic_iff
  intro accounts
  simp [StabbleStable.swap, Outcome.bind_ne_panic_iff, Outcome.mapError_eq_panic]

/-- A wrapper panics where the parser it wraps does. -/
theorem relabelled_ne_panic_iff (label : Program)
    (parsed : Outcome ParseError (Option DexSwap)) :
    (do
      let found ← parsed
      pure (relabel label found)) ≠ .panic ↔ parsed ≠ .panic := by
  cases parsed <;> simp

/-! ## The log of Raydium V4 -/

namespace RaydiumV4

/-- A line stops the search exactly if it announces an event without a payload. -/
theorem eventOf_panic_iff (env : Env) (baseIn : Bool) (line : String) :
    eventOf env baseIn line = .panic ↔ EmptyPayload env line := by
  unfold eventOf EmptyPayload
  cases logData "Program log: ray_log:" line with
  | none => simp
  | some log =>
    cases decoded : env.decodeBase64 log with
    | error message => simp [decodeLog, decoded, Outcome.discard]
    | ok bytes =>
      cases bytes with
      | nil => simp [decodeLog, decoded, Outcome.discard]
      | cons logType bytes =>
        cases typed : decodeTyped logType (logType :: bytes) with
        | error message => simp [decodeLog, decoded, typed, Outcome.discard]
        | ok event =>
          simp only [decodeLog, decoded, typed, Outcome.discard, Outcome.ofExcept_ok,
            Outcome.ok_bind, Option.some.injEq, exists_eq_left']
          split <;> simp

/-- The search through the lines panics exactly if they are not guarded. -/
theorem parseLog_ne_panic_iff (env : Env) (view : IxView T) (baseIn : Bool) :
    parseLog env view baseIn ≠ .panic ↔
      ∀ lines, view.programLogs env = .ok lines → LinesGuarded env baseIn lines := by
  rw [parseLog, Outcome.bind_ne_panic_iff]
  refine (and_iff_right (by simp)).trans (forall_congr' fun lines => ?_)
  rw [Outcome.ofExcept_eq_ok]
  apply imp_congr_right
  intro _
  rw [ne_eq, Outcome.findMap_panic_iff]
  simp [LinesGuarded, eventOf_panic_iff]

/-- With both mints on record, the swap panics exactly in the search for its log. -/
theorem swap_ne_panic_iff (env : Env) (view : IxView T) (accounts : SwapAccounts)
    (baseIn : Bool) :
    swap env view accounts baseIn ≠ .panic ↔
      (mintOf env view accounts.tokenAccountA ≠ none →
        mintOf env view accounts.tokenAccountB ≠ none →
        ∀ lines, view.programLogs env = .ok lines → LinesGuarded env baseIn lines) := by
  have ofTransfers := swapOfTransfers_ne_panic env view accounts
  rw [← parseLog_ne_panic_iff]
  unfold swap
  cases mintOf env view accounts.tokenAccountA with
  | none => simp
  | some coinMint =>
    cases mintOf env view accounts.tokenAccountB with
    | none => simp
    | some pcMint =>
      cases logged : parseLog env view baseIn with
      | panic => simp [Outcome.discard]
      | err error => exact iff_of_true ofTransfers (by simp)
      | ok found =>
        cases found with
        | none => exact iff_of_true ofTransfers (by simp)
        | some event => simp [Outcome.discard]

/-- The lines matter only for an instruction with a layout. -/
theorem logsGuarded_iff (env : Env) (view : IxView T) (data : Bytes) (accs : InstructionAccounts)
    (discriminator : UInt8) (dataRead : view.data = .ok data)
    (first : data.head? = some discriminator) (accountsRead : view.accounts = .ok accs) :
    LogsGuarded env view ↔
      ∀ layout, RaydiumV4.layout discriminator accs.len = some layout →
        ∀ accounts, layout.read accs = .ok accounts →
          mintOf env view accounts.tokenAccountA ≠ none →
          mintOf env view accounts.tokenAccountB ≠ none →
          ∀ lines, view.programLogs env = .ok lines →
            LinesGuarded env (isBaseIn discriminator) lines := by
  constructor
  · intro guarded layout chosen accounts read mintA mintB lines logs
    exact guarded data accs discriminator layout accounts lines dataRead first accountsRead chosen
      read mintA mintB logs
  · intro each data' accs' discriminator' layout accounts lines dataRead' first' accountsRead'
      chosen read mintA mintB logs
    obtain rfl := Outcome.ok.inj (dataRead.symm.trans dataRead')
    obtain rfl := Option.some.inj (first.symm.trans first')
    obtain rfl := Outcome.ok.inj (accountsRead.symm.trans accountsRead')
    exact each layout chosen accounts read mintA mintB lines logs

theorem parse_ne_panic_iff (env : Env) (view : IxView T) :
    RaydiumV4.parse env view ≠ .panic ↔
      Resolved view (fun data declared => positionsOf
        (data.head?.bind (fun discriminator => RaydiumV4.layout discriminator declared))) ∧
      LogsGuarded env view := by
  cases dataRead : view.data with
  | panic => exact absurd dataRead (IxView.data_ne_panic view)
  | err error => simp [RaydiumV4.parse, Resolved, LogsGuarded, dataRead]
  | ok data =>
    cases first : data.head? with
    | none =>
      have nothing : LogsGuarded env view := by
        intro data' _ _ _ _ _ dataRead' first'
        obtain rfl := Outcome.ok.inj (dataRead.symm.trans dataRead')
        simp [first] at first'
      have resolved : Resolved view (fun data declared => positionsOf
          (data.head?.bind (fun discriminator => RaydiumV4.layout discriminator declared))) := by
        intro data' _ dataRead'
        obtain rfl := Outcome.ok.inj (dataRead.symm.trans dataRead')
        simp [first, positionsOf]
      simp [RaydiumV4.parse, dataRead, first, resolved, nothing]
    | some discriminator =>
      cases accountsRead : view.accounts with
      | panic => exact absurd accountsRead (IxView.accounts_ne_panic view)
      | err error =>
        simp [RaydiumV4.parse, Resolved, LogsGuarded, dataRead, first, accountsRead]
      | ok accs =>
        rw [logsGuarded_iff env view data accs discriminator dataRead first accountsRead]
        cases chosen : RaydiumV4.layout discriminator accs.len with
        | none =>
          simp [RaydiumV4.parse, Resolved, dataRead, first, accountsRead, chosen, positionsOf]
        | some layout =>
          have reading : (do
              let accounts ← layout.read accs
              let swap ← swap env view accounts (isBaseIn discriminator)
              pure (some ⟨accounts.user, accounts.market, .raydiumV4, swap⟩)) ≠
                (.panic : Outcome ParseError (Option DexSwap)) ↔
              (∀ position ∈ layout.positions, accs.Resolves position) ∧
                ∀ accounts, layout.read accs = .ok accounts →
                  mintOf env view accounts.tokenAccountA ≠ none →
                  mintOf env view accounts.tokenAccountB ≠ none →
                  ∀ lines, view.programLogs env = .ok lines →
                    LinesGuarded env (isBaseIn discriminator) lines := by
            rw [Outcome.bind_ne_panic_iff, Layout.read_ne_panic_iff]
            refine and_congr_right fun _ => forall_congr' fun accounts => imp_congr_right
              fun _ => ?_
            rw [Outcome.bind_ne_panic_iff, swap_ne_panic_iff]
            simp
          simpa [RaydiumV4.parse, Resolved, dataRead, first, accountsRead, chosen, positionsOf]
            using reading

end RaydiumV4

/-! ## The balances of Pump -/

namespace Pump

/-- Ten to the nineteenth is the last power of ten in 64 bits. -/
theorem pow64_ne_panic_iff (profile : Profile) (exponent : Nat) :
    (profile.pow64 10 exponent : Outcome BalanceError UInt64) ≠ .panic ↔
      (profile.overflowChecks = true → exponent ≤ 19) := by
  have fits : 2 ^ 64 ≤ (10 : UInt64).toNat ^ exponent ↔ ¬ exponent ≤ 19 := by
    constructor
    · intro tooLarge small
      have bound : (10 : Nat) ^ exponent ≤ 10 ^ 19 := Nat.pow_le_pow_right (by omega) small
      have exceeds : 2 ^ 64 ≤ (10 : Nat) ^ exponent := tooLarge
      omega
    · intro large
      have bound : (10 : Nat) ^ 20 ≤ 10 ^ exponent :=
        Nat.pow_le_pow_right (by omega) (by omega)
      show 2 ^ 64 ≤ (10 : Nat) ^ exponent
      omega
  unfold Profile.pow64
  split
  · rename_i overflows
    exact iff_of_false (by simp) (fun small => fits.mp overflows.2 (small overflows.1))
  · rename_i fitting
    apply iff_of_true (by simp)
    intro checks
    by_contra large
    exact fitting ⟨checks, fits.mpr large⟩

/-- Recomputing a recorded amount panics exactly if its decimals do not fit. -/
theorem amountOr_ne_panic_iff (profile : Profile) (recorded : Option TransactionTokenBalance) :
    (TokenBalance.amountOr profile recorded : Outcome BalanceError UInt64) ≠ .panic ↔
      DecimalsFit profile recorded := by
  cases recorded with
  | none => simp [TokenBalance.amountOr, DecimalsFit]
  | some balance =>
    rw [TokenBalance.amountOr, deriveAmount, Outcome.bind_ne_panic_iff, pow64_ne_panic_iff]
    simp [DecimalsFit]

/-- The difference of a token balance panics exactly at decimals that do not fit. -/
theorem difference_ne_panic_iff (profile : Profile) (balance : TokenBalance) :
    balance.difference profile ≠ .panic ↔
      DecimalsFit profile balance.before ∧
      ∀ amount, (TokenBalance.amountOr profile balance.before : Outcome BalanceError UInt64) =
          .ok amount → tryI64 amount ≠ none → DecimalsFit profile balance.after := by
  by_cases unrecorded : balance.before.isNone ∧ balance.after.isNone
  · obtain ⟨noBefore, noAfter⟩ := unrecorded
    rw [Option.isNone_iff_eq_none] at noBefore noAfter
    simp [TokenBalance.difference, DecimalsFit, noBefore, noAfter]
  · rw [TokenBalance.difference, if_neg unrecorded, Outcome.bind_ne_panic_iff,
      amountOr_ne_panic_iff]
    refine and_congr_right fun _ => forall_congr' fun amount => imp_congr_right fun _ => ?_
    cases converted : tryI64 amount with
    | none => simp [TokenBalance.toI64, converted]
    | some before =>
      simp [TokenBalance.toI64, converted, Outcome.bind_ne_panic_iff, amountOr_ne_panic_iff]

theorem native_ne_panic (balance : NativeBalance) : balance.difference ≠ .panic := by
  simp [NativeBalance.difference, TokenBalance.toI64, Outcome.bind_ne_panic_iff]

theorem native_range (balance : NativeBalance) (difference : Int)
    (found : balance.difference = .ok difference) : difference.natAbs < 2 ^ 63 := by
  simp only [NativeBalance.difference, Outcome.bind_ok_iff, TokenBalance.toI64,
    Outcome.okOr_eq_ok] at found
  obtain ⟨before, beforeFits, after, afterFits, subtracted⟩ := found
  exact checkedSubI64_range after before difference (tryI64_range _ after afterFits)
    (tryI64_range _ before beforeFits) subtracted

/-- Amounts in range have magnitudes that can be unwrapped. -/
theorem swap_ne_panic (baseDiff quoteDiff : Int) (baseMint : Pubkey)
    (baseRange : baseDiff.natAbs < 2 ^ 63) (quoteRange : quoteDiff.natAbs < 2 ^ 63) :
    swap baseDiff quoteDiff baseMint ≠ .panic := by
  unfold swap
  split
  · simp [absIntoU64_fits _ baseRange, absIntoU64_fits _ quoteRange]
  · split
    · simp [absIntoU64_fits _ baseRange, absIntoU64_fits _ quoteRange]
    · simp

omit [SolanaInstruction T] in
/-- What the parser does with the four accounts panics exactly at the decimals of the
base vault. -/
theorem swapOfAccounts_ne_panic_iff (env : Env) (view : IxView T)
    (baseMint baseVault bondingCurve user : Pubkey) :
    (do
      let baseDiff ← ((view.balance.findTokenAccountBalance baseVault).difference
        env.profile).mapError ParseError.balance
      let quoteDiff ← (view.balance.findNativeBalance bondingCurve).difference.mapError .balance
      let swap ← swap baseDiff quoteDiff baseMint
      pure (some ⟨user, bondingCurve, .pump, swap⟩)) ≠
        (.panic : Outcome ParseError (Option DexSwap)) ↔
      DecimalsFit env.profile (view.balance.findTokenAccountBalance baseVault).before ∧
      ∀ amount, (TokenBalance.amountOr env.profile
          (view.balance.findTokenAccountBalance baseVault).before :
            Outcome BalanceError UInt64) = .ok amount → tryI64 amount ≠ none →
        DecimalsFit env.profile (view.balance.findTokenAccountBalance baseVault).after := by
  rw [Outcome.bind_ne_panic_iff, ← difference_ne_panic_iff, ne_eq, Outcome.mapError_eq_panic]
  apply and_iff_left_of_imp
  intro _ baseDiff foundBase
  rw [Outcome.mapError_eq_ok] at foundBase
  rw [Outcome.bind_ne_panic_iff, ne_eq, Outcome.mapError_eq_panic]
  refine ⟨native_ne_panic _, fun quoteDiff foundQuote => ?_⟩
  rw [Outcome.mapError_eq_ok] at foundQuote
  rw [Outcome.bind_ne_panic_iff]
  exact ⟨swap_ne_panic baseDiff quoteDiff baseMint (TokenBalance.difference_range _ _ _ foundBase)
    (native_range _ _ foundQuote), by simp⟩

/-- The decimals matter only for an instruction that swaps. -/
theorem decimalsGuarded_iff (env : Env) (view : IxView T) (data : Bytes)
    (accs : InstructionAccounts) (dataRead : view.data = .ok data)
    (accountsRead : view.accounts = .ok accs) :
    DecimalsGuarded env view ↔ (matched data = true → ∀ vault, accs.peek 4 = .ok vault →
      DecimalsFit env.profile (view.balance.findTokenAccountBalance vault).before ∧
      ∀ amount, (TokenBalance.amountOr env.profile
          (view.balance.findTokenAccountBalance vault).before : Outcome BalanceError UInt64) =
            .ok amount → tryI64 amount ≠ none →
        DecimalsFit env.profile (view.balance.findTokenAccountBalance vault).after) := by
  constructor
  · intro guarded swapData vault atVault
    exact guarded data accs vault dataRead swapData accountsRead atVault
  · intro each data' accs' vault dataRead' swapData accountsRead' atVault
    obtain rfl := Outcome.ok.inj (dataRead.symm.trans dataRead')
    obtain rfl := Outcome.ok.inj (accountsRead.symm.trans accountsRead')
    exact each swapData vault atVault

theorem parse_ne_panic_iff (env : Env) (view : IxView T) :
    Pump.parse env view ≠ .panic ↔
      Resolved view (fun data _ => if matched data then [2, 4, 3, 6] else []) ∧
      DecimalsGuarded env view := by
  cases dataRead : view.data with
  | panic => exact absurd dataRead (IxView.data_ne_panic view)
  | err error => simp [Pump.parse, Resolved, DecimalsGuarded, dataRead]
  | ok data =>
    cases accountsRead : view.accounts with
    | panic => exact absurd accountsRead (IxView.accounts_ne_panic view)
    | err error => simp [Pump.parse, Resolved, DecimalsGuarded, dataRead, accountsRead]
    | ok accs =>
      rw [decimalsGuarded_iff env view data accs dataRead accountsRead]
      cases swapData : matched data with
      | false => simp [Pump.parse, Resolved, dataRead, accountsRead, swapData]
      | true =>
        simp only [Pump.parse, dataRead, accountsRead, Outcome.ok_bind, swapData, if_true,
          InstructionAccounts.index_bind_ne_panic_iff, swapOfAccounts_ne_panic_iff]
        constructor
        · rintro ⟨baseMint, at2, vault, at4, curve, at3, user, at6, fits⟩
          refine ⟨?_, fun _ other atOther => ?_⟩
          · simp [Resolved, dataRead, accountsRead, swapData, InstructionAccounts.Resolves, at2,
              at3, at4, at6]
          · obtain rfl := Except.ok.inj (at4.symm.trans atOther)
            exact fits
        · rintro ⟨resolved, fits⟩
          have positions : ∀ position ∈ [2, 4, 3, 6], accs.Resolves position := by
            simpa [swapData] using resolved data accs dataRead accountsRead
          obtain ⟨baseMint, at2⟩ := positions 2 (by decide)
          obtain ⟨vault, at4⟩ := positions 4 (by decide)
          obtain ⟨curve, at3⟩ := positions 3 (by decide)
          obtain ⟨user, at6⟩ := positions 6 (by decide)
          exact ⟨baseMint, at2, vault, at4, curve, at3, user, at6, fits trivial vault at4⟩

end Pump

/-! ## All parsers -/

/-- Of a program without special needs, only the positions matter. -/
theorem guarded_of_positions (env : Env) (view : IxView T) (program : Program)
    (notRaydium : program ≠ .raydiumV4) (notPump : program ≠ .pump)
    (notHumidifi : program ≠ .humidiFi) :
    Guarded env view program ↔ Resolved view (positionsRead program) := by
  constructor
  · intro guarded data accs dataRead
    exact guarded.positions data accs (.inl dataRead)
  · intro resolved
    refine ⟨?_, fun raydium => absurd raydium notRaydium, fun pump => absurd pump notPump⟩
    rintro data accs (dataRead | humidifi)
    · exact resolved data accs dataRead
    · exact absurd humidifi notHumidifi

/-- A program with a format reads the positions that the format selects. -/
theorem positionsRead_formatOf (program : Program) (format : Format)
    (known : formatOf program = some format) (data : Bytes) (declared : Nat) :
    positionsRead program data declared = positionsOf (format.select data) := by
  cases program <;> cases known <;> rfl

/-- A dex parser returns exactly on the guarded instructions, whatever the program, the
account table, the balances, the logs and the libraries. -/
theorem returns_iff_guarded (env : Env) (view : IxView T) (program : Program) :
    Dex.parse env view program ≠ .panic ↔ Guarded env view program := by
  cases known : formatOf program with
  | some format =>
    rw [parse_formatOf env view program format known,
      Format.parse_ne_panic_iff format env view (formatOf_gated program format known),
      guarded_of_positions env view program (by rintro rfl; cases known)
        (by rintro rfl; cases known) (by rintro rfl; cases known)]
    simp only [Resolved, positionsRead_formatOf program format known]
  | none =>
    cases program
    case humidiFi =>
      apply (humidifi_ne_panic_iff env view).trans
      constructor
      · intro resolved
        exact ⟨fun _ accs _ => resolved accs, (fun other => nomatch other),
          (fun other => nomatch other)⟩
      · intro guarded accs
        exact guarded.positions [] accs (.inr rfl)
    case raydiumV4 =>
      apply (RaydiumV4.parse_ne_panic_iff env view).trans
      constructor
      · rintro ⟨resolved, logs⟩
        refine ⟨?_, fun _ => logs, (fun other => nomatch other)⟩
        rintro data accs (dataRead | other)
        · exact resolved data accs dataRead
        · cases other
      · intro guarded
        constructor
        · intro data accs dataRead
          exact guarded.positions data accs (.inl dataRead)
        · exact guarded.logs rfl
    case pump =>
      apply (Pump.parse_ne_panic_iff env view).trans
      constructor
      · rintro ⟨resolved, decimals⟩
        refine ⟨?_, (fun other => nomatch other), fun _ => decimals⟩
        rintro data accs (dataRead | other)
        · exact resolved data accs dataRead
        · cases other
      · intro guarded
        constructor
        · intro data accs dataRead
          exact guarded.positions data accs (.inl dataRead)
        · exact guarded.decimals rfl
    case raydiumCpSwap =>
      apply (RaydiumCp.parse_ne_panic_iff env view).trans
      exact (guarded_of_positions env view .raydiumCpSwap (by decide) (by decide) (by decide)).symm
    case raydiumClmm =>
      apply (RaydiumClmm.parse_ne_panic_iff env view).trans
      exact (guarded_of_positions env view .raydiumClmm (by decide) (by decide) (by decide)).symm
    case pancakeSwap =>
      apply (relabelled_ne_panic_iff _ _).trans
      apply (RaydiumClmm.parse_ne_panic_iff env view).trans
      exact (guarded_of_positions env view .pancakeSwap (by decide) (by decide) (by decide)).symm
    case stabbleStable =>
      apply (StabbleStable.parse_ne_panic_iff env view).trans
      exact (guarded_of_positions env view .stabbleStable (by decide) (by decide) (by decide)).symm
    case stabbleWeighted =>
      apply (relabelled_ne_panic_iff _ _).trans
      apply (StabbleStable.parse_ne_panic_iff env view).trans
      exact (guarded_of_positions env view .stabbleWeighted (by decide) (by decide)
        (by decide)).symm
    all_goals first
      | cases known; done
      | -- no parser: nothing is read
        apply iff_of_true (by simp [Dex.parse])
        apply (guarded_of_positions env view _ (by simp) (by simp) (by simp)).mpr
        intro _ _ _ _ position member
        simp [positionsRead, formatOf, positionsOf] at member

/-- A Raydium V4 swap whose program logged an event without a payload. -/
def emptyLogTx : SolanaTx where
  instructions := [⟨2, [2, 3, 2, 2, 4, 5, 2, 2, 2, 2, 2, 2, 2, 2, 2, 2, 0], [9]⟩]
  accountKeys := poolKeys .raydiumV4
  metadata := { (poolTx .raydiumV4 [] []).metadata with
    logMessages := ["Program 675kPX9MHTjS2zt1qfr1NYHuzeLXfQM9H24wFSUt1Mp8 invoke [1]",
      "Program log: ray_log: "] }

/-- A ZeroFi instruction without accounts stops the parser, and so does an empty log. -/
theorem panics_on_short_accounts :
    Dex.parse poolLibraries ((poolTx .zeroFi [] []).view (poolTree [0] [] [])) .zeroFi = .panic ∧
    parseTransaction poolLibraries (poolTx .zeroFi [] []) = .panic ∧
    parseTransaction poolLibraries emptyLogTx = .panic :=
  ⟨rfl, rfl, rfl⟩

end Graced.Dex
