import Graced.DexPanics
import Graced.RaydiumAgreement

/-!
# When the logs have no event

Four parsers look at the logs of an instruction before its transfers. Logs can be missing:
the transaction has none, they cannot be parsed, or no call of theirs is at the path of the
instruction; and logs that are there may have no event of the wanted kind. The swap is then
to be found among the transfers.

Raydium CP falls back on the transfers in all of these cases. Raydium CLMM, and PancakeSwap
with it, does so only if there are logs without an event. Raydium V4 does so except where a
line announces an event and has no payload.
-/

namespace Graced.MissingLogs

open RaydiumAgreement

/-- The dexes whose parsers look at the logs first. -/
inductive LogsFirst where
  | raydiumV4
  | raydiumCp
  | raydiumClmm
  | pancakeSwap
deriving DecidableEq, Repr

variable {T : Type} [SolanaInstruction T]

namespace LogsFirst

/-- The parser of the dex. -/
def parse (env : Env) (view : IxView T) : LogsFirst → Outcome ParseError (Option DexSwap)
  | raydiumV4 => Dex.RaydiumV4.parse env view
  | raydiumCp => Dex.RaydiumCp.parse env view
  | raydiumClmm => Dex.RaydiumClmm.parse env view
  | pancakeSwap => Dex.pancakeSwap env view

/-- The label that the parser puts on a swap. -/
def label : LogsFirst → Program
  | raydiumV4 => .raydiumV4
  | raydiumCp => .raydiumV4
  | raydiumClmm => .raydiumClmm
  | pancakeSwap => .pancakeSwap

end LogsFirst

/-- The instruction is a swap of the dex between the vaults of these accounts, and lines
like these have the event of the swap. -/
inductive Wants (env : Env) (view : IxView T) (accounts : SwapAccounts) :
    LogsFirst → (String → Prop) → Prop where
  | raydiumV4 (discriminator : UInt8) (rest : Bytes) (accs : InstructionAccounts)
      (layout : Layout) :
      view.data = .ok (discriminator :: rest) → view.accounts = .ok accs →
      Dex.RaydiumV4.layout discriminator accs.len = some layout → layout.read accs = .ok accounts →
      Wants env view accounts .raydiumV4 (fun line => ∃ event,
        Dex.RaydiumV4.eventOf env (Dex.RaydiumV4.isBaseIn discriminator) line = .ok (some event))
  | raydiumCp : Dex.ReadsLayout view Dex.RaydiumCp.layout accounts →
      Wants env view accounts .raydiumCp
        (fun line => ∃ event, Dex.RaydiumCp.eventOf env line = some event)
  | raydiumClmm : Dex.ReadsLayout view Dex.RaydiumClmm.layout accounts →
      Wants env view accounts .raydiumClmm
        (fun line => ∃ event, Dex.RaydiumClmm.eventOf env line = some event)
  | pancakeSwap : Dex.ReadsLayout view Dex.RaydiumClmm.layout accounts →
      Wants env view accounts .pancakeSwap
        (fun line => ∃ event, Dex.RaydiumClmm.eventOf env line = some event)

/-- The logs cannot be had, or no line has the event. -/
def Missing (env : Env) (view : IxView T) (hasEvent : String → Prop) : Prop :=
  (∃ error, view.programLogs env = .error error) ∨
    ∃ lines, view.programLogs env = .ok lines ∧ ∀ line ∈ lines, ¬ hasEvent line

/-- What the parser needs of the logs to go on without their event. -/
def GoesOn (env : Env) (view : IxView T) : LogsFirst → Prop
  | .raydiumV4 => ∀ lines, view.programLogs env = .ok lines →
      ∀ line ∈ lines, ¬ Dex.RaydiumV4.EmptyPayload env line
  | .raydiumCp => True
  | .raydiumClmm | .pancakeSwap => ∃ lines, view.programLogs env = .ok lines

variable {env : Env} {view : IxView T} {accounts : SwapAccounts}

/-- The transfers show the swap. -/
theorem swapOfTransfers_shown {info : SwapInfo}
    (shown : view.swapInfo env accounts.tokenAccountA accounts.tokenAccountB accounts.user =
      .ok (some info)) :
    Dex.swapOfTransfers env view accounts = .ok info.toSwap := by
  rw [Dex.swapOfTransfers, shown]
  rfl

/-- A search for an event that no line has finds none. -/
theorem findSome?_missing {Event : Type} (eventOf : String → Option Event) (lines : List String)
    (missing : ∀ line ∈ lines, ¬ ∃ event, eventOf line = some event) :
    lines.findSome? eventOf = none := by
  rw [List.findSome?_eq_none_iff]
  intro line member
  rw [Option.eq_none_iff_forall_ne_some]
  exact fun event has => missing line member ⟨event, has⟩

/-! ## Raydium V4 -/

/-- A line without a wanted event is passed over, or it stops the search. -/
theorem eventOf_missing (baseIn : Bool) (line : String)
    (missing : ¬ ∃ event, Dex.RaydiumV4.eventOf env baseIn line = .ok (some event)) :
    Dex.RaydiumV4.eventOf env baseIn line = .ok none ∨
      Dex.RaydiumV4.eventOf env baseIn line = .panic := by
  cases result : Dex.RaydiumV4.eventOf env baseIn line with
  | panic => exact .inr rfl
  | ok found =>
    cases found with
    | none => exact .inl rfl
    | some event => exact absurd ⟨event, result⟩ missing
  | err error =>
    rw [Dex.RaydiumV4.eventOf] at result
    cases announced : Dex.logData "Program log: ray_log:" line with
    | none => simp [announced] at result
    | some log =>
      simp only [announced, Outcome.bind_err_iff, Outcome.discard_ne_err, false_or] at result
      obtain ⟨found, _, rest⟩ := result
      cases found with
      | none => simp at rest
      | some event =>
        simp only at rest
        split at rest <;> simp at rest

/-- Without an event the transfers tell the swap, unless a line without a payload stops the
search. -/
theorem v4_swap_iff (baseIn : Bool) (info : SwapInfo)
    (recorded : (∃ mint, Dex.mintOf env view accounts.tokenAccountA = some mint) ∧
      ∃ mint, Dex.mintOf env view accounts.tokenAccountB = some mint)
    (shown : view.swapInfo env accounts.tokenAccountA accounts.tokenAccountB accounts.user =
      .ok (some info))
    (missing : Missing env view (fun line => ∃ event,
      Dex.RaydiumV4.eventOf env baseIn line = .ok (some event))) :
    Dex.RaydiumV4.swap env view accounts baseIn = .ok info.toSwap ↔
      GoesOn env view .raydiumV4 := by
  obtain ⟨⟨coinMint, coinRecorded⟩, pcMint, pcRecorded⟩ := recorded
  simp only [Dex.RaydiumV4.swap, coinRecorded, pcRecorded, Dex.RaydiumV4.parseLog, GoesOn]
  rcases missing with ⟨error, unreadable⟩ | ⟨lines, logged, silent⟩
  · simp [unreadable, Outcome.discard, swapOfTransfers_shown shown]
  · have passes := Outcome.findMap_of_missing (Dex.RaydiumV4.eventOf env baseIn) lines
      fun line member => eventOf_missing baseIn line (silent line member)
    simp only [ne_eq, Dex.RaydiumV4.eventOf_panic_iff] at passes
    rcases passes with ⟨ended, payloads⟩ | ⟨stopped, line, member, empty⟩
    · simpa [logged, ended, Outcome.discard, swapOfTransfers_shown shown] using payloads
    · simp only [logged, Outcome.ofExcept_ok, Outcome.ok_bind, stopped, Outcome.discard,
        Outcome.panic_bind, reduceCtorEq, false_iff]
      exact fun guarded => guarded lines rfl line member empty

/-! ## Raydium CP -/

/-- Without an event the transfers tell the swap. -/
theorem cp_swap_eq (info : SwapInfo)
    (shown : view.swapInfo env accounts.tokenAccountA accounts.tokenAccountB accounts.user =
      .ok (some info))
    (missing : Missing env view (fun line => ∃ event,
      Dex.RaydiumCp.eventOf env line = some event)) :
    Dex.RaydiumCp.swap env view accounts = .ok info.toSwap := by
  have noEvent : (Dex.RaydiumCp.parseLog env view).toOption.join = none := by
    rcases missing with ⟨error, unreadable⟩ | ⟨lines, logged, silent⟩
    · simp [Dex.RaydiumCp.parseLog, unreadable, bind, Except.bind, Except.toOption]
    · simp [Dex.RaydiumCp.parseLog, logged, bind, Except.bind, Except.toOption,
        findSome?_missing _ lines silent]
  simp [Dex.RaydiumCp.swap, Dex.RaydiumCp.swapOfLog, noEvent, swapOfTransfers_shown shown]

/-! ## Raydium CLMM -/

/-- Without an event the transfers tell the swap, if there are logs at all. -/
theorem clmm_swap_iff (info : SwapInfo)
    (shown : view.swapInfo env accounts.tokenAccountA accounts.tokenAccountB accounts.user =
      .ok (some info))
    (missing : Missing env view (fun line => ∃ event,
      Dex.RaydiumClmm.eventOf env line = some event)) :
    Dex.RaydiumClmm.swap env view accounts = .ok info.toSwap ↔
      GoesOn env view .raydiumClmm := by
  rw [Dex.RaydiumClmm.swap, Dex.RaydiumClmm.parseLog, GoesOn]
  rcases missing with ⟨error, unreadable⟩ | ⟨lines, logged, silent⟩
  · simp [unreadable, bind, Except.bind, Outcome.bind]
  · simp [logged, bind, Except.bind, Outcome.bind, findSome?_missing _ lines silent,
      swapOfTransfers_shown shown]

/-! ## All four -/

/-- A swap that ends a parser's search is reported under its label. -/
theorem labelled_iff (find : Outcome ParseError Swap) (user market : Pubkey) (label : Program)
    (swap : Swap) :
    (find >>= fun found => (.ok (some ⟨user, market, label, found⟩) :
        Outcome ParseError (Option DexSwap))) = .ok (some ⟨user, market, label, swap⟩) ↔
      find = .ok swap := by
  cases find <;> simp

/-- A swap whose event is missing from the logs is found among the transfers exactly if the
parser goes on without the event. -/
theorem missing_logs_iff (env : Env) (view : IxView T) (accounts : SwapAccounts)
    (kind : LogsFirst) (hasEvent : String → Prop) (info : SwapInfo)
    (wants : Wants env view accounts kind hasEvent)
    (recorded : (∃ mint, Dex.mintOf env view accounts.tokenAccountA = some mint) ∧
      ∃ mint, Dex.mintOf env view accounts.tokenAccountB = some mint)
    (shown : view.swapInfo env accounts.tokenAccountA accounts.tokenAccountB accounts.user =
      .ok (some info))
    (missing : Missing env view hasEvent) :
    kind.parse env view =
        .ok (some ⟨accounts.user, accounts.market, kind.label, info.toSwap⟩) ↔
      GoesOn env view kind := by
  cases wants with
  | raydiumV4 discriminator rest accs layout hasData resolved chosen read =>
    have parsed : Dex.RaydiumV4.parse env view =
        Dex.RaydiumV4.swap env view accounts (Dex.RaydiumV4.isBaseIn discriminator) >>=
          fun swap => .ok (some ⟨accounts.user, accounts.market, .raydiumV4, swap⟩) := by
      simp [Dex.RaydiumV4.parse, hasData, resolved, chosen, read]
    rw [LogsFirst.parse, LogsFirst.label, parsed, labelled_iff]
    exact v4_swap_iff _ info recorded shown missing
  | raydiumCp reads =>
    rw [LogsFirst.parse, LogsFirst.label, Dex.RaydiumCp.parse,
      Dex.parseLayout_reads view _ _ _ accounts reads, labelled_iff]
    exact iff_of_true (cp_swap_eq info shown missing) trivial
  | raydiumClmm reads =>
    rw [LogsFirst.parse, LogsFirst.label, Dex.RaydiumClmm.parse,
      Dex.parseLayout_reads view _ _ _ accounts reads, labelled_iff]
    exact clmm_swap_iff info shown missing
  | pancakeSwap reads =>
    rw [LogsFirst.parse, LogsFirst.label, Dex.pancakeSwap, Dex.RaydiumClmm.parse,
      Dex.parseLayout_reads view _ _ _ accounts reads]
    have relabelled : ((Dex.RaydiumClmm.swap env view accounts >>= fun swap =>
          (.ok (some ⟨accounts.user, accounts.market, .raydiumClmm, swap⟩) :
            Outcome ParseError (Option DexSwap))) >>= fun parsed =>
          pure (Dex.relabel .pancakeSwap parsed)) =
        Dex.RaydiumClmm.swap env view accounts >>= fun swap =>
          .ok (some ⟨accounts.user, accounts.market, .pancakeSwap, swap⟩) := by
      rw [bind_assoc]
      rfl
    rw [relabelled, labelled_iff]
    exact clmm_swap_iff info shown missing

/-! ## Swaps without logs -/

/-- A transaction whose only instruction lets the user pay 100 into the vault 4 and the pool
pay 150 out of the vault 5, with these log messages. -/
def loggingTx (program : Program) (root : CompiledInstruction) (messages : List String) :
    SolanaTx where
  instructions := [root]
  accountKeys := poolKeys program
  metadata := { (rayTx 7).metadata with logMessages := messages }

/-- The instruction of that transaction. -/
def loggingView (program : Program) (root : CompiledInstruction) (messages : List String) :
    IxView StackIx :=
  (loggingTx program root messages).view
    ⟨root, (rayTransfers 7).mapIdx (fun i ix => ⟨ix, [], [0, UInt8.ofNat i]⟩), [0]⟩

/-- What the transfers of these instructions show. -/
def loggingInfo : SwapInfo :=
  ⟨Ids.nativeMint, LegAgreement.otherMint, 100, 150, Ids.splToken, Ids.splToken, true⟩

/-- A Raydium V4 swap. -/
def v4Root : CompiledInstruction :=
  ⟨2, [2, 3, 2, 2, 4, 5, 2, 2, 2, 2, 2, 2, 2, 2, 2, 2, 0], [9]⟩

/-- A Raydium CLMM swap. -/
def clmmRoot : CompiledInstruction := ⟨2, [0, 2, 3, 2, 2, 4, 5], Dex.swapDisc⟩

/-- Libraries that also decode an empty payload. -/
def emptyPayloadLibraries : Env :=
  { rayLibraries with decodeBase64 := poolLibraries.decodeBase64 }

/-- Without logs, the transfers tell the Raydium V4 swap. -/
theorem missing_logs_of_v4 :
    LogsFirst.raydiumV4.parse rayLibraries (loggingView .raydiumV4 v4Root []) =
      .ok (some ⟨⟨2⟩, ⟨3⟩, .raydiumV4, loggingInfo.toSwap⟩) :=
  (missing_logs_iff rayLibraries (loggingView .raydiumV4 v4Root []) rayAccounts .raydiumV4 _
    loggingInfo (.raydiumV4 9 [] _ _ rfl rfl rfl rfl) ⟨⟨_, rfl⟩, _, rfl⟩ rfl
    (.inl ⟨.noLogs, rfl⟩)).mpr (by
      intro lines logged
      cases logged)

/-- Without logs, the Raydium CLMM swap is an error. With a line without a payload, the
Raydium V4 swap is a panic. Both are shown by the transfers. -/
theorem missing_logs_not_recovered :
    (loggingView .raydiumClmm clmmRoot []).swapInfo rayLibraries ⟨4⟩ ⟨5⟩ ⟨2⟩ =
      .ok (some loggingInfo) ∧
    (loggingView .raydiumClmm clmmRoot []).programLogs rayLibraries = .error .noLogs ∧
    Wants rayLibraries (loggingView .raydiumClmm clmmRoot []) rayAccounts .raydiumClmm
      (fun line => ∃ event, Dex.RaydiumClmm.eventOf rayLibraries line = some event) ∧
    Dex.RaydiumClmm.parse rayLibraries (loggingView .raydiumClmm clmmRoot []) =
      .err (.txLogs .noLogs) ∧
    (loggingView .raydiumV4 v4Root ["Program x invoke [1]", "Program log: ray_log: "]).swapInfo
      emptyPayloadLibraries ⟨4⟩ ⟨5⟩ ⟨2⟩ = .ok (some loggingInfo) ∧
    Dex.RaydiumV4.parse emptyPayloadLibraries
      (loggingView .raydiumV4 v4Root ["Program x invoke [1]", "Program log: ray_log: "]) =
        .panic :=
  ⟨rfl, rfl, .raydiumClmm ⟨_, _, _, rfl, rfl, rfl, rfl⟩, rfl, rfl, rfl⟩

end Graced.MissingLogs
