import Graced.DexLabels
import Graced.LegSelection

/-!
# Where a reported swap comes from

The parties of a reported swap are accounts that its instruction declares. Its mints are
recorded in the token balances of the transaction or listed by a call of the instruction.
Two parsers know more: Pump names a declared account or the mint of lamports, and Raydium CP
takes the word of a log.
-/

namespace Graced.Provenance

variable {T : Type} [SolanaInstruction T]

/-- One of these indices stands for the key. -/
def Listed (keys : AccountKeys) (indices : List UInt8) (key : Pubkey) : Prop :=
  ∃ index ∈ indices, keys.get index.toNat = some key

/-- The instruction declares the account. -/
def Declared (view : IxView T) (key : Pubkey) : Prop :=
  Listed view.keys (SolanaInstruction.accounts view.ix) key

/-- A token balance of the transaction is recorded in the mint. -/
def RecordedMint (env : Env) (balance : TxBalance) (mint : Pubkey) : Prop :=
  ∃ record ∈ balance.metadata.preTokenBalances ++ balance.metadata.postTokenBalances,
    env.pubkeyFromStr record.mint = some mint

/-- Where the parser of a program can have a mint from. -/
inductive MintSource (env : Env) (view : IxView T) (program : Program) : Pubkey → Prop where
  | recorded (mint : Pubkey) : RecordedMint env view.balance mint →
      MintSource env view program mint
  | transferred (mint : Pubkey) (call : T) :
      call ∈ SolanaInstruction.innerInstructions view.ix →
      Listed view.keys (SolanaInstruction.accounts call) mint → MintSource env view program mint
  | declared (mint : Pubkey) : program = .pump → Declared view mint →
      MintSource env view program mint
  | lamports : program = .pump → MintSource env view program Ids.nativeMint
  | logged (lines : List String) (line : String) (event : Dex.RaydiumCp.Event)
      (input output mint : Pubkey) : program = .raydiumCpSwap →
      view.programLogs env = .ok lines → line ∈ lines →
      Dex.RaydiumCp.eventOf env line = some event → event.mints = some (input, output) →
      mint = input ∨ mint = output → MintSource env view program mint

/-- Both mints of a swap have a source. -/
structure MintsSourced (env : Env) (view : IxView T) (program : Program) (swap : Swap) : Prop where
  input : MintSource env view program swap.inputMint
  output : MintSource env view program swap.outputMint

/-- The parties are declared, and the mints have a source. -/
structure Sourced (env : Env) (view : IxView T) (program : Program) (swap : DexSwap) : Prop where
  user : Declared view swap.user
  market : Declared view swap.market
  mints : MintsSourced env view program swap.swap

/-! ## Accounts -/

/-- What is found at a position is listed. -/
theorem peek_listed (keys : AccountKeys) (indices : List UInt8) (programIdIdx : UInt8)
    (accs : InstructionAccounts)
    (made : InstructionAccounts.new keys indices programIdIdx = .ok accs) (position : Nat)
    (key : Pubkey) (found : accs.peek position = .ok key) : Listed keys indices key := by
  unfold InstructionAccounts.new at made
  split at made
  · cases made
  · obtain rfl := Except.ok.inj made
    unfold InstructionAccounts.peek at found
    split at found
    · cases found
    · rename_i index atPosition
      split at found
      · cases found
      · rename_i resolved
        obtain rfl := Except.ok.inj found
        exact ⟨index, List.mem_of_getElem? atPosition, resolved⟩

/-- What an instruction reads at a position is declared. -/
theorem peek_declared (view : IxView T) (accs : InstructionAccounts)
    (made : view.accounts = .ok accs) (position : Nat) (key : Pubkey)
    (found : accs.peek position = .ok key) : Declared view key := by
  rw [IxView.accounts, Outcome.mapError_eq_ok, Outcome.ofExcept_eq_ok] at made
  exact peek_listed _ _ _ accs made position key found

/-- A layout is read from declared accounts. -/
theorem read_declared (view : IxView T) (accs : InstructionAccounts)
    (made : view.accounts = .ok accs) (layout : Layout) (accounts : SwapAccounts)
    (read : layout.read accs = .ok accounts) :
    Declared view accounts.user ∧ Declared view accounts.market := by
  simp only [Layout.read, Outcome.bind_ok_iff, InstructionAccounts.index_ok_iff] at read
  obtain ⟨user, atUser, market, atMarket, _, _, _, _, _, _, same⟩ := read
  obtain rfl := Outcome.ok.inj same
  exact ⟨peek_declared view accs made _ user atUser,
    peek_declared view accs made _ market atMarket⟩

/-! ## Mints -/

/-- The recorded mint of an account is that of a token balance. -/
theorem mint_recorded (env : Env) (balance : TxBalance) (account mint : Pubkey)
    (found : (balance.findTokenAccountBalance account).mint env = some mint) :
    RecordedMint env balance mint := by
  obtain ⟨text, chosen, readable⟩ := Option.bind_eq_some_iff.mp found
  unfold TxBalance.findTokenAccountBalance at chosen
  split at chosen
  · cases chosen
  · rename_i index _
    rcases Option.or_eq_some_iff.mp chosen with before | ⟨_, after⟩
    · obtain ⟨record, listed, rfl⟩ := Option.map_eq_some_iff.mp before
      exact ⟨record, List.mem_append_left _ (List.mem_of_find?_eq_some listed), readable⟩
    · obtain ⟨record, listed, rfl⟩ := Option.map_eq_some_iff.mp after
      exact ⟨record, List.mem_append_right _ (List.mem_of_find?_eq_some listed), readable⟩

/-- The mint that a transfer names is listed by its call. -/
theorem transfer_listed (env : Env) (keys : AccountKeys) (indices : List UInt8) (data : Bytes)
    (programIdIdx : UInt8) (transfer : TokenTransfer)
    (parsed : parseTokenTransfer env keys indices data programIdIdx = .ok (some transfer))
    (mint : Pubkey) (named : transfer.mint = some mint) : Listed keys indices mint := by
  unfold parseTokenTransfer at parsed
  split at parsed
  · cases parsed
  · split at parsed
    · cases parsed
    · split at parsed
      · cases parsed
      · obtain ⟨decoded, _, rest⟩ := (Outcome.exceptBind_ok_iff _ _ _).mp parsed
        cases decoded with
        | other => cases rest
        | transfer amount =>
          simp only [Outcome.exceptBind_ok_iff] at rest
          obtain ⟨_, _, _, _, _, _, _, _, same⟩ := rest
          obtain rfl := Option.some.inj (Except.ok.inj same)
          cases named
        | transferChecked amount decimals =>
          simp only [Outcome.exceptBind_ok_iff, Outcome.exceptMapError_ok_iff] at rest
          obtain ⟨accs, made, _, _, second, atSecond, _, _, _, _, same⟩ := rest
          obtain rfl := Option.some.inj (Except.ok.inj same)
          obtain rfl := Option.some.inj named
          exact peek_listed keys indices programIdIdx accs made 1 _ atSecond

/-- Transfers among calls are read from one of them each. -/
theorem transfers_called (env : Env) (keys : AccountKeys) (calls : List T)
    (transfers : List TokenTransfer)
    (read : parseMultipleTokenTransfers env keys calls = .ok transfers) (transfer : TokenTransfer)
    (member : transfer ∈ transfers) : ∃ call ∈ calls, ∃ data,
      parseTokenTransfer env keys (SolanaInstruction.accounts call) data
        (SolanaInstruction.programId call) = .ok (some transfer) := by
  induction calls generalizing transfers with
  | nil =>
    obtain rfl := Except.ok.inj read
    cases member
  | cons call rest inductionHypothesis =>
    simp only [parseMultipleTokenTransfers, Outcome.exceptBind_ok_iff] at read
    obtain ⟨data, _, parsed, atCall, others, inRest, same⟩ := read
    have later (inOthers : transfer ∈ others) := inductionHypothesis others inRest inOthers
    cases parsed with
    | none =>
      obtain rfl := Except.ok.inj same
      obtain ⟨other, listed, found⟩ := later member
      exact ⟨other, List.mem_cons_of_mem _ listed, found⟩
    | some first =>
      obtain rfl := Except.ok.inj same
      rcases List.mem_cons.mp member with rfl | inOthers
      · exact ⟨call, List.mem_cons_self, data, atCall⟩
      · obtain ⟨other, listed, found⟩ := later inOthers
        exact ⟨other, List.mem_cons_of_mem _ listed, found⟩

/-- What a mint is read from: a transfer that names it, or the record. -/
theorem mintOf_source (env : Env) (view : IxView T) (program : Program)
    (transfer : TokenTransfer) (account mint : Pubkey)
    (called : ∃ call ∈ SolanaInstruction.innerInstructions view.ix, ∃ data,
      parseTokenTransfer env view.keys (SolanaInstruction.accounts call) data
        (SolanaInstruction.programId call) = .ok (some transfer))
    (found : LegSelection.mintOf env view.balance transfer account = some mint) :
    MintSource env view program mint := by
  rcases Option.or_eq_some_iff.mp found with named | ⟨_, onRecord⟩
  · obtain ⟨call, listed, data, parsed⟩ := called
    exact .transferred mint call listed
      (transfer_listed env view.keys _ data _ transfer parsed mint named)
  · exact .recorded mint (mint_recorded env view.balance account mint onRecord)

/-- A swap that is read from transfers of the calls has its mints from them or the record. -/
theorem transfers_sourced (env : Env) (view : IxView T) (program : Program)
    (transfers : List TokenTransfer)
    (called : ∀ transfer ∈ transfers, ∃ call ∈ SolanaInstruction.innerInstructions view.ix,
      ∃ data, parseTokenTransfer env view.keys (SolanaInstruction.accounts call) data
        (SolanaInstruction.programId call) = .ok (some transfer))
    (a b user : Pubkey) (isPoolAccount : Bool) (info : SwapInfo)
    (found : getSwapInfoFromTokenTransfers env view.balance transfers a b user isPoolAccount =
      .ok (some info)) : MintsSourced env view program info.toSwap := by
  rcases LegSelection.selects_or_nothing transfers a b user isPoolAccount with
    ⟨paid, received, selects⟩ | nothing
  · rw [LegSelection.of_selects selects] at found
    have read := (LegSelection.readSwap_some found).1
    exact ⟨mintOf_source env view program paid _ _ (called paid selects.pays.mem) read.inputMint,
      mintOf_source env view program received _ _ (called received selects.returns.mem)
        read.outputMint⟩
  · rw [LegSelection.of_nothing nothing] at found
    cases found

/-- So has the swap that the transfers of an instruction tell of. -/
theorem swapInfo_sourced (env : Env) (view : IxView T) (program : Program)
    (a b user : Pubkey) (info : SwapInfo) (found : view.swapInfo env a b user = .ok (some info)) :
    MintsSourced env view program info.toSwap := by
  rw [IxView.swapInfo, Outcome.mapError_eq_ok, Outcome.ofExcept_eq_ok, getSwapInfo] at found
  obtain ⟨transfers, read, chosen⟩ := (Outcome.exceptBind_ok_iff _ _ _).mp found
  rw [Outcome.exceptMapError_ok_iff] at read
  exact transfers_sourced env view program transfers
    (transfers_called env view.keys _ transfers read) a b user true info chosen

/-- And the swap that has to be among them. -/
theorem swapOfTransfers_sourced (env : Env) (view : IxView T) (program : Program)
    (accounts : SwapAccounts) (swap : Swap)
    (found : Dex.swapOfTransfers env view accounts = .ok swap) :
    MintsSourced env view program swap := by
  simp only [Dex.swapOfTransfers, Outcome.bind_ok_iff, Outcome.okOr_eq_ok] at found
  obtain ⟨_, told, info, rfl, same⟩ := found
  obtain rfl := Outcome.ok.inj same
  exact swapInfo_sourced env view program _ _ _ info told

/-! ## The dex parsers -/

/-- A format reads declared parties and a swap among transfers. -/
theorem decode_sourced (format : Format) (env : Env) (view : IxView T)
    (accs : InstructionAccounts) (made : view.accounts = .ok accs) (layout : Layout)
    (program : Program) (swap : DexSwap)
    (decoded : format.decode env view accs layout = .ok (some swap)) :
    Sourced env view program swap := by
  simp only [Format.decode, Outcome.bind_ok_iff] at decoded
  obtain ⟨accounts, read, info, told, rest⟩ := decoded
  obtain ⟨user, market⟩ := read_declared view accs made layout accounts read
  cases info with
  | some info =>
    obtain rfl := Option.some.inj (Outcome.ok.inj rest)
    exact ⟨user, market, swapInfo_sourced env view program _ _ _ info told⟩
  | none => cases required : format.required <;> simp [required] at rest

/-- What a dex of a common format reports is sourced. -/
theorem format_sourced (format : Format) (env : Env) (view : IxView T) (program : Program)
    (swap : DexSwap) (parsed : format.parse env view = .ok (some swap)) :
    Sourced env view program swap := by
  rw [Format.parse] at parsed
  split at parsed
  · simp only [Outcome.bind_ok_iff] at parsed
    obtain ⟨accs, made, data, _, rest⟩ := parsed
    split at rest
    · simp at rest
    · exact decode_sourced format env view accs made _ program swap rest
  · obtain ⟨data, _, rest⟩ := (Outcome.bind_ok_iff _ _ _).mp parsed
    split at rest
    · obtain ⟨accs, made, found⟩ := (Outcome.bind_ok_iff _ _ _).mp rest
      split at found
      · simp at found
      · exact decode_sourced format env view accs made _ program swap found
    · simp at rest

/-- So is what HumidiFi reports, whose data are not looked at. -/
theorem humidifi_sourced (env : Env) (view : IxView T) (program : Program) (swap : DexSwap)
    (parsed : Dex.humidifi env view = .ok (some swap)) : Sourced env view program swap := by
  simp only [Dex.humidifi, Outcome.bind_ok_iff] at parsed
  obtain ⟨accs, made, accounts, read, info, told, rest⟩ := parsed
  obtain ⟨user, market⟩ := read_declared view accs made _ accounts read
  cases info with
  | some info =>
    obtain rfl := Option.some.inj (Outcome.ok.inj rest)
    exact ⟨user, market, swapInfo_sourced env view program _ _ _ info told⟩
  | none => simp at rest

/-- A parser that reads a layout has its swap from what it searches. -/
theorem parseLayout_sourced (env : Env) (view : IxView T) (program label : Program)
    (choose : Bytes → Option Layout) (find : SwapAccounts → Outcome ParseError Swap)
    (finds : ∀ accounts swap, find accounts = .ok swap → MintsSourced env view program swap)
    (swap : DexSwap) (parsed : Dex.parseLayout view label choose find = .ok (some swap)) :
    Sourced env view program swap := by
  simp only [Dex.parseLayout, Outcome.bind_ok_iff] at parsed
  obtain ⟨data, _, accs, made, rest⟩ := parsed
  split at rest
  · simp at rest
  · simp only [Outcome.bind_ok_iff] at rest
    obtain ⟨accounts, read, found, searched, same⟩ := rest
    obtain ⟨user, market⟩ := read_declared view accs made _ accounts read
    obtain rfl := Option.some.inj (Outcome.ok.inj same)
    exact ⟨user, market, finds accounts found searched⟩

/-- The two mints on record for a pair of vaults. -/
theorem mintOf_recorded (env : Env) (view : IxView T) (program : Program) (account mint : Pubkey)
    (found : Dex.mintOf env view account = some mint) : MintSource env view program mint :=
  .recorded mint (mint_recorded env view.balance account mint found)

/-- The mints of Raydium V4 are those of two accounts on record, or of transfers. -/
theorem raydiumV4_swap_sourced (env : Env) (view : IxView T) (program : Program)
    (accounts : SwapAccounts) (baseIn : Bool) (swap : Swap)
    (found : Dex.RaydiumV4.swap env view accounts baseIn = .ok swap) :
    MintsSourced env view program swap := by
  unfold Dex.RaydiumV4.swap at found
  split at found
  · rename_i coinMint pcMint coin pc
    have coinSource := mintOf_recorded env view program _ coinMint coin
    have pcSource := mintOf_recorded env view program _ pcMint pc
    obtain ⟨logged, _, rest⟩ := (Outcome.bind_ok_iff _ _ _).mp found
    split at rest
    · rename_i event _
      obtain rfl := Outcome.ok.inj rest
      cases direction : event.direction with
      | coin2Pc =>
        rw [Dex.RaydiumV4.swapOf, direction]
        exact ⟨coinSource, pcSource⟩
      | pc2Coin =>
        rw [Dex.RaydiumV4.swapOf, direction]
        exact ⟨pcSource, coinSource⟩
    · exact swapOfTransfers_sourced env view program accounts swap rest
  · cases found

/-- What Raydium V4 reports is sourced, whichever layout its accounts have. -/
theorem raydiumV4_sourced (env : Env) (view : IxView T) (program : Program) (swap : DexSwap)
    (parsed : Dex.RaydiumV4.parse env view = .ok (some swap)) :
    Sourced env view program swap := by
  obtain ⟨data, _, rest⟩ := (Outcome.bind_ok_iff _ _ _).mp parsed
  split at rest
  · simp at rest
  · obtain ⟨accs, made, rest⟩ := (Outcome.bind_ok_iff _ _ _).mp rest
    split at rest
    · simp at rest
    · simp only [Outcome.bind_ok_iff] at rest
      obtain ⟨accounts, read, found, searched, same⟩ := rest
      obtain ⟨user, market⟩ := read_declared view accs made _ accounts read
      obtain rfl := Option.some.inj (Outcome.ok.inj same)
      exact ⟨user, market, raydiumV4_swap_sourced env view program accounts _ found searched⟩

/-- The swap of a Raydium CP event, whose mints are the event's own or on record. -/
theorem raydiumCp_swap_sourced (env : Env) (view : IxView T) (accounts : SwapAccounts)
    (swap : Swap) (found : Dex.RaydiumCp.swap env view accounts = .ok swap) :
    MintsSourced env view .raydiumCpSwap swap := by
  unfold Dex.RaydiumCp.swap at found
  cases logged : Dex.RaydiumCp.swapOfLog env view accounts with
  | none =>
    rw [logged] at found
    exact swapOfTransfers_sourced env view _ accounts swap found
  | some read =>
    rw [logged] at found
    obtain rfl := Outcome.ok.inj found
    obtain ⟨event, parsed, rest⟩ := Option.bind_eq_some_iff.mp logged
    have readLog : Dex.RaydiumCp.parseLog env view = .ok (some event) := by
      cases outcome : Dex.RaydiumCp.parseLog env view with
      | error error => simp [outcome, Except.toOption] at parsed
      | ok yielded => simpa [outcome, Except.toOption] using parsed
    obtain ⟨lines, inLogs, first⟩ := (Outcome.exceptBind_ok_iff _ _ _).mp readLog
    obtain ⟨line, listed, atLine⟩ := List.exists_of_findSome?_eq_some (Except.ok.inj first)
    cases mints : event.mints with
    | some pair =>
      obtain ⟨input, output⟩ := pair
      rw [mints] at rest
      obtain rfl := Option.some.inj rest
      exact ⟨.logged lines line event input output _ rfl inLogs listed atLine mints (.inl rfl),
        .logged lines line event input output _ rfl inLogs listed atLine mints (.inr rfl)⟩
    | none =>
      rw [mints] at rest
      obtain ⟨input, onRecord, later⟩ := Option.bind_eq_some_iff.mp rest
      obtain ⟨output, alsoOnRecord, same⟩ := Option.bind_eq_some_iff.mp later
      obtain rfl := Option.some.inj same
      exact ⟨mintOf_recorded env view _ _ input onRecord,
        mintOf_recorded env view _ _ output alsoOnRecord⟩

/-- The mints of Raydium CLMM are those of two accounts on record, or of transfers. -/
theorem raydiumClmm_swap_sourced (env : Env) (view : IxView T) (program : Program)
    (accounts : SwapAccounts) (swap : Swap)
    (found : Dex.RaydiumClmm.swap env view accounts = .ok swap) :
    MintsSourced env view program swap := by
  obtain ⟨logged, _, rest⟩ := (Outcome.bind_ok_iff _ _ _).mp found
  cases logged with
  | none => exact swapOfTransfers_sourced env view program accounts swap rest
  | some event =>
    simp only at rest
    split at rest
    · rename_i inputMint outputMint input output
      have inputSource := mintOf_recorded env view program _ inputMint input
      have outputSource := mintOf_recorded env view program _ outputMint output
      split at rest
      · obtain rfl := Outcome.ok.inj rest
        exact ⟨inputSource, outputSource⟩
      · obtain rfl := Outcome.ok.inj rest
        exact ⟨inputSource, outputSource⟩
    · cases rest

/-- The payment of Stabble's vault is a call of the instruction. -/
theorem withdrawal_called (env : Env) (view : IxView T) (transfer : TokenTransfer)
    (paid : Dex.StabbleStable.withdrawal env view = some transfer) :
    ∃ call ∈ SolanaInstruction.innerInstructions view.ix, ∃ data,
      parseTokenTransfer env view.keys (SolanaInstruction.accounts call) data
        (SolanaInstruction.programId call) = .ok (some transfer) := by
  obtain ⟨call, listed, atCall⟩ := List.exists_of_findSome?_eq_some paid
  obtain ⟨programId, _, chosen⟩ := Option.bind_eq_some_iff.mp atCall
  split at chosen
  · obtain ⟨data, _, parsed⟩ := Option.bind_eq_some_iff.mp chosen
    refine ⟨call, listed, data, ?_⟩
    cases outcome : parseTokenTransfer env view.keys (SolanaInstruction.accounts call) data
        (SolanaInstruction.programId call) with
    | error error => simp [outcome, Except.toOption] at parsed
    | ok yielded => simpa [outcome, Except.toOption] using parsed
  · cases chosen

/-- The mints of Stabble are those of its transfers, one of which its vault may have made. -/
theorem stabble_swap_sourced (env : Env) (view : IxView T) (program : Program)
    (accounts : SwapAccounts) (swap : Swap)
    (found : Dex.StabbleStable.swap env view accounts = .ok swap) :
    MintsSourced env view program swap := by
  simp only [Dex.StabbleStable.swap, Outcome.bind_ok_iff, Outcome.okOr_eq_ok,
    Outcome.mapError_eq_ok, Outcome.ofExcept_eq_ok] at found
  obtain ⟨transfers, read, withdrawal, paid, _, told, info, rfl, same⟩ := found
  obtain rfl := Outcome.ok.inj same
  apply transfers_sourced env view program (transfers ++ [withdrawal]) _ _ _ _ _ info told
  intro transfer member
  rcases List.mem_append.mp member with among | last
  · exact transfers_called env view.keys _ transfers read transfer among
  · obtain rfl := List.mem_singleton.mp last
    exact withdrawal_called env view transfer paid

/-- What Pump reports is sourced: one mint is declared, the other is native. -/
theorem pump_sourced (env : Env) (view : IxView T) (swap : DexSwap)
    (parsed : Dex.Pump.parse env view = .ok (some swap)) : Sourced env view .pump swap := by
  simp only [Dex.Pump.parse, Outcome.bind_ok_iff] at parsed
  obtain ⟨data, _, accs, made, rest⟩ := parsed
  split at rest
  · simp only [Outcome.bind_ok_iff, InstructionAccounts.index_ok_iff] at rest
    obtain ⟨baseMint, atMint, _, _, curve, atCurve, user, atUser, _, _, _, _, found, netted,
      same⟩ := rest
    obtain rfl := Option.some.inj (Outcome.ok.inj same)
    have base := peek_declared view accs made 2 baseMint atMint
    refine ⟨peek_declared view accs made 6 user atUser,
      peek_declared view accs made 3 curve atCurve, ?_⟩
    unfold Dex.Pump.swap at netted
    split at netted
    · simp only [Outcome.bind_ok_iff] at netted
      obtain ⟨_, _, _, _, kept⟩ := netted
      obtain rfl := Outcome.ok.inj kept
      exact ⟨.declared baseMint rfl base, .lamports rfl⟩
    · split at netted
      · simp only [Outcome.bind_ok_iff] at netted
        obtain ⟨_, _, _, _, kept⟩ := netted
        obtain rfl := Outcome.ok.inj kept
        exact ⟨.lamports rfl, .declared baseMint rfl base⟩
      · cases netted
  · simp at rest

/-- Another label changes neither the parties nor the mints. -/
theorem relabel_sourced (env : Env) (view : IxView T) (program label : Program)
    (parsed : Option DexSwap) (sourced : ∀ swap, parsed = some swap →
      Sourced env view program swap) (swap : DexSwap)
    (relabelled : Dex.relabel label parsed = some swap) : Sourced env view program swap := by
  obtain ⟨original, found, rfl⟩ := Option.map_eq_some_iff.mp relabelled
  obtain ⟨user, market, mints⟩ := sourced original found
  exact ⟨user, market, mints⟩

/-- What any dex parser finds has declared parties and mints with a source. -/
theorem parse_sourced (env : Env) (view : IxView T) (program : Program) (swap : DexSwap)
    (parsed : Dex.parse env view program = .ok (some swap)) :
    Sourced env view program swap := by
  cases formatted : Dex.formatOf program with
  | some format =>
    rw [Dex.parse_formatOf env view program format formatted] at parsed
    exact format_sourced format env view program swap parsed
  | none =>
    cases program
    case humidiFi => exact humidifi_sourced env view _ swap parsed
    case raydiumV4 => exact raydiumV4_sourced env view _ swap parsed
    case raydiumCpSwap =>
      exact parseLayout_sourced env view _ _ _ _ (raydiumCp_swap_sourced env view) swap parsed
    case raydiumClmm =>
      exact parseLayout_sourced env view _ _ _ _ (raydiumClmm_swap_sourced env view _) swap parsed
    case pump => exact pump_sourced env view swap parsed
    case stabbleStable =>
      exact parseLayout_sourced env view _ _ _ _ (stabble_swap_sourced env view _) swap parsed
    case pancakeSwap =>
      obtain ⟨found, clmm, same⟩ := (Outcome.bind_ok_iff _ _ _).mp parsed
      refine relabel_sourced env view _ _ found ?_ swap (Outcome.ok.inj same)
      rintro original rfl
      exact parseLayout_sourced env view _ _ _ _ (raydiumClmm_swap_sourced env view _) original
        clmm
    case stabbleWeighted =>
      obtain ⟨found, stable, same⟩ := (Outcome.bind_ok_iff _ _ _).mp parsed
      refine relabel_sourced env view _ _ found ?_ swap (Outcome.ok.inj same)
      rintro original rfl
      exact parseLayout_sourced env view _ _ _ _ (stabble_swap_sourced env view _) original
        stable
    all_goals first | cases parsed | cases formatted

/-- Every swap that a transaction reports, alone or in a route, is what the parser of some
dispatched instruction's program returned for this instruction, under the name that the parser
writes. Its parties are declared by the instruction, and its mints have a source. -/
theorem reported_sourced (env : Env) (tx : SolanaTx) (result : List Parsed)
    (ok : parseTransaction env tx = .ok result) (swap : DexSwap)
    (reported : Reported swap result) :
    ∃ view program, Dispatched env tx view ∧ view.program = .ok program ∧
      Dex.parse env view program = .ok (some swap) ∧ swap.program = Dex.labelOf program ∧
      Sourced env view program swap := by
  obtain ⟨view, program, dispatched, known, parsed⟩ :=
    reported_dispatched env tx result ok swap reported
  exact ⟨view, program, dispatched, known, parsed, Dex.parse_label env view program swap parsed,
    parse_sourced env view program swap parsed⟩

/-- The swap of an Orca pool. -/
theorem pool_sourced :
    ∃ view program, Dispatched poolLibraries (poolTx .orca [2, 0, 3, 2, 4, 2, 5] Dex.swapDisc)
        view ∧ view.program = .ok program ∧
      Dex.parse poolLibraries view program = .ok (some ⟨⟨2⟩, ⟨3⟩, .orca, ⟨100, 50, ⟨8⟩, ⟨9⟩⟩⟩) ∧
      Program.orca = Dex.labelOf program ∧
      Sourced poolLibraries view program ⟨⟨2⟩, ⟨3⟩, .orca, ⟨100, 50, ⟨8⟩, ⟨9⟩⟩⟩ :=
  reported_sourced poolLibraries (poolTx .orca [2, 0, 3, 2, 4, 2, 5] Dex.swapDisc)
    [.dex ⟨⟨2⟩, ⟨3⟩, .orca, ⟨100, 50, ⟨8⟩, ⟨9⟩⟩⟩] rfl ⟨⟨2⟩, ⟨3⟩, .orca, ⟨100, 50, ⟨8⟩, ⟨9⟩⟩⟩
    (.inl List.mem_cons_self)

end Graced.Provenance
