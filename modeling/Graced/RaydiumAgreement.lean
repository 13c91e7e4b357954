import Graced.LegAgreement

/-!
# Logged swaps and transferred swaps

The three Raydium programs log their swaps in three layouts. One gives a direction by
number, one names the vaults by position, one has a flag that tells which of two amounts
went in. Where the two direct transfers of such an instruction are those that the log
tells of, the swap taken from the log is the one that the transfers give by themselves.
-/

namespace Graced.RaydiumAgreement

open LegAgreement

variable {T : Type} [SolanaInstruction T]

/-- The Raydium programs with an event. -/
inductive Raydium where
  | v4
  | cp
  | clmm
deriving DecidableEq, Repr

namespace Raydium

/-- The parser of the program. -/
def parse (env : Env) (view : IxView T) : Raydium → Outcome ParseError (Option DexSwap)
  | v4 => Dex.RaydiumV4.parse env view
  | cp => Dex.RaydiumCp.parse env view
  | clmm => Dex.RaydiumClmm.parse env view

/-- The label that the parser puts on a swap. -/
def label : Raydium → Program
  | v4 => .raydiumV4
  | cp => .raydiumV4
  | clmm => .raydiumClmm

end Raydium

/-- An event in terms of the vaults: where the input goes, where the output comes from, and
the mints if the event has them. -/
structure VaultEvent where
  inputVault : Pubkey
  outputVault : Pubkey
  amountIn : UInt64
  amountOut : UInt64
  mints : Option (Pubkey × Pubkey)

/-- A Raydium V4 event: the direction names the vaults. -/
def ofRayLog (accounts : SwapAccounts) (log : Dex.RayLog) : VaultEvent :=
  match log.direction with
  | .coin2Pc =>
    ⟨accounts.tokenAccountA, accounts.tokenAccountB, log.amountIn, log.amountOut, none⟩
  | .pc2Coin =>
    ⟨accounts.tokenAccountB, accounts.tokenAccountA, log.amountIn, log.amountOut, none⟩

/-- A Raydium CP event: the vaults come in order. -/
def ofCpEvent (accounts : SwapAccounts) (event : Dex.RaydiumCp.Event) : VaultEvent :=
  ⟨accounts.tokenAccountA, accounts.tokenAccountB, event.inputAmount, event.outputAmount,
    event.mints⟩

/-- A Raydium CLMM event: the vaults come in order, and the flag tells which amount is
which. -/
def ofClmmEvent (accounts : SwapAccounts) (event : Dex.RaydiumClmm.Event) : VaultEvent where
  inputVault := accounts.tokenAccountA
  outputVault := accounts.tokenAccountB
  amountIn := if event.zeroForOne then event.amount0 else event.amount1
  amountOut := if event.zeroForOne then event.amount1 else event.amount0
  mints := none

/-- The instruction is a swap of the program between the vaults of these accounts, and its
logs yield this event. -/
inductive Logged (env : Env) (view : IxView T) (accounts : SwapAccounts) :
    Raydium → VaultEvent → Prop where
  | v4 (discriminator : UInt8) (rest : Bytes) (accs : InstructionAccounts) (layout : Layout)
      (log : Dex.RayLog) :
      view.data = .ok (discriminator :: rest) → view.accounts = .ok accs →
      Dex.RaydiumV4.layout discriminator accs.len = some layout → layout.read accs = .ok accounts →
      Dex.RaydiumV4.parseLog env view (Dex.RaydiumV4.isBaseIn discriminator) = .ok (some log) →
      Logged env view accounts .v4 (ofRayLog accounts log)
  | cp (data : Bytes) (accs : InstructionAccounts) (layout : Layout)
      (event : Dex.RaydiumCp.Event) :
      view.data = .ok data → view.accounts = .ok accs →
      Dex.RaydiumCp.layout data = some layout → layout.read accs = .ok accounts →
      Dex.RaydiumCp.parseLog env view = .ok (some event) →
      Logged env view accounts .cp (ofCpEvent accounts event)
  | clmm (data : Bytes) (accs : InstructionAccounts) (layout : Layout)
      (event : Dex.RaydiumClmm.Event) :
      view.data = .ok data → view.accounts = .ok accs →
      Dex.RaydiumClmm.layout data = some layout → layout.read accs = .ok accounts →
      Dex.RaydiumClmm.parseLog env view = .ok (some event) →
      Logged env view accounts .clmm (ofClmmEvent accounts event)

/-- The direct transfers of the instruction are the two that the event tells of: its input
amount into the input vault, signed by the user, and its output amount out of the other
vault. Neither is between the vaults. -/
structure Transferred (env : Env) (view : IxView T) (user : Pubkey) (event : VaultEvent)
    (paid received : TokenTransfer) : Prop where
  direct : ∃ transfers, parseMultipleTokenTransfers env view.keys
      (SolanaInstruction.innerInstructions view.ix) = .ok transfers ∧
    Settles transfers (Side.forUserLeg true) event.inputVault event.outputVault user paid
      received []
  paid : paid.amount = event.amountIn
  received : received.amount = event.amountOut

variable {env : Env} {view : IxView T} {accounts : SwapAccounts} {event : VaultEvent}
  {kind : Raydium}

/-- The vaults of an event are those of the accounts, in one of two orders. -/
theorem logged_vaults (logged : Logged env view accounts kind event) :
    Pairs event.inputVault event.outputVault accounts.tokenAccountA accounts.tokenAccountB := by
  cases logged with
  | v4 _ _ _ _ log =>
    unfold ofRayLog
    cases log.direction with
    | pc2Coin => exact .inr ⟨rfl, rfl⟩
    | coin2Pc => exact .inl ⟨rfl, rfl⟩
  | cp => exact .inl ⟨rfl, rfl⟩
  | clmm => exact .inl ⟨rfl, rfl⟩

section Mints

variable {inputMint outputMint : Pubkey}
  (inputRecorded : Dex.mintOf env view event.inputVault = some inputMint)
  (outputRecorded : Dex.mintOf env view event.outputVault = some outputMint)
  (eventMints : ∀ mints, event.mints = some mints → mints = (inputMint, outputMint))
include inputRecorded outputRecorded eventMints

/-- The parser takes the swap from the event, with the mints on record. -/
theorem parse_logged (logged : Logged env view accounts kind event) :
    kind.parse env view = .ok (some ⟨accounts.user, accounts.market, kind.label,
      ⟨event.amountIn, event.amountOut, inputMint, outputMint⟩⟩) := by
  cases logged with
  | v4 discriminator rest accs layout log hasData resolved chosen read logs =>
    have found : Dex.RaydiumV4.swap env view accounts (Dex.RaydiumV4.isBaseIn discriminator) =
        .ok ⟨log.amountIn, log.amountOut, inputMint, outputMint⟩ := by
      unfold ofRayLog at inputRecorded outputRecorded
      cases direction : log.direction with
      | pc2Coin =>
        simp only [direction] at inputRecorded outputRecorded
        simp [Dex.RaydiumV4.swap, inputRecorded, outputRecorded, logs, Outcome.discard,
          Dex.RaydiumV4.swapOf, direction]
      | coin2Pc =>
        simp only [direction] at inputRecorded outputRecorded
        simp [Dex.RaydiumV4.swap, inputRecorded, outputRecorded, logs, Outcome.discard,
          Dex.RaydiumV4.swapOf, direction]
    have amounts : (ofRayLog accounts log).amountIn = log.amountIn ∧
        (ofRayLog accounts log).amountOut = log.amountOut := by
      unfold ofRayLog
      cases log.direction <;> exact ⟨rfl, rfl⟩
    simp [Raydium.parse, Raydium.label, Dex.RaydiumV4.parse, hasData, resolved, chosen, read,
      found, amounts]
  | cp data accs layout logged hasData resolved chosen read logs =>
    have reads : Dex.ReadsLayout view Dex.RaydiumCp.layout accounts :=
      ⟨data, layout, accs, hasData, chosen, resolved, read⟩
    refine (Dex.parseLayout_reads view _ _ _ accounts reads).trans ?_
    have fromLog : Dex.RaydiumCp.swapOfLog env view accounts =
        some ⟨logged.inputAmount, logged.outputAmount, inputMint, outputMint⟩ := by
      cases extended : logged.mints with
      | some mints =>
        obtain rfl := eventMints mints extended
        simp [Dex.RaydiumCp.swapOfLog, logs, extended, Except.toOption]
      | none =>
        simp only [ofCpEvent] at inputRecorded outputRecorded
        simp [Dex.RaydiumCp.swapOfLog, logs, extended, inputRecorded, outputRecorded,
          Except.toOption]
    rw [Dex.RaydiumCp.swap, fromLog]
    rfl
  | clmm data accs layout logged hasData resolved chosen read logs =>
    have reads : Dex.ReadsLayout view Dex.RaydiumClmm.layout accounts :=
      ⟨data, layout, accs, hasData, chosen, resolved, read⟩
    refine (Dex.parseLayout_reads view _ _ _ accounts reads).trans ?_
    simp only [ofClmmEvent] at inputRecorded outputRecorded
    cases flag : logged.zeroForOne with
    | true =>
      simp [Dex.RaydiumClmm.swap, logs, inputRecorded, outputRecorded, ofClmmEvent, flag,
        Raydium.label]
    | false =>
      simp [Dex.RaydiumClmm.swap, logs, inputRecorded, outputRecorded, ofClmmEvent, flag,
        Raydium.label]

end Mints

/-- The swap that the transfers show is the one of the event. -/
theorem swapInfo_transferred (user : Pubkey) (paid received : TokenTransfer)
    (inputMint inputProgram outputMint outputProgram : Pubkey) (a b : Pubkey) (distinct : a ≠ b)
    (vaults : Pairs event.inputVault event.outputVault a b)
    (transferred : Transferred env view user event paid received)
    (fits : event.amountIn.toNat < 2 ^ 63 ∧ event.amountOut.toNat < 2 ^ 63)
    (names : NamesAtMost paid inputMint ∧ NamesAtMost received outputMint)
    (recorded : Recorded env view.balance event.inputVault inputMint inputProgram ∧
      Recorded env view.balance event.outputVault outputMint outputProgram) :
    ∃ info, view.swapInfo env a b user = .ok (some info) ∧
      info.toSwap = ⟨event.amountIn, event.amountOut, inputMint, outputMint⟩ := by
  obtain ⟨⟨transfers, parsed, settles⟩, paidAmount, receivedAmount⟩ := transferred
  rw [← paidAmount, ← receivedAmount] at fits ⊢
  have found := tokenTransfers_settle distinct vaults settles fits names recorded
  refine ⟨⟨inputMint, outputMint, paid.amount, received.amount, inputProgram, outputProgram,
    event.inputVault = a⟩, ?_, rfl⟩
  simp [IxView.swapInfo, getSwapInfo, parsed, Except.mapError, bind, Except.bind, found]

/-- For every Raydium swap whose logs yield an event, and whose direct transfers are the two
that the event tells of, the parser reports the swap of the event, and the transfers give
the same. -/
theorem raydium_tiers_agree (logged : Logged env view accounts kind event)
    (paid received : TokenTransfer)
    (inputMint inputProgram outputMint outputProgram : Pubkey)
    (distinct : accounts.tokenAccountA ≠ accounts.tokenAccountB)
    (transferred : Transferred env view accounts.user event paid received)
    (fits : event.amountIn.toNat < 2 ^ 63 ∧ event.amountOut.toNat < 2 ^ 63)
    (recorded : Recorded env view.balance event.inputVault inputMint inputProgram ∧
      Recorded env view.balance event.outputVault outputMint outputProgram)
    (names : NamesAtMost paid inputMint ∧ NamesAtMost received outputMint)
    (eventMints : ∀ mints, event.mints = some mints → mints = (inputMint, outputMint)) :
    ∃ swap info,
      kind.parse env view =
        .ok (some ⟨accounts.user, accounts.market, kind.label, swap⟩) ∧
      swap = ⟨event.amountIn, event.amountOut, inputMint, outputMint⟩ ∧
      view.swapInfo env accounts.tokenAccountA accounts.tokenAccountB accounts.user =
        .ok (some info) ∧
      info.toSwap = swap := by
  obtain ⟨info, shown, same⟩ := swapInfo_transferred accounts.user paid received inputMint
    inputProgram outputMint outputProgram _ _ distinct (logged_vaults logged) transferred fits
    names recorded
  exact ⟨_, info, parse_logged recorded.1.mint recorded.2.mint eventMints logged, rfl, shown,
    same⟩

/-! ## A logged swap -/

/-- The bytes of a Raydium V4 log: 100 in, in direction 2, and 150 out. -/
def rayLogBytes : Bytes :=
  [3, 100, 0, 0, 0, 0, 0, 0, 0, 1, 0, 0, 0, 0, 0, 0, 0, 2, 0, 0, 0, 0, 0, 0, 0,
    136, 19, 0, 0, 0, 0, 0, 0, 160, 187, 13, 0, 0, 0, 0, 0, 128, 26, 6, 0, 0, 0, 0, 0,
    150, 0, 0, 0, 0, 0, 0, 0]

/-- The same bytes in base64. -/
def rayLogText : String :=
  "A2QAAAAAAAAAAQAAAAAAAAACAAAAAAAAAIgTAAAAAAAAoLsNAAAAAACAGgYAAAAAAJYAAAAAAAAA"

/-- Libraries that also read that log, and plain transfers. -/
def rayLibraries : Env := { vaultLibraries with
  unpack := fun data =>
    match data with
    | 3 :: rest =>
      match Borsh.u64.run rest with
      | .ok (amount, []) => .ok (.transfer amount)
      | _ => .error "InvalidInstruction"
    | _ => .error "InvalidInstruction"
  decodeBase64 := fun text => if text = rayLogText then .ok rayLogBytes else .error "InvalidByte" }

/-- The user, account 0, pays 100 into the vault 4. The pool, account 3, pays 150 out of the
vault 5 into another account. -/
def rayTransfers (receiver : UInt8) : List CompiledInstruction :=
  [⟨1, [6, 4, 0], [3, 100, 0, 0, 0, 0, 0, 0, 0]⟩,
    ⟨1, [5, receiver, 3], [3, 150, 0, 0, 0, 0, 0, 0, 0]⟩]

/-- A Raydium V4 swap that logged its event. -/
def rayTx (receiver : UInt8) : SolanaTx where
  instructions := [⟨2, [2, 3, 2, 2, 4, 5, 2, 2, 2, 2, 2, 2, 2, 2, 2, 2, 0], [9]⟩]
  accountKeys := poolKeys .raydiumV4
  metadata := {
    (vaultBalances 1000 1100 500 350).metadata with
    innerInstructions := .ofList [(0, (rayTransfers receiver).map (fun ix => ⟨ix, some 2⟩))]
    logMessages := ["Program 675kPX9MHTjS2zt1qfr1NYHuzeLXfQM9H24wFSUt1Mp8 invoke [1]",
      "Program log: ray_log: " ++ rayLogText] }

/-- The instruction of that transaction, with its calls. -/
def rayView (receiver : UInt8) : IxView StackIx :=
  (rayTx receiver).view ⟨⟨2, [2, 3, 2, 2, 4, 5, 2, 2, 2, 2, 2, 2, 2, 2, 2, 2, 0], [9]⟩,
    (rayTransfers receiver).mapIdx (fun i ix => ⟨ix, [], [0, UInt8.ofNat i]⟩), [0]⟩

/-- The accounts of the swap. -/
def rayAccounts : SwapAccounts := ⟨⟨2⟩, ⟨3⟩, ⟨4⟩, ⟨5⟩⟩

/-- The event, as it names the vaults. -/
def rayEvent : VaultEvent := ⟨⟨4⟩, ⟨5⟩, 100, 150, none⟩

/-- The logs yield the event, wherever the pool pays to. -/
theorem logged_ray (receiver : UInt8) :
    Logged rayLibraries (rayView receiver) rayAccounts .v4 rayEvent :=
  .v4 9 [] ⟨poolKeys .raydiumV4, [2, 3, 2, 2, 4, 5, 2, 2, 2, 2, 2, 2, 2, 2, 2, 2, 0], 0,
    Program.raydiumV4.pubkey⟩ ⟨16, 1, 4, 5, []⟩ ⟨100, 150, true, .coin2Pc⟩ rfl rfl rfl rfl rfl

/-- The pool pays to an account of the user: both ways lead to 100 against 150. -/
theorem raydium_tiers_agree_on_ray :
    ∃ swap info,
      Raydium.v4.parse rayLibraries (rayView 7) = .ok (some ⟨⟨2⟩, ⟨3⟩, .raydiumV4, swap⟩) ∧
      swap = ⟨100, 150, Ids.nativeMint, otherMint⟩ ∧
      (rayView 7).swapInfo rayLibraries ⟨4⟩ ⟨5⟩ ⟨2⟩ = .ok (some info) ∧
      info.toSwap = swap := by
  have settled : Transferred rayLibraries (rayView 7) ⟨2⟩ rayEvent
      ⟨⟨6⟩, none, ⟨4⟩, ⟨2⟩, 100, false⟩ ⟨⟨5⟩, none, ⟨7⟩, ⟨3⟩, 150, false⟩ := by
    refine ⟨⟨_, rfl, .refl _, rfl, rfl, ?_, rfl, ?_, ?_⟩, rfl, rfl⟩
    · decide
    · decide
    · intro transfer impossible
      simp at impossible
  have recorded :
      Recorded rayLibraries (rayView 7).balance ⟨4⟩ Ids.nativeMint Ids.splToken ∧
        Recorded rayLibraries (rayView 7).balance ⟨5⟩ otherMint Ids.splToken :=
    ⟨⟨rfl, rfl⟩, ⟨rfl, rfl⟩⟩
  exact raydium_tiers_agree (logged_ray 7) _ _ _ _ _ _ (by decide) settled (by decide) recorded
    ⟨.inl rfl, .inl rfl⟩ (by simp [rayEvent])

/-- The pool pays into the vault that the input goes to. Both transfers are those of the
event, which gives its swap, while the larger of the two is taken for the user's and the
search among the transfers ends without a result. -/
theorem raydium_tiers_differ_between_vaults :
    Logged rayLibraries (rayView 4) rayAccounts .v4 rayEvent ∧
    parseMultipleTokenTransfers rayLibraries (rayView 4).keys
      (SolanaInstruction.innerInstructions (rayView 4).ix) =
        .ok [⟨⟨6⟩, none, ⟨4⟩, ⟨2⟩, 100, false⟩, ⟨⟨5⟩, none, ⟨4⟩, ⟨3⟩, 150, false⟩] ∧
    Recorded rayLibraries (rayView 4).balance ⟨4⟩ Ids.nativeMint Ids.splToken ∧
    Recorded rayLibraries (rayView 4).balance ⟨5⟩ otherMint Ids.splToken ∧
    Raydium.v4.parse rayLibraries (rayView 4) =
      .ok (some ⟨⟨2⟩, ⟨3⟩, .raydiumV4, ⟨100, 150, Ids.nativeMint, otherMint⟩⟩) ∧
    (rayView 4).swapInfo rayLibraries ⟨4⟩ ⟨5⟩ ⟨2⟩ = .ok none :=
  ⟨logged_ray 4, rfl, ⟨rfl, rfl⟩, ⟨rfl, rfl⟩, rfl, rfl⟩

end Graced.RaydiumAgreement
