import Graced.DexFormats
import Mathlib.Data.List.DropRight

/-!
# The dex parsers

Seven dexes need more than positions. The Raydium programs log what they swapped, and
their parsers prefer the log to the transfers; PancakeSwap is one of them under
another label. Pump has no transfers of lamports to look at and compares balances.
The Stabble programs pay out through a vault program. HumidiFi takes every data.

The dispatch table sends each supported program to its parser. Two separate lists of
programs say which ones are dexes at all.
-/

namespace Graced.Dex

variable {T : Type} [SolanaInstruction T]

/-- HumidiFi swaps have no discriminator. -/
def humidifi (env : Env) (view : IxView T) : Outcome ParseError (Option DexSwap) := do
  let accs ← view.accounts
  let accounts ← Layout.read ⟨0, 1, 2, 3, []⟩ accs
  match ← view.swapInfo env accounts.tokenAccountA accounts.tokenAccountB accounts.user with
  | some info => pure (some ⟨accounts.user, accounts.market, .humidiFi, info.toSwap⟩)
  | none => pure none

/-- The characters that `trim` removes. -/
def isWhitespace (c : Char) : Bool :=
  let code := c.toNat
  (9 ≤ code && code ≤ 13) || code == 0x20 || code == 0x85 || code == 0xA0 || code == 0x1680 ||
    (0x2000 ≤ code && code ≤ 0x200A) || code == 0x2028 || code == 0x2029 || code == 0x202F ||
    code == 0x205F || code == 0x3000

/-- What follows a header on a log line, trimmed. -/
def logData (header line : String) : Option String :=
  (line.toList.dropPrefix? header.toList).map
    (fun rest => String.ofList ((rest.dropWhile isWhitespace).rdropWhile isWhitespace))

/-- The mint of a token account, as its balance was recorded. -/
def mintOf (env : Env) (view : IxView T) (account : Pubkey) : Option Pubkey :=
  (view.balance.findTokenAccountBalance account).mint env

/-- The swap that the transfers show. There has to be one. -/
def swapOfTransfers (env : Env) (view : IxView T) (accounts : SwapAccounts) :
    Outcome ParseError Swap := do
  let found ← view.swapInfo env accounts.tokenAccountA accounts.tokenAccountB accounts.user
  let info ← Outcome.okOr .noDetailsFound found
  pure info.toSwap

/-- A parser that looks for the swap once the data has called for a layout and the accounts
are read. -/
def parseLayout (view : IxView T) (label : Program) (choose : Bytes → Option Layout)
    (find : SwapAccounts → Outcome ParseError Swap) : Outcome ParseError (Option DexSwap) := do
  let data ← view.data
  let accs ← view.accounts
  match choose data with
  | none => pure none
  | some layout =>
    let accounts ← layout.read accs
    let swap ← find accounts
    pure (some ⟨accounts.user, accounts.market, label, swap⟩)

/-- The data calls for a layout, and this is what is read in it. -/
def ReadsLayout (view : IxView T) (choose : Bytes → Option Layout) (accounts : SwapAccounts) :
    Prop :=
  ∃ data layout accs, view.data = .ok data ∧ choose data = some layout ∧
    view.accounts = .ok accs ∧ layout.read accs = .ok accounts

/-- Once the accounts are read, the rest is the search for the swap. -/
theorem parseLayout_reads (view : IxView T) (label : Program) (choose : Bytes → Option Layout)
    (find : SwapAccounts → Outcome ParseError Swap) (accounts : SwapAccounts)
    (reads : ReadsLayout view choose accounts) :
    parseLayout view label choose find = find accounts >>= fun swap =>
      .ok (some ⟨accounts.user, accounts.market, label, swap⟩) := by
  obtain ⟨data, layout, accs, dataRead, chosen, accountsRead, atPositions⟩ := reads
  simp [parseLayout, dataRead, chosen, accountsRead, atPositions]

/-- Which way a Raydium V4 swap went. -/
inductive SwapDirection where
  | pc2Coin
  | coin2Pc
deriving DecidableEq, Repr

/-- A swap that Raydium V4 logged. -/
structure RayLog where
  amountIn : UInt64
  amountOut : UInt64
  baseIn : Bool
  direction : SwapDirection
deriving DecidableEq, Repr

namespace RaydiumV4

/-- `SwapDirection::from_u64` -/
def directionOf (direction : UInt64) : Except String SwapDirection :=
  if direction = 1 then .ok .pc2Coin
  else if direction = 2 then .ok .coin2Pc
  else .error "Invalid direction for Raydium"

/-- `SwapBaseInLog`: the amounts given, wanted and received, and the direction. -/
def swapBaseInLog : Borsh.Reader (UInt64 × UInt64 × UInt64) := do
  let _ ← Borsh.u8
  let amountIn ← Borsh.u64
  Borsh.skip 8
  let direction ← Borsh.u64
  Borsh.skip 24
  let outAmount ← Borsh.u64
  return (amountIn, direction, outAmount)

/-- `SwapBaseOutLog` -/
def swapBaseOutLog : Borsh.Reader (UInt64 × UInt64 × UInt64) := do
  let _ ← Borsh.u8
  Borsh.skip 8
  let amountOut ← Borsh.u64
  let direction ← Borsh.u64
  Borsh.skip 24
  let deductIn ← Borsh.u64
  return (amountOut, direction, deductIn)

/-- Decode a log whose first byte is known. -/
def decodeTyped (logType : UInt8) (bytes : Bytes) : Except String RayLog :=
  if logType = 3 then do
    let (amountIn, direction, outAmount) ← Borsh.deserialize swapBaseInLog bytes
    .ok ⟨amountIn, outAmount, true, ← directionOf direction⟩
  else if logType = 4 then do
    let (amountOut, direction, deductIn) ← Borsh.deserialize swapBaseOutLog bytes
    .ok ⟨deductIn, amountOut, false, ← directionOf direction⟩
  else .error "Invalid log_type for Raydium"

/-- `decode_log`. The first byte is read by index before anything is checked. -/
def decodeLog (env : Env) (log : String) : Outcome String RayLog := do
  let bytes ← Outcome.ofExcept (env.decodeBase64 log)
  match bytes with
  | [] => .panic
  | logType :: _ => Outcome.ofExcept (decodeTyped logType bytes)

/-- The event on one log line, if the line has one of the wanted kind. -/
def eventOf (env : Env) (baseIn : Bool) (line : String) :
    Outcome TxLogsError (Option RayLog) := do
  match logData "Program log: ray_log:" line with
  | none => pure none
  | some log =>
    match ← (decodeLog env log).discard with
    | some event => if event.baseIn = baseIn then pure (some event) else pure none
    | none => pure none

/-- `parse_log`: the first event of the wanted kind. -/
def parseLog (env : Env) (view : IxView T) (baseIn : Bool) :
    Outcome TxLogsError (Option RayLog) := do
  let lines ← Outcome.ofExcept (view.programLogs env)
  Outcome.findMap (eventOf env baseIn) lines

/-- The layout for a first data byte and a number of declared accounts. An optional
account shifts the ones after it. -/
def layout (discriminator : UInt8) (declared : Nat) : Option Layout :=
  if discriminator = 9 ∨ discriminator = 11 then
    if 17 < declared then some ⟨17, 1, 5, 6, []⟩ else some ⟨16, 1, 4, 5, []⟩
  else if discriminator = 16 ∨ discriminator = 17 then some ⟨7, 1, 3, 4, []⟩
  else none

/-- Does the instruction fix the amount that goes in? -/
def isBaseIn (discriminator : UInt8) : Bool := discriminator = 9 ∨ discriminator = 16

/-- The swap of an event. -/
def swapOf (event : RayLog) (coinMint pcMint : Pubkey) : Swap :=
  match event.direction with
  | .coin2Pc => ⟨event.amountIn, event.amountOut, coinMint, pcMint⟩
  | .pc2Coin => ⟨event.amountIn, event.amountOut, pcMint, coinMint⟩

/-- The swap between the vaults of the coin and the other token, from the log if it has
one and from the transfers otherwise. Both mints have to be on record in any case. -/
def swap (env : Env) (view : IxView T) (accounts : SwapAccounts) (baseIn : Bool) :
    Outcome ParseError Swap := do
  match mintOf env view accounts.tokenAccountA, mintOf env view accounts.tokenAccountB with
  | some coinMint, some pcMint =>
    match ← (parseLog env view baseIn).discard with
    | some (some event) => pure (swapOf event coinMint pcMint)
    | _ => swapOfTransfers env view accounts
  | _, _ => .err .noDetailsFound

/-- The parser of Raydium V4. -/
def parse (env : Env) (view : IxView T) : Outcome ParseError (Option DexSwap) := do
  let data ← view.data
  match data.head? with
  | none => pure none
  | some discriminator =>
    let accs ← view.accounts
    match layout discriminator accs.len with
    | none => pure none
    | some layout =>
      let accounts ← layout.read accs
      let swap ← swap env view accounts (isBaseIn discriminator)
      pure (some ⟨accounts.user, accounts.market, .raydiumV4, swap⟩)

end RaydiumV4

/-- The discriminator of an event that the two newer Raydium programs log. -/
def swapEventDisc : Bytes := [64, 198, 205, 232, 38, 8, 113, 226]

/-- The bytes of an event on a log line, after its discriminator. -/
def swapEventData (env : Env) (line : String) : Option Bytes := do
  let log ← logData "Program data:" line
  let bytes ← (env.decodeBase64 log).toOption
  if bytes.length < 8 then none
  else if bytes.take 8 = swapEventDisc then some (bytes.drop 8)
  else none

namespace RaydiumCp

/-- The amounts of an event, and the mints if it is of the extended kind. -/
structure Event where
  inputAmount : UInt64
  outputAmount : UInt64
  mints : Option (Pubkey × Pubkey)

/-- `BaseEvent` -/
def baseEvent : Borsh.Reader (UInt64 × UInt64) := do
  Borsh.skip 48
  let inputAmount ← Borsh.u64
  let outputAmount ← Borsh.u64
  Borsh.skip 16
  let _ ← Borsh.bool
  return (inputAmount, outputAmount)

/-- `V2Extensions` -/
def v2Extensions : Borsh.Reader (Pubkey × Pubkey) := do
  let inputMint ← Pubkey.read
  let outputMint ← Pubkey.read
  Borsh.skip 16
  let _ ← Borsh.bool
  return (inputMint, outputMint)

/-- The event on one log line. -/
def eventOf (env : Env) (line : String) : Option Event := do
  let bytes ← swapEventData env line
  let ((inputAmount, outputAmount), rest) ← (baseEvent.run bytes).toOption
  some ⟨inputAmount, outputAmount, (Borsh.deserialize v2Extensions rest).toOption⟩

/-- `parse_log` -/
def parseLog (env : Env) (view : IxView T) : Except TxLogsError (Option Event) := do
  let lines ← view.programLogs env
  .ok (lines.findSome? (eventOf env))

/-- The layout that the data calls for. -/
def layout (data : Bytes) : Option Layout :=
  if discriminator data ∈ ([[143, 190, 90, 218, 196, 30, 51, 222],
      [55, 217, 98, 86, 163, 74, 180, 173]] : List Bytes) then some ⟨0, 3, 6, 7, []⟩
  else none

/-- The swap of the logged event. Without mints of its own it takes those on record. -/
def swapOfLog (env : Env) (view : IxView T) (accounts : SwapAccounts) : Option Swap := do
  let event ← (parseLog env view).toOption.join
  match event.mints with
  | some (inputMint, outputMint) =>
    some ⟨event.inputAmount, event.outputAmount, inputMint, outputMint⟩
  | none =>
    let inputMint ← mintOf env view accounts.tokenAccountA
    let outputMint ← mintOf env view accounts.tokenAccountB
    some ⟨event.inputAmount, event.outputAmount, inputMint, outputMint⟩

/-- The swap, from the log if possible and from the transfers otherwise. -/
def swap (env : Env) (view : IxView T) (accounts : SwapAccounts) : Outcome ParseError Swap :=
  match swapOfLog env view accounts with
  | some swap => pure swap
  | none => swapOfTransfers env view accounts

/-- The parser of Raydium CP. The label is another dex's. -/
def parse (env : Env) (view : IxView T) : Outcome ParseError (Option DexSwap) :=
  parseLayout view .raydiumV4 layout (swap env view)

end RaydiumCp

namespace RaydiumClmm

/-- What is used of an event. -/
structure Event where
  amount0 : UInt64
  amount1 : UInt64
  zeroForOne : Bool

/-- `Event` -/
def event : Borsh.Reader Event := do
  Borsh.skip 128
  let amount0 ← Borsh.u64
  Borsh.skip 8
  let amount1 ← Borsh.u64
  Borsh.skip 8
  let zeroForOne ← Borsh.bool
  Borsh.skip 36
  return ⟨amount0, amount1, zeroForOne⟩

/-- The event on one log line. -/
def eventOf (env : Env) (line : String) : Option Event := do
  let bytes ← swapEventData env line
  (Borsh.deserialize event bytes).toOption

/-- `parse_log` -/
def parseLog (env : Env) (view : IxView T) : Except TxLogsError (Option Event) := do
  let lines ← view.programLogs env
  .ok (lines.findSome? (eventOf env))

/-- The layout that the data calls for. -/
def layout (data : Bytes) : Option Layout :=
  if discriminator data = swapDisc ∨ discriminator data = swapV2Disc then some ⟨0, 2, 5, 6, []⟩
  else none

/-- The swap. Logs that cannot be had are an error here; logs without an event are not. -/
def swap (env : Env) (view : IxView T) (accounts : SwapAccounts) : Outcome ParseError Swap := do
  match ← (Outcome.ofExcept (parseLog env view)).mapError ParseError.txLogs with
  | some event =>
    match mintOf env view accounts.tokenAccountA, mintOf env view accounts.tokenAccountB with
    | some inputMint, some outputMint =>
      if event.zeroForOne then pure ⟨event.amount0, event.amount1, inputMint, outputMint⟩
      else pure ⟨event.amount1, event.amount0, inputMint, outputMint⟩
    | _, _ => .err .noDetailsFound
  | none => swapOfTransfers env view accounts

/-- The parser of Raydium CLMM. -/
def parse (env : Env) (view : IxView T) : Outcome ParseError (Option DexSwap) :=
  parseLayout view .raydiumClmm layout (swap env view)

end RaydiumClmm

/-- Put another label on a parsed swap. -/
def relabel (program : Program) (parsed : Option DexSwap) : Option DexSwap :=
  parsed.map (fun swap => { swap with program := program })

/-- PancakeSwap is parsed as Raydium CLMM. -/
def pancakeSwap (env : Env) (view : IxView T) : Outcome ParseError (Option DexSwap) := do
  let parsed ← RaydiumClmm.parse env view
  pure (relabel .pancakeSwap parsed)

namespace Pump

/-- Is the data that of a buy or a sell? -/
def matched (data : Bytes) : Bool :=
  discriminator data ∈ ([[102, 6, 61, 18, 1, 218, 235, 234], [56, 252, 116, 8, 158, 223, 205, 95],
    [51, 230, 133, 164, 1, 127, 131, 173]] : List Bytes)

/-- The swap between the base token and lamports. The base vault must have gained and
the bonding curve not, or the other way around. -/
def swap (baseDiff quoteDiff : Int) (baseMint : Pubkey) : Outcome ParseError Swap :=
  if 0 < baseDiff ∧ ¬ 0 < quoteDiff then do
    let inputAmount ← absIntoU64 baseDiff
    let outputAmount ← absIntoU64 quoteDiff
    pure ⟨inputAmount, outputAmount, baseMint, Ids.nativeMint⟩
  else if ¬ 0 < baseDiff ∧ 0 < quoteDiff then do
    let inputAmount ← absIntoU64 quoteDiff
    let outputAmount ← absIntoU64 baseDiff
    pure ⟨inputAmount, outputAmount, Ids.nativeMint, baseMint⟩
  else .err .noDetailsFound

/-- The parser of Pump. -/
def parse (env : Env) (view : IxView T) : Outcome ParseError (Option DexSwap) := do
  let data ← view.data
  let accs ← view.accounts
  if matched data then
    let baseMint ← accs.index 2
    let baseVault ← accs.index 4
    let bondingCurve ← accs.index 3
    let user ← accs.index 6
    let baseDiff ← ((view.balance.findTokenAccountBalance baseVault).difference
      env.profile).mapError .balance
    let quoteDiff ← (view.balance.findNativeBalance bondingCurve).difference.mapError .balance
    let swap ← swap baseDiff quoteDiff baseMint
    pure (some ⟨user, bondingCurve, .pump, swap⟩)
  else pure none

end Pump

namespace StabbleStable

/-- `VAULT_PROGRAM`, `vo1tWgqZMjG61Z2T9qUaMYKqZ75CYzMuaZ2LZP1n7HV` -/
def vaultProgram : Pubkey := ⟨0xdc7d003fd9ec4e1dd63ef64404373f0e831cd2d288494dabed37875ecbb9bdc⟩

/-- The layout that the data calls for. -/
def layout (data : Bytes) : Option Layout :=
  if discriminator data = swapDisc then some ⟨0, 6, 3, 4, []⟩
  else if discriminator data = swapV2Disc then some ⟨0, 8, 5, 6, []⟩
  else none

/-- The first call of the vault program that reads as a transfer. -/
def withdrawal (env : Env) (view : IxView T) : Option TokenTransfer :=
  (SolanaInstruction.innerInstructions view.ix).findSome? (fun ix => do
    let programId ← view.keys.get (SolanaInstruction.programId ix).toNat
    if programId = vaultProgram then
      let data ← (SolanaInstruction.data ix).toOption
      (parseTokenTransfer env view.keys (SolanaInstruction.accounts ix) data
        (SolanaInstruction.programId ix)).toOption.join
    else none)

/-- The swap between the transfers and the payment of the vault. -/
def swap (env : Env) (view : IxView T) (accounts : SwapAccounts) : Outcome ParseError Swap := do
  let transfers ← (Outcome.ofExcept (parseMultipleTokenTransfers env view.keys
    (SolanaInstruction.innerInstructions view.ix))).mapError ParseError.tokenParse
  let withdrawIx ← Outcome.okOr .noDetailsFound (withdrawal env view)
  let found ← (Outcome.ofExcept (getSwapInfoFromTokenTransfers env view.balance
    (transfers ++ [withdrawIx]) accounts.tokenAccountA accounts.tokenAccountB accounts.user
    true)).mapError ParseError.getSwapInfo
  let info ← Outcome.okOr .noDetailsFound found
  pure info.toSwap

/-- The parser of Stabble's stable swap. -/
def parse (env : Env) (view : IxView T) : Outcome ParseError (Option DexSwap) :=
  parseLayout view .stabbleStable layout (swap env view)

end StabbleStable

/-- Stabble's weighted swap is parsed as its stable swap. -/
def stabbleWeighted (env : Env) (view : IxView T) : Outcome ParseError (Option DexSwap) := do
  let parsed ← StabbleStable.parse env view
  pure (relabel .stabbleWeighted parsed)

/-- `is_basic_amm` -/
def isBasicAmm : Program → Bool
  | .bonkSwap | .byreal | .deriverse | .launchLab | .manifest | .meteoraDAMMV2 | .meteoraDBC
  | .meteoraDLMM | .meteoraPools | .orca | .pancakeSwap | .pump | .pumpAmm | .raydiumClmm
  | .raydiumCpSwap | .raydiumV4 | .sarosAmm | .sarosDLMM | .scorch | .stabbleStable
  | .stabbleWeighted => true
  | _ => false

/-- `is_prop_amm` -/
def isPropAmm : Program → Bool
  | .alphaQ | .aquifer | .bisonFi | .goonFi | .goonFiV2 | .humidiFi | .solFiV2 | .tesseraV
  | .zeroFi => true
  | _ => false

/-- `is_amm` -/
def isAmm (program : Program) : Bool := isBasicAmm program || isPropAmm program

/-- The dispatch table. -/
def parse (env : Env) (view : IxView T) : Program → Outcome ParseError (Option DexSwap)
  | .bonkSwap => bonkswap.parse env view
  | .byreal => byreal.parse env view
  | .deriverse => deriverse.parse env view
  | .launchLab => launchlab.parse env view
  | .manifest => manifest.parse env view
  | .meteoraDAMMV2 => meteoraDammV2.parse env view
  | .meteoraDBC => meteoraDbc.parse env view
  | .meteoraDLMM => meteoraDlmm.parse env view
  | .meteoraPools => meteoraPools.parse env view
  | .orca => orca.parse env view
  | .pancakeSwap => pancakeSwap env view
  | .pump => Pump.parse env view
  | .pumpAmm => pumpAmm.parse env view
  | .raydiumClmm => RaydiumClmm.parse env view
  | .raydiumCpSwap => RaydiumCp.parse env view
  | .raydiumV4 => RaydiumV4.parse env view
  | .sarosAmm => sarosAmm.parse env view
  | .sarosDLMM => sarosDlmm.parse env view
  | .stabbleStable => StabbleStable.parse env view
  | .stabbleWeighted => stabbleWeighted env view
  | .goonFi => goonfiV1.parse env view
  | .goonFiV2 => goonfiV2.parse env view
  | .alphaQ => alphaq.parse env view
  | .aquifer => aquifer.parse env view
  | .bisonFi => bisonfi.parse env view
  | .humidiFi => humidifi env view
  | .scorch => scorch.parse env view
  | .solFi => solfi.parse env view
  | .solFiV2 => solfiV2.parse env view
  | .tesseraV => tessera.parse env view
  | .zeroFi => zerofi.parse env view
  | _ => .ok none

end Graced.Dex
