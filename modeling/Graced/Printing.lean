import Graced.Drawing
import Graced.MintInfos
import Graced.Parse
import Graced.PrintedAmounts

/-!
# The printed report

What was found in a transaction is printed in one of three styles. Before that the mints of all
swaps and transfers are collected and their infos fetched in one call; amounts are adjusted by
the decimals of their mint where these are known, and a mint is called by its symbol, by its
name or by the ends of its key.

What is printed is a list of entries, one for every `println!`. The texts of keys are in base
58, so that their bytes are their characters.
-/

namespace Graced

/-- `Debug` of a program: the name of its variant. -/
def Program.debugName : Program → String
  | .aldrinV1 => "AldrinV1"
  | .aldrinV2 => "AldrinV2"
  | .alphaQ => "AlphaQ"
  | .aquifer => "Aquifer"
  | .axiomTrade => "AxiomTrade"
  | .binanceWalletProgram => "BinanceWalletProgram"
  | .bisonFi => "BisonFi"
  | .bonkSwap => "BonkSwap"
  | .byreal => "Byreal"
  | .deriverse => "Deriverse"
  | .dflowAgg => "DflowAgg"
  | .drift => "Drift"
  | .gmgn => "Gmgn"
  | .gmx => "Gmx"
  | .goonFi => "GoonFi"
  | .goonFiV2 => "GoonFiV2"
  | .gooseFx => "GooseFx"
  | .heaven => "Heaven"
  | .humidiFi => "HumidiFi"
  | .jupV6 => "JupV6"
  | .launchLab => "LaunchLab"
  | .lifinityV2 => "LifinityV2"
  | .mangoV4 => "MangoV4"
  | .manifest => "Manifest"
  | .meteoraDBC => "MeteoraDBC"
  | .meteoraDLMM => "MeteoraDLMM"
  | .meteoraDAMMV2 => "MeteoraDAMMV2"
  | .meteoraPools => "MeteoraPools"
  | .mercurialStableSwap => "MercurialStableSwap"
  | .obricV2 => "ObricV2"
  | .okxRouter => "OKXRouter"
  | .okxDexRouter2 => "OKXDexRouter2"
  | .orca => "Orca"
  | .pancakeSwap => "PancakeSwap"
  | .phoenix => "Phoenix"
  | .pump => "Pump"
  | .pumpAmm => "PumpAmm"
  | .raydiumClmm => "RaydiumClmm"
  | .raydiumCpSwap => "RaydiumCpSwap"
  | .raydiumV4 => "RaydiumV4"
  | .sarosAmm => "SarosAmm"
  | .sarosDLMM => "SarosDLMM"
  | .scorch => "Scorch"
  | .solFi => "SolFi"
  | .solFiV2 => "SolFiV2"
  | .stabbleStable => "StabbleStable"
  | .stabbleWeighted => "StabbleWeighted"
  | .tesseraV => "TesseraV"
  | .titanExchangeRouter => "TitanExchangeRouter"
  | .zeroFi => "ZeroFi"
  | .unknown _ => "Unknown"

namespace Printing

open MintInfos

/-- `comfy_table::Color` -/
inductive Color where
  | cyan
  | magenta
deriving DecidableEq, Repr

/-- `comfy_table::Cell` -/
structure Cell where
  text : String
  fg : Option Color
deriving DecidableEq, Repr

/-- What libraries make of keys, of emphasized texts and of tables. -/
structure Printer where
  /-- `Pubkey::to_string` -/
  keyText : Pubkey → String
  bold : String → String
  dimmed : String → String
  green : String → String
  yellow : String → String
  red : String → String
  cyan : String → String
  magenta : String → String
  /-- A table of cells under a header, as `comfy_table` lays it out. -/
  table : List String → List (List Cell) → String

/-- `MintMap`, of which nothing is used but what it has for a mint. -/
abbrev MintMap := Pubkey → Option RawMintInfo

/-- `Detail` -/
inductive Detail where
  | full
  | summary
deriving DecidableEq, Repr

/-- `Style` -/
inductive Style where
  | tree
  | compact
  | table
deriving DecidableEq, Repr

/-! ## The mints of a report -/

/-- A hash set of mints. -/
abbrev MintSet := AssocMap Pubkey Unit

/-- Both mints of a swap. -/
def addSwap (set : MintSet) (swap : Swap) : MintSet :=
  (set.insert swap.inputMint ()).insert swap.outputMint ()

/-- The mint of a transfer, if it is known. -/
def addTransfer (set : MintSet) (transfer : TokenTransfer) : MintSet :=
  match transfer.mint with
  | some mint => set.insert mint ()
  | none => set

/-- The mints of a leg. -/
def addRoute (set : MintSet) : Route → MintSet
  | .decoded dex => addSwap set dex.swap
  | .undecoded _ _ transfers => transfers.foldl addTransfer set

/-- The mints of a parsed swap. -/
def addParsed (set : MintSet) : Parsed → MintSet
  | .dex dex => addSwap set dex.swap
  | .aggregator agg => agg.routes.foldl addRoute (agg.swap.elim set (addSwap set))

/-- `collect_mints`, in the order in which the hash set is walked. -/
def collectMints (order : IterationOrder Pubkey Unit) (swaps : List Parsed) : List Pubkey :=
  (order.arrange (swaps.foldl addParsed .empty).entries).map Prod.fst

/-! ## Texts -/

section Texts

variable (printer : Printer)

/-- `Display` of a program. -/
def programText : Program → String
  | .unknown key => printer.keyText key
  | program => program.debugName

/-- `Display` of a path. -/
def pathText (path : Path) : String := String.intercalate "." (path.map (fun idx => toString idx))

/-- `short`: the ends of a long text. -/
def short (pk : Pubkey) : String :=
  let s := (printer.keyText pk).toList
  if s.length ≤ 10 then .ofList s
  else .ofList (s.take 4) ++ ".." ++ .ofList (s.drop (s.length - 4))

/-- `{:<12}` -/
def padded (text : String) : String := text ++ String.ofList (List.replicate (12 - text.length) ' ')

/-- `child_indent`: the column goes on unless the branch begins as that of a last child. -/
def childIndent (indent branch : String) : String :=
  indent ++ (if branch.toList.head? = some '\\' then "   " else "|  ")

/-- `print_error` -/
def errorLine (msg : String) : String :=
  "  " ++ printer.bold (printer.red "x") ++ " " ++ printer.red msg

variable (mints : MintMap)

/-- `amount_for_mint` -/
def amountForMint (raw : UInt64) (mint : Pubkey) : String :=
  match mints mint with
  | some info => formatAmount raw info.decimals
  | none => commas raw ++ " (raw)"

/-- `mint_label`: the symbol, or else the name, or else the ends of the key. -/
def mintLabel (mint : Pubkey) : String :=
  match mints mint with
  | some info => (info.symbol.or info.name).getD (short printer mint)
  | none => short printer mint

/-- `format_swap` -/
def formatSwap (swap : Swap) : String :=
  printer.green (amountForMint mints swap.inputAmount swap.inputMint) ++ " " ++
    printer.dimmed (mintLabel printer mints swap.inputMint) ++ " " ++ printer.bold "->" ++ " " ++
    printer.green (amountForMint mints swap.outputAmount swap.outputMint) ++ " " ++
    printer.dimmed (mintLabel printer mints swap.outputMint)

/-! ## The tree -/

/-- `print_dex_tree` -/
def printDexTree (dex : DexSwap) (branch indent : String) : List String :=
  let ci := childIndent indent branch
  [indent ++ branch ++ " " ++ printer.cyan "*" ++ " " ++
      printer.bold ("DEX SWAP via " ++ programText printer dex.program),
    ci ++ "|- user   " ++ printer.yellow (short printer dex.user),
    ci ++ "|- market " ++ printer.yellow (short printer dex.market),
    ci ++ "\\- swap   " ++ formatSwap printer mints dex.swap]

/-- The entry of a transfer below a leg that was not decoded. -/
def transferText (t : TokenTransfer) : String :=
  let amount := match t.mint with
    | some mint => amountForMint mints t.amount mint
    | none => commas t.amount ++ " (raw)"
  let label := match t.mint with
    | some mint => mintLabel printer mints mint
    | none => "unknown mint"
  let token22 := if t.token22 then ", token-2022" else ""
  printer.green amount ++ " " ++ printer.dimmed label ++ " " ++ short printer t.sourceAccount ++
    " -> " ++ short printer t.destinationAccount ++ " (signer " ++ short printer t.signer ++
    token22 ++ ")"

/-- `print_undecoded_tree` -/
def printUndecodedTree (program : Program) (path : Path) (transfers : List TokenTransfer) (i : Nat)
    (branch indent : String) : List String :=
  let ci := childIndent indent branch
  let lines := [indent ++ "[" ++ toString i ++ "] " ++ branch ++ " " ++ printer.red "o" ++ " " ++
      printer.bold ("UNDECODED via " ++ programText printer program),
    ci ++ "|- path " ++ pathText path]
  if transfers.isEmpty then lines ++ [ci ++ "\\- transfers: none"]
  else
    let ti := ci ++ "   "
    lines ++ [ci ++ "\\- transfers (" ++ toString transfers.length ++ ")"] ++
      transfers.zipIdx.map (fun entry =>
        let tb := if entry.2 = transfers.length - 1 then "\\-" else "|-"
        ti ++ tb ++ " " ++ transferText printer mints entry.1)

/-- The entries of a leg. The number of a leg that was decoded is part of its branch. -/
def printRouteTree (i : Nat) (rb ri : String) : Route → List String
  | .decoded dex => printDexTree printer mints dex ("[" ++ toString i ++ "] " ++ rb) ri
  | .undecoded program path transfers =>
    printUndecodedTree printer mints program path transfers i rb ri

/-- `print_aggregator_tree` -/
def printAggregatorTree (agg : AggregatorSwap) (branch indent : String) (detail : Detail) :
    List String :=
  let ci := childIndent indent branch
  let showRoutes := detail = .full ∧ ¬ agg.routes.isEmpty
  let netBranch := if showRoutes then "|-" else "\\-"
  let lines := [indent ++ branch ++ " " ++ printer.magenta "#" ++ " " ++
      printer.bold ("AGGREGATOR SWAP via " ++ programText printer agg.program),
    ci ++ "|- user " ++ printer.yellow (short printer agg.user),
    ci ++ netBranch ++ " net   " ++
      agg.swap.elim (printer.dimmed "unknown") (formatSwap printer mints)]
  if showRoutes then
    let ri := ci ++ "   "
    lines ++ [ci ++ "\\- routes (" ++ toString agg.routes.length ++ ")"] ++
      agg.routes.zipIdx.flatMap (fun entry =>
        let rb := if entry.2 = agg.routes.length - 1 then "\\-" else "|-"
        printRouteTree printer mints entry.2 rb ri entry.1)
  else lines

/-- The entries of a parsed swap. -/
def printParsedTree (branch : String) (detail : Detail) : Parsed → List String
  | .dex dex => printDexTree printer mints dex branch "  "
  | .aggregator agg => printAggregatorTree printer mints agg branch "  " detail

/-- `print_tree` -/
def printTree (swaps : List Parsed) (detail : Detail) : List String :=
  swaps.zipIdx.flatMap (fun entry =>
    let branch := if entry.2 = swaps.length - 1 then "\\-" else "|-"
    printParsedTree printer mints branch detail entry.1)

/-! ## The other styles -/

/-- One leg in the compact style. -/
def compactRoute (i : Nat) : Route → String
  | .decoded dex => "    " ++ printer.dimmed "L>" ++ " [" ++ toString i ++ "] " ++
      padded (programText printer dex.program) ++ " user " ++ short printer dex.user ++
      " market " ++ short printer dex.market ++ "  " ++ formatSwap printer mints dex.swap
  | .undecoded program path transfers => "    " ++ printer.dimmed "L>" ++ " [" ++ toString i ++
      "] undecoded via " ++ programText printer program ++ " (path " ++ pathText path ++ ", " ++
      toString transfers.length ++ " transfers)"

/-- One parsed swap in the compact style. -/
def compactParsed (detail : Detail) : Parsed → List String
  | .dex dex => [printer.bold (printer.cyan "[DEX]") ++ " " ++
      padded (programText printer dex.program) ++ " user " ++ short printer dex.user ++
      " market " ++ short printer dex.market ++ "  " ++ formatSwap printer mints dex.swap]
  | .aggregator agg =>
    let net := agg.swap.elim (printer.dimmed "unknown") (formatSwap printer mints)
    let line := printer.bold (printer.magenta "[AGG]") ++ " " ++
      padded (programText printer agg.program) ++ " user " ++ short printer agg.user ++
      "  net " ++ net ++ "  (" ++ toString agg.routes.length ++ " routes)"
    if detail = .full then
      line :: agg.routes.zipIdx.map (fun entry => compactRoute printer mints entry.2 entry.1)
    else [line]

/-- `print_compact` -/
def printCompact (swaps : List Parsed) (detail : Detail) : List String :=
  swaps.flatMap (compactParsed printer mints detail)

/-- A cell without a color. -/
def plain (text : String) : Cell := ⟨text, none⟩

/-- An amount and its mint, in the cell of a table. -/
def amountText (raw : UInt64) (mint : Pubkey) : String :=
  amountForMint mints raw mint ++ " " ++ mintLabel printer mints mint

/-- The row of a swap that a dex made. -/
def dexRow (kind : Cell) (dex : DexSwap) : List Cell :=
  [kind, plain (programText printer dex.program), plain (short printer dex.user),
    plain (amountText printer mints dex.swap.inputAmount dex.swap.inputMint),
    plain (amountText printer mints dex.swap.outputAmount dex.swap.outputMint),
    plain ("market " ++ short printer dex.market)]

/-- The row of a leg. -/
def routeRow (i : Nat) : Route → List Cell
  | .decoded dex => dexRow printer mints (plain ("  L[" ++ toString i ++ "]")) dex
  | .undecoded program path transfers =>
    [plain ("  L[" ++ toString i ++ "]"), plain (programText printer program), plain "", plain "",
      plain "", plain ("undecoded, path " ++ pathText path ++ ", " ++
        toString transfers.length ++ " transfers")]

/-- The rows of a parsed swap. -/
def parsedRows (detail : Detail) : Parsed → List (List Cell)
  | .dex dex => [dexRow printer mints ⟨"DEX", some .cyan⟩ dex]
  | .aggregator agg =>
    let input := agg.swap.elim "unknown" (fun s =>
      amountText printer mints s.inputAmount s.inputMint)
    let output := agg.swap.elim "unknown" (fun s =>
      amountText printer mints s.outputAmount s.outputMint)
    let row := [⟨"AGG", some .magenta⟩, plain (programText printer agg.program),
      plain (short printer agg.user), plain input, plain output,
      plain (toString agg.routes.length ++ " routes")]
    if detail = .full then
      row :: agg.routes.zipIdx.map (fun entry => routeRow printer mints entry.2 entry.1)
    else [row]

/-- `print_table` -/
def printTable (swaps : List Parsed) (detail : Detail) : List String :=
  [printer.table ["Type", "Program", "User", "Input", "Output", "Extra"]
    (swaps.flatMap (parsedRows printer mints detail))]

/-- What is printed in a style. -/
def printSwaps (style : Style) (swaps : List Parsed) (detail : Detail) : List String :=
  match style with
  | .tree => printTree printer mints swaps detail
  | .compact => printCompact printer mints swaps detail
  | .table => printTable printer mints swaps detail

end Texts

/-- The text of some entries: every `println!` ends its line. -/
def printed (entries : List String) : String := String.join (entries.map (· ++ "\n"))

/-! ## One transaction -/

section Report

variable (printer : Printer) (debugAssertions : Bool) (codecs : MintCodecs)

/-- The entry that `fetch_mints_for` prints if the call fails. -/
def fetchErrors (client : RpcClient) (mints : List Pubkey) : List String :=
  if mints = [] then []
  else match fetchMintInfos debugAssertions codecs client mints with
    | .err e => [errorLine printer ("failed to fetch mint info: " ++ e)]
    | _ => []

/-- What is printed about the swaps of a transaction, once it was parsed: nothing if there are
none. -/
def report (client : RpcClient) (order : IterationOrder Pubkey Unit) (style : Style)
    (detail : Detail) (swaps : List Parsed) : Outcome String (List String) :=
  if swaps.isEmpty then .ok []
  else do
    let mints := collectMints order swaps
    let map ← fetchMintsFor debugAssertions codecs client mints
    pure (fetchErrors printer debugAssertions codecs client mints ++
      printSwaps printer map.get style swaps detail)

end Report

end Printing

end Graced
