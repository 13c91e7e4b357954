import Graced.AccountCursor
import Graced.AggregatorEvents
import Graced.AggregatorRuns
import Graced.AmountReadings
import Graced.BackedSwaps
import Graced.CallPaths
import Graced.DecimalsMaps
import Graced.DetectOutcome
import Graced.DetectorAgreement
import Graced.DexPanics
import Graced.DexRecognition
import Graced.Drawing
import Graced.DustTolerance
import Graced.ErrorTraces
import Graced.FeeReturn
import Graced.Halts
import Graced.HashOrder
import Graced.KeyNumbering
import Graced.LegExchange
import Graced.LegSelection
import Graced.LogAlignment
import Graced.MintInfos
import Graced.MintRenaming
import Graced.MissingLogs
import Graced.NativeTransfers
import Graced.NettingOverflow
import Graced.OwnerDeltas
import Graced.OwnerLocality
import Graced.PrintedAmounts
import Graced.PrintedMints
import Graced.PrintedTree
import Graced.Provenance
import Graced.PumpTotals
import Graced.Renaming
import Graced.RolledBack
import Graced.RootFrames
import Graced.RootLists
import Graced.RouteChains
import Graced.RouteLegs
import Graced.RpcIntake
import Graced.SharedLogs
import Graced.SignHeuristic
import Graced.SolDeltas
import Graced.Spelling
import Graced.StabbleVault
import Graced.StreamIntake
import Graced.Subroute
import Graced.SwapEvents
import Graced.Transports
import Graced.WalletViews
