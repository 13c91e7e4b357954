import Graced.Forest
import Graced.Transaction

/-!
# The logs of an instruction

The log messages of a transaction are parsed by a library into a forest of calls, one
for each instruction that wrote an invoke line. An instruction finds its call by its
path: the positions on the path are looked up one by one in the forest. Neither the
program nor anything else of the call is compared.
-/

namespace Graced

/-- A call that the log parser found, known by its invoke line. -/
structure InstructionCall where
  line : Nat
deriving DecidableEq, Repr

/-- The library that parses logs: the calls it finds, and the lines that the program
of a call logged itself. -/
structure LogParser where
  parse : List String → Except String (Forest InstructionCall)
  programLogs : InstructionCall → List String → List String

/-- The logs of a transaction, parsed when they are first needed. -/
structure TxLogs where
  metadata : TxMetadata

/-- Why an instruction has no logs. -/
inductive TxLogsError where
  | failedIxTrace (path : Path)
  | parse (error : String)
  | noLogs
deriving DecidableEq, Repr

/-- Follow a path into a forest of calls. -/
def traceIxCall (calls : Forest InstructionCall) : Path → Option InstructionCall
  | [] => none
  | position :: rest => do
    let (call, invocations) ← calls.tree? position.toNat
    match rest with
    | [] => some call
    | _ :: _ => traceIxCall invocations rest

namespace TxLogs

/-- The calls of a transaction. Without any log message there is nothing to parse. -/
def loadLogs (parser : LogParser) (logs : TxLogs) :
    Except TxLogsError (Forest InstructionCall) :=
  if logs.metadata.logMessages.isEmpty then .error .noLogs
  else (parser.parse logs.metadata.logMessages).mapError .parse

/-- The call at a path. -/
def callAt (parser : LogParser) (logs : TxLogs) (path : Path) :
    Except TxLogsError InstructionCall := do
  let calls ← logs.loadLogs parser
  match traceIxCall calls path with
  | some call => .ok call
  | none => .error (.failedIxTrace path)

/-- The lines that the program at a path logged itself. -/
def programLogs (parser : LogParser) (logs : TxLogs) (path : Path) :
    Except TxLogsError (List String) := do
  let call ← logs.callAt parser path
  pure (parser.programLogs call logs.metadata.logMessages)

end TxLogs

/-- The tag in front of an event that a program logs by calling itself. -/
def eventIxTagLe : Bytes := [228, 69, 165, 46, 81, 203, 154, 29]

/-- The data of an event, if the instruction data is one. -/
def anchorEventCpiFilter (data : Bytes) : Option Bytes :=
  if data.length ≤ eventIxTagLe.length then none
  else if data.take eventIxTagLe.length = eventIxTagLe then some (data.drop eventIxTagLe.length)
  else none

/-- The events that a program logged by calling itself. -/
def filterCpiLogsData {T : Type} [SolanaInstruction T] (accountKeys : AccountKeys)
    (program : Pubkey) (ixs : List T) : List Bytes :=
  ixs.filterMap (fun ix => do
    let ixProgram ← accountKeys.get (SolanaInstruction.programId ix).toNat
    if ixProgram ≠ program then none
    else
      let data ← (SolanaInstruction.data ix).toOption
      anchorEventCpiFilter data)

end Graced
