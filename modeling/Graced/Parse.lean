import Graced.Aggregator

/-!
# Parsing a transaction

Every root instruction of a known program is parsed, in order. Instructions of other
programs and of disallowed ones are passed over. The first failure is the failure of
the transaction; it comes with the path and the program of the root instruction in
which it happened.
-/

namespace Graced

/-- A parsed swap. -/
inductive Parsed where
  | aggregator (swap : AggregatorSwap)
  | dex (swap : DexSwap)
deriving DecidableEq, Repr

/-- An error and where it happened. -/
structure WithTrace where
  path : Path
  program : Option Program
  error : ParseError
deriving DecidableEq, Repr

variable {T : Type} [SolanaInstruction T]

/-- Attach the path and the program of an instruction to what goes wrong in it. -/
def withTrace {α : Type} (view : IxView T) (f : IxView T → Outcome ParseError (Option α)) :
    Outcome WithTrace (Option α) :=
  let path := SolanaInstruction.path view.ix
  let program := (view.keys.get (SolanaInstruction.programId view.ix).toNat).map Program.ofPubkey
  (f view).mapError (fun error => ⟨path, program, error⟩)

/-- `parse_instruction_internal` -/
def parseInstructionInternal (env : Env) (view : IxView T) :
    Outcome ParseError (Option Parsed) := do
  let program ← view.program
  if Aggregator.isAggregator program then
    let swap ← Aggregator.parse env view program
    pure (swap.map .aggregator)
  else if Dex.isAmm program then
    let swap ← Dex.parse env view program
    pure (swap.map .dex)
  else pure none

/-- `parse_instruction` -/
def parseInstruction (env : Env) (view : IxView T) : Outcome WithTrace (Option Parsed) :=
  withTrace view (parseInstructionInternal env)

/-- The context that all instructions of a transaction share. -/
def SolanaTx.view (tx : SolanaTx) (ix : T) : IxView T :=
  ⟨ix, tx.accountKeys, ⟨tx.metadata⟩, ⟨tx.accountKeys, tx.metadata⟩⟩

/-- Is the program of an instruction known to the table and not disallowed? -/
def isParsed (tx : SolanaTx) (ix : T) : Bool :=
  match tx.accountKeys.get (SolanaInstruction.programId ix).toNat with
  | some id => !disallowed.contains id
  | none => false

/-- Build the call tree of one root instruction and parse it. -/
def parseRoot (env : Env) (tx : SolanaTx) (root : CompiledInstruction × Nat) :
    Outcome WithTrace (Option Parsed) := do
  let ix ← tx.rootInstruction env.profile root.2 root.1
  if isParsed tx ix then parseInstruction env (tx.view ix) else pure none

/-- `parse_transaction`, after the conversion. -/
def parseTransaction (env : Env) (tx : SolanaTx) : Outcome WithTrace (List Parsed) :=
  Outcome.collectSome (parseRoot env tx) tx.enumerated

end Graced
