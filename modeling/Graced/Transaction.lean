import Graced.AssocMap
import Graced.Float64
import Graced.Instruction
import Graced.Program

/-!
# Transactions

What the parsers read of a transaction: its root instructions, the table of its
account keys, and the metadata recorded while it ran. Instructions refer to accounts
by their index in the table. The inner instructions are recorded under the index of
their root instruction, which is one byte.
-/

namespace Graced

universe u
variable {ε : Type u}

/-- The keys of the accounts of a transaction, in three segments. -/
structure AccountKeys where
  staticKeys : List Pubkey
  dynamicRw : List Pubkey
  dynamicRo : List Pubkey

namespace AccountKeys

/-- `key_segment_iter` -/
def keySegments (keys : AccountKeys) : List (List Pubkey) :=
  [keys.staticKeys, keys.dynamicRw, keys.dynamicRo]

/-- Look an index up in the segments, reducing it by the length of each that is too
short. -/
def getIn : List (List Pubkey) → Nat → Option Pubkey
  | [], _ => none
  | segment :: rest, index =>
    match segment[index]? with
    | some key => some key
    | none => getIn rest (index - segment.length)

/-- The key at an index. -/
def get (keys : AccountKeys) (index : Nat) : Option Pubkey := getIn keys.keySegments index

/-- `len` -/
def len (keys : AccountKeys) : Nat := (keys.keySegments.map List.length).sum

/-- `iter` -/
def iter (keys : AccountKeys) : List Pubkey := keys.keySegments.flatten

end AccountKeys

/-- `UiTokenAmount`: a raw amount as a numeral, with the number shown to users. -/
structure UiTokenAmount where
  uiAmount : Option Float64
  decimals : UInt8
  amount : String
  uiAmountString : String
deriving DecidableEq, Repr

/-- `TransactionTokenBalance`: a token account before or after the transaction. Keys
are recorded as text. -/
structure TransactionTokenBalance where
  accountIndex : UInt8
  mint : String
  uiTokenAmount : UiTokenAmount
  owner : String
  programId : String

/-- The recorded metadata. -/
structure TxMetadata where
  preBalances : List UInt64
  postBalances : List UInt64
  innerInstructions : AssocMap UInt8 (List IxWithStackHeight)
  logMessages : List String
  preTokenBalances : List TransactionTokenBalance
  postTokenBalances : List TransactionTokenBalance

/-- A transaction. -/
structure SolanaTx where
  instructions : List CompiledInstruction
  accountKeys : AccountKeys
  metadata : TxMetadata

namespace SolanaTx

/-- The call tree of the root instruction at a position. The position is cut down to
one byte, whatever the build. -/
def rootInstruction (profile : Profile) (tx : SolanaTx) (position : Nat)
    (ix : CompiledInstruction) : Outcome ε StackIx :=
  let idx := UInt8.ofNat position
  let innerIxs := (tx.metadata.innerInstructions.get idx).getD []
  buildIxStack profile ix innerIxs idx

/-- The root instructions with their positions. -/
def enumerated (tx : SolanaTx) : List (CompiledInstruction × Nat) := tx.instructions.zipIdx

/-- `TransactionStack::build` -/
def buildStack (profile : Profile) (tx : SolanaTx) : Outcome ε (List StackIx) :=
  Outcome.collect (fun root => tx.rootInstruction profile root.2 root.1) tx.enumerated

end SolanaTx

end Graced
