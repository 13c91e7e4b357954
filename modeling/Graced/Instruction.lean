import Graced.Borsh
import Graced.MachineInt

/-!
# Instructions and the tree of their calls

A transaction lists the instructions that a root instruction caused as one flat
list, each entry with the height of the call stack at which it ran, if that was
recorded. The tree is rebuilt with an explicit stack of the instructions that may
still get children. An instruction moves into its parent when a later entry closes
it, or when the list ends.

Child positions are counted in one byte.
-/

namespace Graced

universe u
variable {ε : Type u}

/-- The position of an instruction: its root instruction, then child positions. -/
abbrev Path := List UInt8

/-- `solana_transaction::CompiledInstruction` -/
structure CompiledInstruction where
  programIdIndex : UInt8
  accounts : List UInt8
  data : Bytes
deriving DecidableEq, Repr

/-- An instruction in the tree, with the instructions it called directly. -/
structure StackIx where
  ix : CompiledInstruction
  inner : List StackIx
  path : Path
deriving Repr

/-- An entry of the flat list. Heights are only ever compared. -/
structure IxWithStackHeight where
  ix : CompiledInstruction
  height : Option Nat
deriving DecidableEq, Repr

/-- What the parsers use of an instruction, whatever it is stored as. -/
class SolanaInstruction (T : Type) where
  accounts : T → List UInt8
  data : T → Except String Bytes
  programId : T → UInt8
  innerInstructions : T → List T
  flatInnerInstructions : T → List T
  path : T → Path

namespace StackIx

mutual

/-- All instructions below one, at every depth, in the order they occurred. -/
def flatInnerInstructions : StackIx → List StackIx
  | ⟨_, inner, _⟩ => flatten inner

/-- Each instruction is followed by all those below it. -/
def flatten : List StackIx → List StackIx
  | [] => []
  | child :: rest => child :: (flatInnerInstructions child ++ flatten rest)

end

/-- The instruction at a path below this one. -/
def trace (ix : StackIx) : Path → Option StackIx
  | [] => some ix
  | position :: rest => do
    let child ← ix.inner[position.toNat]?
    child.trace rest

instance : SolanaInstruction StackIx where
  accounts ix := ix.ix.accounts
  data ix := .ok ix.ix.data
  programId ix := ix.ix.programIdIndex
  innerInstructions ix := ix.inner
  flatInnerInstructions := flatInnerInstructions
  path ix := ix.path

end StackIx

/-- An instruction that may still get children: its height and the position of its
next child. -/
structure OpenIx where
  node : StackIx
  height : Option Nat
  count : UInt8

/-- A missing height is a barrier; it can be neither parent nor child. -/
def isValidParent (parent height : Option Nat) : Bool :=
  match parent, height with
  | some p, some c => decide (p < c)
  | _, _ => false

/-- Move a finished instruction into its parent. -/
def OpenIx.adopt (parent : OpenIx) (finished : StackIx) (count : UInt8) : OpenIx :=
  { parent with
    node := { parent.node with inner := parent.node.inner ++ [finished] }
    count := count }

/-- What the loop over the flat list carries along. The top of the stack is the
first of the list. -/
structure Scopes where
  stack : List OpenIx
  rootInner : List StackIx
  rootChildCount : UInt8

/-- Close scopes until the top of the stack may be the parent of an entry with this
height, given the top and what lies below it. -/
def closeScopes (profile : Profile) (height : Option Nat) :
    OpenIx → List OpenIx → List StackIx → UInt8 → Outcome ε Scopes
  | top, [], rootInner, rootChildCount =>
    if isValidParent top.height height then .ok ⟨[top], rootInner, rootChildCount⟩
    else do
      let next ← profile.increment8 rootChildCount
      pure ⟨[], rootInner ++ [top.node], next⟩
  | top, parent :: below, rootInner, rootChildCount =>
    if isValidParent top.height height then .ok ⟨top :: parent :: below, rootInner, rootChildCount⟩
    else do
      let next ← profile.increment8 parent.count
      closeScopes profile height (parent.adopt top.node next) below rootInner rootChildCount

/-- Close scopes for an entry with this height. -/
def Scopes.close (profile : Profile) (height : Option Nat) (scopes : Scopes) :
    Outcome ε Scopes :=
  match scopes.stack with
  | [] => .ok scopes
  | top :: below => closeScopes profile height top below scopes.rootInner scopes.rootChildCount

/-- The path of the next child of the top of the stack, or of the root instruction. -/
def Scopes.nextPath (rootPath : Path) (scopes : Scopes) : Path :=
  match scopes.stack with
  | parent :: _ => parent.node.path ++ [parent.count]
  | [] => rootPath ++ [scopes.rootChildCount]

/-- Push an entry without children. -/
def Scopes.push (rootPath : Path) (entry : IxWithStackHeight) (scopes : Scopes) : Scopes :=
  { scopes with
    stack := ⟨⟨entry.ix, [], scopes.nextPath rootPath⟩, entry.height, 0⟩ :: scopes.stack }

/-- The loop over the flat list. -/
def openScopes (profile : Profile) (rootPath : Path) :
    Scopes → List IxWithStackHeight → Outcome ε Scopes
  | scopes, [] => .ok scopes
  | scopes, entry :: rest => do
    let closed ← scopes.close profile entry.height
    openScopes profile rootPath (closed.push rootPath entry) rest

/-- Move every instruction that is still open into its parent. The root's children
are not counted any more. -/
def drainScopes (profile : Profile) :
    OpenIx → List OpenIx → List StackIx → Outcome ε (List StackIx)
  | top, [], rootInner => .ok (rootInner ++ [top.node])
  | top, parent :: below, rootInner => do
    let next ← profile.increment8 parent.count
    drainScopes profile (parent.adopt top.node next) below rootInner

/-- The children of the root, once the list has ended and the stack is drained. -/
def Scopes.drain (profile : Profile) (scopes : Scopes) : Outcome ε (List StackIx) :=
  match scopes.stack with
  | [] => .ok scopes.rootInner
  | top :: below => drainScopes profile top below scopes.rootInner

/-- `build_ix_stack` -/
def buildIxStack (profile : Profile) (ix : CompiledInstruction)
    (innerIxs : List IxWithStackHeight) (index : UInt8) : Outcome ε StackIx := do
  let scopes ← openScopes profile [index] ⟨[], [], 0⟩ innerIxs
  let inner ← scopes.drain profile
  pure ⟨ix, inner, [index]⟩

/-- One scope is closed by a sibling, one by a missing height, one by the end. -/
example : (fun tree => tree.flatInnerInstructions.map (fun ix =>
      (ix.ix.programIdIndex, ix.path))) <$>
    (buildIxStack ⟨true⟩ ⟨0, [], []⟩ [⟨⟨1, [], []⟩, some 2⟩, ⟨⟨2, [], []⟩, some 3⟩,
      ⟨⟨3, [], []⟩, some 2⟩, ⟨⟨4, [], []⟩, none⟩] 7 : Outcome Empty StackIx) =
    .ok [(1, [7, 0]), (2, [7, 0, 0]), (3, [7, 1]), (4, [7, 2])] := by decide

end Graced
