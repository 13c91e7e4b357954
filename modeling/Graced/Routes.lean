import Graced.View
import Mathlib.Data.List.Sort

/-!
# The routes of an aggregator

An aggregator calls one program after another. Where such a call was decoded its swap
is known; where it was not, only the transfers below it are. The two mints with the
largest totals among the transfers stand for the two sides, without telling which side
is which. A side is recognised as the input by the output of the leg before, and as
the output by the input of the leg after, as far as directions are known there.

The totals are kept in a hash map and sorted by amount, so that equal amounts come in
the order in which the map is walked.
-/

namespace Graced

/-- One leg of a route. -/
inductive Route where
  | decoded (dex : DexSwap)
  | undecoded (program : Program) (path : Path) (transfers : List TokenTransfer)
deriving DecidableEq, Repr

def Route.isDecoded : Route → Bool
  | decoded _ => true
  | undecoded _ _ _ => false

/-- Why the legs of a route did not make a net swap. -/
inductive RouteError where
  | ambiguousTransfers
  | unresolvedLeg (index : Nat)
  | unknownMint
  | resolution (error : SwapGraphError)
deriving DecidableEq, Repr

/-- An amount of a mint. -/
structure MintAmount where
  mint : Pubkey
  amount : UInt64
deriving DecidableEq, Repr

/-- What is known of a leg: its swap, or two sides in unknown roles. -/
inductive LegShape where
  | known (swap : Swap)
  | candidates (a b : MintAmount)
deriving DecidableEq, Repr

namespace Routes

/-- The totals of the transfers per mint. -/
def totals (profile : Profile) :
    AssocMap Pubkey UInt64 → List TokenTransfer → Outcome RouteError (AssocMap Pubkey UInt64)
  | sums, [] => .ok sums
  | sums, transfer :: rest =>
    match transfer.mint with
    | none => .err .unknownMint
    | some mint => do
      let total ← profile.add64 ((sums.get mint).getD 0) transfer.amount
      totals profile (sums.insert mint total) rest

/-- Entries by falling amount; entries with equal amounts keep their order. -/
def sorted (entries : List (Pubkey × UInt64)) : List (Pubkey × UInt64) :=
  entries.insertionSort (fun first second => second.2 ≤ first.2)

/-- `candidates_from_transfers` -/
def candidatesFromTransfers (profile : Profile) (order : IterationOrder Pubkey UInt64)
    (transfers : List TokenTransfer) : Outcome RouteError LegShape := do
  let sums ← totals profile .empty transfers
  match sorted (order.arrange sums.entries) with
  | (m1, a1) :: (m2, a2) :: _ => pure (.candidates ⟨m1, a1⟩ ⟨m2, a2⟩)
  | _ => .err .ambiguousTransfers

/-- What is known of a leg by itself. -/
def shapeOf (profile : Profile) (order : IterationOrder Pubkey UInt64) :
    Route → Outcome RouteError LegShape
  | .decoded dex => .ok (.known dex.swap)
  | .undecoded _ _ transfers => candidatesFromTransfers profile order transfers

/-- The shapes of all legs; every undecoded leg walks over a map of its own. -/
def shapes (profile : Profile) (orders : Nat → IterationOrder Pubkey UInt64)
    (routes : List Route) : Outcome RouteError (List LegShape) :=
  Outcome.collect (fun (route, index) => shapeOf profile (orders index) route) routes.zipIdx

/-- Give a leg its direction by the mint it shares with a neighbour. -/
def resolve (a b : MintAmount) (held : Pubkey) (asInput : Bool) : Option Swap :=
  let oriented (shared other : MintAmount) : Swap :=
    if asInput then ⟨shared.amount, other.amount, shared.mint, other.mint⟩
    else ⟨other.amount, shared.amount, other.mint, shared.mint⟩
  if a.mint = held then some (oriented a b)
  else if b.mint = held then some (oriented b a)
  else none

/-- One leg of a pass: its shape, and the mint handed on to the next leg. A leg without
a direction hands on nothing. -/
def orient (asInput : Bool) (held : Option Pubkey) : LegShape → LegShape × Option Pubkey
  | .known swap => (.known swap, some (if asInput then swap.outputMint else swap.inputMint))
  | .candidates a b =>
    match held.bind (fun mint => resolve a b mint asInput) with
    | some swap => (.known swap, some (if asInput then swap.outputMint else swap.inputMint))
    | none => (.candidates a b, none)

/-- The forward pass hands each leg's output on to the next leg. -/
def forward : Option Pubkey → List LegShape → List LegShape
  | _, [] => []
  | held, shape :: rest =>
    let (shape', next) := orient true held shape
    shape' :: forward next rest

/-- The backward pass starts at the last leg and hands each leg's input on to the leg
before. -/
def backward : List LegShape → List LegShape × Option Pubkey
  | [] => ([], none)
  | shape :: rest =>
    let (rest', held) := backward rest
    let (shape', next) := orient false held shape
    (shape' :: rest', next)

/-- All swaps, if every leg has a direction. -/
def knownSwaps (shapes : List LegShape) : Outcome RouteError (List Swap) :=
  Outcome.collect (fun (shape, index) =>
    match shape with
    | .known swap => .ok swap
    | .candidates _ _ => .err (.unresolvedLeg index)) shapes.zipIdx

/-- `to_swaps` -/
def toSwaps (profile : Profile) (orders : Nat → IterationOrder Pubkey UInt64)
    (routes : List Route) : Outcome RouteError (List Swap) := do
  let shapes ← shapes profile orders routes
  knownSwaps (backward (forward none shapes)).1

/-- The swaps of a route, resolved only if some leg is not decoded. -/
def swaps (profile : Profile) (orders : Nat → IterationOrder Pubkey UInt64)
    (routes : List Route) : Outcome RouteError (List Swap) :=
  if routes.any (fun route => !route.isDecoded) then toSwaps profile orders routes
  else .ok (routes.filterMap (fun route =>
    match route with
    | .decoded dex => some dex.swap
    | .undecoded _ _ _ => none))

/-- `Routes::swap` -/
def swap (profile : Profile) (orders : Nat → IterationOrder Pubkey UInt64)
    (routes : List Route) : Outcome RouteError Swap := do
  let swaps ← swaps profile orders routes
  (SwapGraph.swap profile ⟨swaps⟩).mapError .resolution

end Routes

end Graced
