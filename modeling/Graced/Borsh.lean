import Mathlib.Data.List.Basic

/-!
# Reading little-endian binary records

A reader consumes bytes from the front and returns what it did not consume, so
that the fields of a record are read by reading one after another. Trailing bytes
are not an error. Integers are little-endian; a boolean is one byte that must be
zero or one; a vector is a 32-bit count followed by that many elements.
-/

namespace Graced

/-- A string of bytes, first byte first. -/
abbrev Bytes := List UInt8

instance : LawfulBEq Bytes := inferInstance

namespace Borsh

/-- Read a value from the front, or fail with a message. -/
abbrev Reader := StateT Bytes (Except String)

/-- The number spelled by bytes, least significant first. -/
def littleEndian (bytes : Bytes) : Nat :=
  bytes.foldr (fun byte higher => byte.toNat + 256 * higher) 0

/-- The next `count` bytes. -/
def take (count : Nat) : Reader Bytes := fun bytes =>
  if count ≤ bytes.length then .ok (bytes.take count, bytes.drop count)
  else .error "Unexpected length of input"

def u8 : Reader UInt8 := do return UInt8.ofNat (littleEndian (← take 1))

def u32 : Reader UInt32 := do return UInt32.ofNat (littleEndian (← take 4))

def u64 : Reader UInt64 := do return UInt64.ofNat (littleEndian (← take 8))

/-- A boolean, as one byte. -/
def bool : Reader Bool := do
  match ← u8 with
  | 0 => return false
  | 1 => return true
  | byte => throw ("Invalid bool representation: " ++ toString byte)

/-- A field whose value is not used, but which has to be present. -/
def skip (count : Nat) : Reader Unit := do
  let _ ← take count

/-- The same reader a number of times in a row. -/
def times {α : Type} (element : Reader α) : Nat → Reader (List α)
  | 0 => return []
  | count + 1 => do
    let head ← element
    let tail ← times element count
    return head :: tail

/-- A counted sequence. -/
def vec {α : Type} (element : Reader α) : Reader (List α) := do
  let count ← u32
  times element count.toNat

/-- Read one record, ignoring what follows it. -/
def deserialize {α : Type} (record : Reader α) (bytes : Bytes) : Except String α :=
  (record.run bytes).map Prod.fst

end Borsh

end Graced
