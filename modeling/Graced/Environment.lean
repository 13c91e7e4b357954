import Graced.Logs

/-!
# What the program gets from elsewhere

The build it runs in, and the libraries it calls for formats that it does not read
itself. Nothing is assumed about these functions; what a library returns on some
input is what the parsers go on with.
-/

namespace Graced

/-- An unpacked instruction of a token program, as far as it is told apart. -/
inductive TokenInstruction where
  | transfer (amount : UInt64)
  | transferChecked (amount : UInt64) (decimals : UInt8)
  | other
deriving DecidableEq, Repr

/-- A build and its libraries. -/
structure Env where
  profile : Profile
  /-- `Pubkey::from_str` -/
  pubkeyFromStr : String → Option Pubkey
  /-- `TokenInstruction::unpack` -/
  unpack : Bytes → Except String TokenInstruction
  /-- Decoding of standard base64. -/
  decodeBase64 : String → Except String Bytes
  logParser : LogParser
  /-- How the map of totals is walked, for each leg of each aggregator instruction. -/
  totalsOrder : Path → Nat → IterationOrder Pubkey UInt64

end Graced
