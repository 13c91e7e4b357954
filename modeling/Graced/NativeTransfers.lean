import Graced.Transfers
import Graced.Outcome

/-!
# Transfers of lamports and of tokens

A call of the system program is a transfer of lamports when the system library reads it as
one; the kind with a seed names a signer between the two accounts. Its accounts are taken one
after the other from a cursor. A call of either kind is told by its program first.

Reading every call of a list for either kind finds among others the transfers of tokens, and
exactly those that are found when only they are looked for.
-/

namespace Graced

/-- A transfer of lamports. The signer is known for the kind with a seed only. -/
structure NativeTransfer where
  sourceAccount : Pubkey
  destinationAccount : Pubkey
  signer : Option Pubkey
  lamports : UInt64
deriving DecidableEq, Repr

/-- A transfer of either kind. -/
inductive Transfer where
  | native (transfer : NativeTransfer)
  | token (transfer : TokenTransfer)
deriving DecidableEq, Repr

/-- A deserialized instruction of the system program, as far as it is told apart. -/
inductive SystemInstruction where
  | transfer (lamports : UInt64)
  | transferWithSeed (lamports : UInt64)
  | other
deriving DecidableEq, Repr

/-- Why a call could not be read as a transfer of either kind: `TokenParseError` with the case
that transfers of tokens do not have. -/
inductive TransferError where
  | token (error : TokenParseError)
  | instructionDeserialize (error : String)
deriving DecidableEq, Repr

/-- `limited_deserialize` for instructions of the system program. -/
abbrev SystemDecoder := Bytes → Except String SystemInstruction

/-- `next_address` with the errors of a transfer. -/
def nextKey (keys : InstructionAccounts) : Except TransferError (Pubkey × InstructionAccounts) :=
  match keys.nextAddress with
  | (.ok key, rest) => .ok (key, rest)
  | (.error error, _) => .error (.token (.keyTransversal error))

/-- `parse_native_transfer` -/
def parseNativeTransfer (decode : SystemDecoder) (accountKeys : AccountKeys)
    (accounts : List UInt8) (data : Bytes) (programIdIndex : UInt8) :
    Except TransferError (Option NativeTransfer) := do
  let keys ← (InstructionAccounts.new accountKeys accounts programIdIndex).mapError
    (fun error => .token (.keyTransversal error))
  let instruction ← (decode data).mapError .instructionDeserialize
  match instruction with
  | .other => .ok none
  | .transfer lamports =>
    let (sourceAccount, keys) ← nextKey keys
    let (destinationAccount, _) ← nextKey keys
    .ok (some ⟨sourceAccount, destinationAccount, none, lamports⟩)
  | .transferWithSeed lamports =>
    let (sourceAccount, keys) ← nextKey keys
    let (signer, keys) ← nextKey keys
    let (destinationAccount, _) ← nextKey keys
    .ok (some ⟨sourceAccount, destinationAccount, some signer, lamports⟩)

/-- `parse_transfer` -/
def parseTransfer (env : Env) (decode : SystemDecoder) (accountKeys : AccountKeys)
    (accounts : List UInt8) (data : Bytes) (programIdIndex : UInt8) :
    Except TransferError (Option Transfer) :=
  match accountKeys.get programIdIndex.toNat with
  | none => .error (.token (.missingProgramId programIdIndex))
  | some id =>
    if id = Ids.systemProgram then
      (parseNativeTransfer decode accountKeys accounts data programIdIndex).map
        (fun parsed => parsed.map .native)
    else if id = Ids.splToken ∨ id = Ids.splToken2022 then
      ((parseTokenTransfer env accountKeys accounts data programIdIndex).mapError .token).map
        (fun parsed => parsed.map .token)
    else .ok none

/-! ## A transfer of lamports -/

/-- Taking the next account is reading the one at the cursor. -/
theorem nextKey_iff (keys rest : InstructionAccounts) (key : Pubkey) :
    nextKey keys = .ok (key, rest) ↔ keys.peek 0 = .ok key ∧ rest = keys.advance 1 := by
  unfold nextKey InstructionAccounts.nextAddress InstructionAccounts.next InstructionAccounts.peek
    InstructionAccounts.resolve
  rw [Nat.add_zero]
  cases keys.indices[keys.cursor]? with
  | none => simp
  | some index =>
    cases found : keys.keys.get index.toNat with
    | none => simp [found]
    | some known => simp [found, eq_comm]

/-- The accounts of an instruction whose program is known, from the first on. -/
def declared (accountKeys : AccountKeys) (accounts : List UInt8) (programId : Pubkey) :
    InstructionAccounts := ⟨accountKeys, accounts, 0, programId⟩

/-- What is read as a transfer of lamports: the accounts at the first places, of which the
second is the signer where there is one. -/
def ReadsAs (decode : SystemDecoder) (keys : InstructionAccounts) (data : Bytes)
    (transfer : NativeTransfer) : Prop :=
  keys.peek 0 = .ok transfer.sourceAccount ∧
    match transfer.signer with
    | none => decode data = .ok (.transfer transfer.lamports) ∧
        keys.peek 1 = .ok transfer.destinationAccount
    | some signer => decode data = .ok (.transferWithSeed transfer.lamports) ∧
        keys.peek 1 = .ok signer ∧ keys.peek 2 = .ok transfer.destinationAccount

/-- Reading ahead after the cursor moved is reading further ahead. -/
theorem peek_advance (keys : InstructionAccounts) (count offset : Nat) :
    (keys.advance count).peek offset = keys.peek (count + offset) := by
  simp [InstructionAccounts.peek, InstructionAccounts.advance, Nat.add_assoc]

/-- A transfer of lamports is read exactly where the data tell its kind and the accounts are
there. -/
theorem parseNativeTransfer_iff (decode : SystemDecoder) (accountKeys : AccountKeys)
    (accounts : List UInt8) (data : Bytes) (programIdIndex : UInt8) (transfer : NativeTransfer) :
    parseNativeTransfer decode accountKeys accounts data programIdIndex = .ok (some transfer) ↔
      ∃ programId, accountKeys.get programIdIndex.toNat = some programId ∧
        ReadsAs decode (declared accountKeys accounts programId) data transfer := by
  unfold parseNativeTransfer InstructionAccounts.new
  cases accountKeys.get programIdIndex.toNat with
  | none => simp [Except.mapError, bind, Except.bind]
  | some programId =>
    simp only [Except.mapError, Outcome.exceptBind_ok_iff, Except.ok.injEq, exists_eq_left',
      Option.some.injEq]
    obtain ⟨source, destination, signer, amount⟩ := transfer
    cases read : decode data with
    | error error => cases signer <;> simp [ReadsAs, read]
    | ok instruction =>
      cases instruction with
      | other => cases signer <;> simp [ReadsAs, read]
      | transfer lamports =>
        cases signer <;>
          simp [ReadsAs, read, Outcome.exceptBind_ok_iff, nextKey_iff, peek_advance, declared,
            and_comm, and_left_comm]
      | transferWithSeed lamports =>
        cases signer <;>
          simp [ReadsAs, read, Outcome.exceptBind_ok_iff, nextKey_iff, peek_advance, declared,
            and_comm, and_left_comm]

/-! ## The transfers of tokens among all -/

/-- The transfer of tokens that a transfer is, if it is one. -/
def Transfer.tokens : Transfer → Option TokenTransfer
  | .native _ => none
  | .token transfer => some transfer

section Calls

variable {T : Type} [SolanaInstruction T] (env : Env) (decode : SystemDecoder)
  (accountKeys : AccountKeys)

/-- A call, read as a transfer of either kind. -/
def transferOf (ix : T) : Except TransferError (Option Transfer) := do
  let data ← (SolanaInstruction.data ix).mapError (fun error => .token (.instructionData error))
  parseTransfer env decode accountKeys (SolanaInstruction.accounts ix) data
    (SolanaInstruction.programId ix)

/-- A call of the system program is read, as a transfer or as none. -/
def NativeReadable (ix : T) : Prop :=
  accountKeys.get (SolanaInstruction.programId ix).toNat = some Ids.systemProgram →
    ∀ data, SolanaInstruction.data ix = .ok data →
      ∃ parsed, parseNativeTransfer decode accountKeys (SolanaInstruction.accounts ix) data
        (SolanaInstruction.programId ix) = .ok parsed

/-- Among the transfers of either kind that data may be, that of tokens is the one that is
found without looking for others. -/
theorem tokens_of_data (accounts : List UInt8) (data : Bytes) (programIdIndex : UInt8)
    (readable : accountKeys.get programIdIndex.toNat = some Ids.systemProgram →
      ∃ parsed, parseNativeTransfer decode accountKeys accounts data programIdIndex = .ok parsed) :
    (parseTransfer env decode accountKeys accounts data programIdIndex).map
        (fun parsed => parsed.bind Transfer.tokens) =
      (parseTokenTransfer env accountKeys accounts data programIdIndex).mapError .token := by
  unfold parseTransfer
  cases found : accountKeys.get programIdIndex.toNat with
  | none =>
    rw [parseTokenTransfer, found]
    rfl
  | some id =>
    by_cases system : id = Ids.systemProgram
    · obtain ⟨parsed, native⟩ := readable (by rw [found, system])
      have noTokens :
          parseTokenTransfer env accountKeys accounts data programIdIndex = .ok none := by
        rw [parseTokenTransfer, found, system]
        exact if_pos (by decide)
      rw [noTokens, native]
      cases parsed <;> simp [system, Except.map, Except.mapError, Transfer.tokens]
    · by_cases tokens : id = Ids.splToken ∨ id = Ids.splToken2022
      · simp only [if_neg system, if_pos tokens]
        cases parseTokenTransfer env accountKeys accounts data programIdIndex with
        | error error => rfl
        | ok parsed => cases parsed <;> rfl
      · have noTokens : parseTokenTransfer env accountKeys accounts data programIdIndex =
            .ok none := by
          rw [parseTokenTransfer, found]
          exact if_pos (not_or.mp tokens)
        simp only [if_neg system, if_neg tokens, noTokens]
        rfl

/-- Reading every call for either kind finds among others the transfers of tokens, as they are
found, and with the errors with which they fail, when only they are looked for. -/
theorem tokens_among (ixs : List T)
    (readable : ∀ ix ∈ ixs, NativeReadable decode accountKeys ix) :
    (ixs.mapM (transferOf env decode accountKeys)).map
        (fun parsed => parsed.filterMap (fun transfer => transfer.bind Transfer.tokens)) =
      (parseMultipleTokenTransfers env accountKeys ixs).mapError .token := by
  induction ixs with
  | nil => rfl
  | cons ix rest inductionHypothesis =>
    have inRest := inductionHypothesis
      (fun other member => readable other (List.mem_cons_of_mem ix member))
    rw [List.mapM_cons, parseMultipleTokenTransfers, transferOf]
    cases given : SolanaInstruction.data ix with
    | error error => rfl
    | ok data =>
      have atHead := tokens_of_data env decode accountKeys (SolanaInstruction.accounts ix) data
        (SolanaInstruction.programId ix)
        (fun system => readable ix (List.mem_cons_self ..) system data given)
      simp only [Except.mapError, bind, Except.bind]
      rcases (Outcome.exceptMap_eq_mapError_iff _ _ _ _).mp atHead with
        ⟨error, all, tokens⟩ | ⟨parsed, all, tokens⟩
      · rw [all, tokens]
        rfl
      · rw [all, tokens]
        rcases (Outcome.exceptMap_eq_mapError_iff _ _ _ _).mp inRest with
          ⟨error, others, transfers⟩ | ⟨found, others, transfers⟩
        · rw [others, transfers]
          rfl
        · rw [others, transfers]
          cases kept : parsed.bind Transfer.tokens <;> simp [kept, Except.map, pure, Except.pure]

end Calls

end Graced
