import Graced.Transaction

/-!
# The accounts of an instruction

An instruction lists its accounts as indices into the table of its transaction. A
position can fail to resolve twice: the list may be too short, and the index may lie
outside the table. Reading with `peek` reports either as an error; reading by index
takes the account for granted.
-/

namespace Graced

universe u
variable {ε : Type u}

/-- Why an account was not resolved. -/
inductive KeyError where
  | invalidProgramIdIndex (index : UInt8) (tableLen : Nat)
  | accountsExhausted (declared : Nat)
  | accountIndexOutOfRange (index tableLen : Nat)
deriving DecidableEq, Repr

/-- The accounts that an instruction declares, read from a cursor on. -/
structure InstructionAccounts where
  keys : AccountKeys
  indices : List UInt8
  cursor : Nat
  programId : Pubkey

namespace InstructionAccounts

/-- `new`: the program must be in the table. -/
def new (keys : AccountKeys) (indices : List UInt8) (programIdIdx : UInt8) :
    Except KeyError InstructionAccounts :=
  match keys.get programIdIdx.toNat with
  | none => .error (.invalidProgramIdIndex programIdIdx keys.len)
  | some programId => .ok ⟨keys, indices, 0, programId⟩

/-- The number of declared accounts. -/
def len (accounts : InstructionAccounts) : Nat := accounts.indices.length

/-- The account at a position ahead of the cursor. -/
def peek (accounts : InstructionAccounts) (offset : Nat) : Except KeyError Pubkey :=
  match accounts.indices[accounts.cursor + offset]? with
  | none => .error (.accountsExhausted accounts.indices.length)
  | some index =>
    match accounts.keys.get index.toNat with
    | none => .error (.accountIndexOutOfRange index.toNat accounts.keys.len)
    | some key => .ok key

/-- What the table has for an entry of the list. -/
def resolve (accounts : InstructionAccounts) (tableIdx : UInt8) : Except KeyError Pubkey :=
  match accounts.keys.get tableIdx.toNat with
  | none => .error (.accountIndexOutOfRange tableIdx.toNat accounts.keys.len)
  | some key => .ok key

/-- `peek` as it is computed: the position is added up in `usize`. -/
def peekUsize (profile : Profile) (accounts : InstructionAccounts) (offset : UInt64) :
    Outcome KeyError Pubkey := do
  let pos ← profile.add64 (UInt64.ofNat accounts.cursor) offset
  match accounts.indices[pos.toNat]? with
  | none => .err (.accountsExhausted accounts.indices.length)
  | some tableIdx => Outcome.ofExcept (accounts.resolve tableIdx)

/-- `remaining_len` -/
def remainingLen (profile : Profile) (accounts : InstructionAccounts) : Outcome ε UInt64 :=
  profile.sub64 (UInt64.ofNat accounts.indices.length) (UInt64.ofNat accounts.cursor)

/-- The accounts with the cursor that many slots further on. -/
def advance (accounts : InstructionAccounts) (count : Nat) : InstructionAccounts :=
  { accounts with cursor := accounts.cursor + count }

/-- `next`: the account at the cursor, which also passes an entry that does not resolve. -/
def next (accounts : InstructionAccounts) :
    Option (Except KeyError Pubkey) × InstructionAccounts :=
  match accounts.indices[accounts.cursor]? with
  | none => (none, accounts)
  | some tableIdx => (some (accounts.resolve tableIdx), accounts.advance 1)

/-- `next_address` -/
def nextAddress (accounts : InstructionAccounts) : Except KeyError Pubkey × InstructionAccounts :=
  let (slot, rest) := accounts.next
  (slot.getD (.error (.accountsExhausted accounts.indices.length)), rest)

/-- `next_optional_account`: the id of the program stands for an account left out. -/
def nextOptionalAccount (accounts : InstructionAccounts) :
    Except KeyError (Option Pubkey) × InstructionAccounts :=
  let (account, rest) := accounts.nextAddress
  (account.map (fun key => if key ≠ accounts.programId then some key else none), rest)

/-- The slots that a collection takes with `next`: those to the first that does not resolve,
which it takes as well. -/
def drain (accounts : InstructionAccounts) :
    List (Except KeyError Pubkey) × InstructionAccounts :=
  match _ : accounts.indices[accounts.cursor]? with
  | none => ([], accounts)
  | some tableIdx =>
    match accounts.resolve tableIdx with
    | .error error => ([.error error], accounts.advance 1)
    | .ok key =>
      let (slots, rest) := (accounts.advance 1).drain
      (.ok key :: slots, rest)
termination_by accounts.indices.length - accounts.cursor
decreasing_by
  rename_i atCursor
  have within := (List.getElem?_eq_some_iff.mp atCursor).1
  simp only [advance]
  omega

/-- `remaining_accounts` -/
def remainingAccounts (accounts : InstructionAccounts) :
    Except KeyError (List Pubkey) × InstructionAccounts :=
  let (slots, rest) := accounts.drain
  (slots.mapM id, rest)

/-- `accs[i]`: the account at a position, or a panic. -/
def index (accounts : InstructionAccounts) (offset : Nat) : Outcome ε Pubkey :=
  match accounts.peek offset with
  | .ok key => .ok key
  | .error _ => .panic

/-- A position resolves: the list has it and the table has what it lists. -/
def Resolves (accounts : InstructionAccounts) (offset : Nat) : Prop :=
  ∃ key, accounts.peek offset = .ok key

/-- Indexing panics exactly where peeking fails. -/
theorem index_panic_iff (accounts : InstructionAccounts) (offset : Nat) :
    (accounts.index offset : Outcome ε Pubkey) = .panic ↔ ¬ accounts.Resolves offset := by
  unfold index Resolves
  cases accounts.peek offset <;> simp

@[simp] theorem index_ok_iff (accounts : InstructionAccounts) (offset : Nat) (key : Pubkey) :
    (accounts.index offset : Outcome ε Pubkey) = .ok key ↔ accounts.peek offset = .ok key := by
  unfold index
  cases accounts.peek offset <;> simp

@[simp] theorem index_ne_err (accounts : InstructionAccounts) (offset : Nat) (error : ε) :
    accounts.index offset ≠ .err error := by
  unfold index
  cases accounts.peek offset <;> simp

/-- What follows a read by index does not panic exactly when the position resolves and it
does not panic with the account there. -/
theorem index_bind_ne_panic_iff {α : Type} (accounts : InstructionAccounts) (offset : Nat)
    (next : Pubkey → Outcome ε α) :
    (accounts.index offset >>= next) ≠ .panic ↔
      ∃ key, accounts.peek offset = .ok key ∧ next key ≠ .panic := by
  unfold index
  cases accounts.peek offset <;> simp

end InstructionAccounts

end Graced
