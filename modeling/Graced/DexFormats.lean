import Graced.View

/-!
# Dexes that are told apart by positions alone

Most dex parsers do the same thing with different numbers: look at the first bytes of
the data, read four accounts at fixed positions, and find the swap among the
transfers between the two token accounts. They differ in what they accept, in which
accounts they read, in whether the accounts or the data are looked at first, and in
what they make of an instruction without matching transfers.

Positions are read by index. Some parsers read more of them than they use.
-/

namespace Graced

/-- The positions of the accounts that a parser reads. -/
structure Layout where
  user : Nat
  market : Nat
  tokenAccountA : Nat
  tokenAccountB : Nat
  unused : List Nat
deriving DecidableEq, Repr

/-- All positions of a layout. -/
def Layout.positions (layout : Layout) : List Nat :=
  [layout.user, layout.market, layout.tokenAccountA, layout.tokenAccountB] ++ layout.unused

/-- The accounts at the positions of a layout. -/
structure SwapAccounts where
  user : Pubkey
  market : Pubkey
  tokenAccountA : Pubkey
  tokenAccountB : Pubkey
deriving DecidableEq, Repr

/-- Read a layout by index. -/
def Layout.read (layout : Layout) (accs : InstructionAccounts) :
    Outcome ParseError SwapAccounts := do
  let user ← accs.index layout.user
  let market ← accs.index layout.market
  let tokenAccountA ← accs.index layout.tokenAccountA
  let tokenAccountB ← accs.index layout.tokenAccountB
  let _ ← Outcome.collect (fun position => accs.index position) layout.unused
  pure ⟨user, market, tokenAccountA, tokenAccountB⟩

/-- Reading by index never ends in an error. -/
@[simp] theorem Layout.read_ne_err (layout : Layout) (accs : InstructionAccounts)
    (error : ParseError) : layout.read accs ≠ .err error := by
  intro fails
  simp only [Layout.read, Outcome.bind_err_iff, InstructionAccounts.index_ne_err, false_or]
    at fails
  obtain ⟨_, _, _, _, _, _, _, _, unused | ⟨_, _, impossible⟩⟩ := fails
  · obtain ⟨position, _, atPosition⟩ := Outcome.collect_err _ _ _ unused
    simp at atPosition
  · simp at impossible

/-- Reading a layout panics exactly when one of its positions does not resolve. -/
theorem Layout.read_ne_panic_iff (layout : Layout) (accs : InstructionAccounts) :
    layout.read accs ≠ .panic ↔ ∀ position ∈ layout.positions, accs.Resolves position := by
  have unused : Outcome.collect (fun position => (accs.index position : Outcome ParseError _))
      layout.unused ≠ .panic ↔ ∀ position ∈ layout.unused, accs.Resolves position := by
    rw [Outcome.collect_ne_panic_iff _ _ (by simp)]
    simp [InstructionAccounts.index_panic_iff]
  simp only [Layout.read, InstructionAccounts.index_bind_ne_panic_iff]
  simp only [Outcome.bind_ne_panic_iff, unused, Layout.positions, List.forall_mem_append,
    List.forall_mem_cons, InstructionAccounts.Resolves]
  simp [and_assoc]

/-- What makes the parser of one dex. -/
structure Format where
  program : Program
  /-- The accounts are resolved before the data is looked at. -/
  accountsFirst : Bool
  /-- Otherwise, data that fails here is passed over before they are. -/
  gate : Bytes → Bool
  /-- The layout that the data calls for, if it is a swap. -/
  select : Bytes → Option Layout
  /-- A swap without matching transfers is an error; otherwise it is passed over. -/
  required : Bool

namespace Format

variable {T : Type} [SolanaInstruction T]

/-- Read the accounts and find the swap among the transfers. -/
def decode (format : Format) (env : Env) (view : IxView T) (accs : InstructionAccounts)
    (layout : Layout) : Outcome ParseError (Option DexSwap) := do
  let accounts ← layout.read accs
  match ← view.swapInfo env accounts.tokenAccountA accounts.tokenAccountB accounts.user with
  | some info => pure (some ⟨accounts.user, accounts.market, format.program, info.toSwap⟩)
  | none => if format.required then .err .noDetailsFound else pure none

/-- The parser of a dex. -/
def parse (format : Format) (env : Env) (view : IxView T) :
    Outcome ParseError (Option DexSwap) := do
  if format.accountsFirst then
    let accs ← view.accounts
    let data ← view.data
    match format.select data with
    | none => pure none
    | some layout => format.decode env view accs layout
  else
    let data ← view.data
    if format.gate data then
      let accs ← view.accounts
      match format.select data with
      | none => pure none
      | some layout => format.decode env view accs layout
    else pure none

end Format

namespace Dex

/-- The first eight bytes, or as many as there are. -/
def discriminator (data : Bytes) : Bytes := data.take 8

def swapDisc : Bytes := [248, 198, 158, 145, 225, 117, 135, 200]

def swap2Disc : Bytes := [65, 75, 63, 76, 235, 91, 91, 136]

def swapV2Disc : Bytes := [43, 4, 237, 11, 26, 201, 30, 98]

/-- Every data is looked at with the accounts at hand. -/
def noGate (_ : Bytes) : Bool := true

/-- Empty data is passed over. -/
def firstByte (data : Bytes) : Bool := !data.isEmpty

def bonkswap : Format where
  program := .bonkSwap
  accountsFirst := false
  gate := noGate
  select data := if discriminator data = swapDisc then some ⟨8, 1, 4, 5, []⟩ else none
  required := true

def byreal : Format where
  program := .byreal
  accountsFirst := false
  gate := noGate
  select data :=
    if discriminator data = swapDisc then some ⟨0, 2, 5, 6, []⟩
    else if discriminator data = swapV2Disc then some ⟨0, 2, 5, 6, [11, 12]⟩
    else none
  required := true

def deriverse : Format where
  program := .deriverse
  accountsFirst := false
  gate := firstByte
  select data := if data.head? = some 26 then some ⟨0, 5, 3, 4, [1, 2]⟩ else none
  required := true

def launchlab : Format where
  program := .launchLab
  accountsFirst := false
  gate := noGate
  select data :=
    if discriminator data ∈ ([[250, 234, 13, 123, 213, 156, 19, 236],
        [24, 211, 116, 40, 105, 3, 153, 56], [149, 39, 222, 155, 211, 124, 152, 26],
        [95, 200, 71, 34, 8, 9, 11, 166]] : List Bytes) then some ⟨0, 4, 7, 8, []⟩
    else none
  required := true

def manifest : Format where
  program := .manifest
  accountsFirst := false
  gate := firstByte
  select data :=
    if data.head? = some 4 then some ⟨0, 1, 5, 6, []⟩
    else if data.head? = some 13 then some ⟨0, 2, 6, 7, []⟩
    else none
  required := true

def meteoraDammV2 : Format where
  program := .meteoraDAMMV2
  accountsFirst := false
  gate := noGate
  select data :=
    if discriminator data = swapDisc ∨ discriminator data = swap2Disc then
      some ⟨8, 1, 4, 5, [6, 7]⟩
    else none
  required := true

/-- The label is another dex's. -/
def meteoraDbc : Format where
  program := .byreal
  accountsFirst := false
  gate := noGate
  select data :=
    if discriminator data = swapDisc ∨ discriminator data = swap2Disc then some ⟨9, 2, 5, 6, []⟩
    else none
  required := true

def meteoraDlmm : Format where
  program := .meteoraDLMM
  accountsFirst := false
  gate := noGate
  select data :=
    if discriminator data ∈ ([swapDisc, swap2Disc, [250, 73, 101, 33, 38, 207, 75, 184],
        [43, 215, 247, 132, 137, 60, 243, 81], [56, 173, 230, 208, 173, 228, 156, 205],
        [74, 98, 192, 214, 177, 51, 75, 51]] : List Bytes) then some ⟨10, 0, 2, 3, [6, 7]⟩
    else none
  required := true

def meteoraPools : Format where
  program := .meteoraPools
  accountsFirst := false
  gate data := discriminator data = swapDisc
  select data := if discriminator data = swapDisc then some ⟨12, 0, 5, 6, []⟩ else none
  required := true

def orca : Format where
  program := .orca
  accountsFirst := false
  gate := noGate
  select data :=
    if discriminator data = swapDisc then some ⟨1, 2, 4, 6, []⟩
    else if discriminator data = swapV2Disc then some ⟨3, 4, 8, 10, []⟩
    else none
  required := true

def pumpAmm : Format where
  program := .pumpAmm
  accountsFirst := false
  gate := noGate
  select data :=
    if discriminator data ∈ ([[102, 6, 61, 18, 1, 218, 235, 234],
        [198, 46, 21, 82, 180, 217, 232, 112], [51, 230, 133, 164, 1, 127, 131, 173]] :
        List Bytes) then some ⟨1, 0, 7, 8, [3, 4]⟩
    else none
  required := true

/-- The label is another dex's. -/
def sarosAmm : Format where
  program := .sarosDLMM
  accountsFirst := false
  gate := firstByte
  select data := if data.head? = some 1 then some ⟨9, 2, 4, 5, []⟩ else none
  required := true

def sarosDlmm : Format where
  program := .sarosDLMM
  accountsFirst := false
  gate := noGate
  select data := if discriminator data = swapDisc then some ⟨9, 0, 5, 6, [1, 2]⟩ else none
  required := true

def scorch : Format where
  program := .scorch
  accountsFirst := true
  gate := noGate
  select data := if data.head? = some 2 then some ⟨1, 15, 4, 5, [6, 7]⟩ else none
  required := true

def alphaq : Format where
  program := .alphaQ
  accountsFirst := false
  gate data := data.head? = some 12
  select data := if data.head? = some 12 then some ⟨0, 1, 5, 6, []⟩ else none
  required := false

def aquifer : Format where
  program := .aquifer
  accountsFirst := true
  gate := noGate
  select data :=
    if data.head? = some 1 ∨ data.head? = some 19 then some ⟨1, 9, 15, 13, [7, 4]⟩ else none
  required := false

def bisonfi : Format where
  program := .bisonFi
  accountsFirst := false
  gate data := data.head? = some 2
  select data := if data.head? = some 2 then some ⟨0, 1, 2, 3, []⟩ else none
  required := false

def goonfiV1 : Format where
  program := .goonFi
  accountsFirst := false
  gate data := data.head? = some 2
  select data := if data.head? = some 2 then some ⟨0, 1, 4, 5, []⟩ else none
  required := false

def goonfiV2 : Format where
  program := .goonFiV2
  accountsFirst := false
  gate data := data.head? = some 1
  select data := if data.head? = some 1 then some ⟨0, 1, 4, 5, []⟩ else none
  required := false

def solfi : Format where
  program := .solFi
  accountsFirst := false
  gate data := data.head? = some 7
  select data := if data.head? = some 7 then some ⟨0, 1, 4, 5, [8, 9]⟩ else none
  required := false

def solfiV2 : Format where
  program := .solFiV2
  accountsFirst := false
  gate data := data.head? = some 7
  select data := if data.head? = some 7 then some ⟨0, 1, 4, 5, []⟩ else none
  required := false

def tessera : Format where
  program := .tesseraV
  accountsFirst := false
  gate data := data.head? = some 16
  select data := if data.head? = some 16 then some ⟨2, 1, 3, 4, [7, 8]⟩ else none
  required := false

/-- Data of every other kind is of a previous version. -/
def zerofi : Format where
  program := .zeroFi
  accountsFirst := true
  gate := noGate
  select data :=
    if data.head? = some 16 then some ⟨8, 0, 3, 5, []⟩ else some ⟨7, 0, 2, 4, []⟩
  required := false

end Dex

end Graced
