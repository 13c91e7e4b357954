import Graced.Parse

/-!
# What reaches the dex parsers

A dex parser is run on a root instruction, or on a direct call of an aggregator's root
instruction. What it finds there is what the result of the transaction reports, and
where it fails the whole transaction does.
-/

namespace Graced

variable {T : Type} [SolanaInstruction T]

namespace Dex

/-- The format of a dex that is told apart by positions alone. -/
def formatOf : Program → Option Format
  | .bonkSwap => some bonkswap
  | .byreal => some byreal
  | .deriverse => some deriverse
  | .launchLab => some launchlab
  | .manifest => some manifest
  | .meteoraDAMMV2 => some meteoraDammV2
  | .meteoraDBC => some meteoraDbc
  | .meteoraDLMM => some meteoraDlmm
  | .meteoraPools => some meteoraPools
  | .orca => some orca
  | .pumpAmm => some pumpAmm
  | .sarosAmm => some sarosAmm
  | .sarosDLMM => some sarosDlmm
  | .scorch => some scorch
  | .alphaQ => some alphaq
  | .aquifer => some aquifer
  | .bisonFi => some bisonfi
  | .goonFi => some goonfiV1
  | .goonFiV2 => some goonfiV2
  | .solFi => some solfi
  | .solFiV2 => some solfiV2
  | .tesseraV => some tessera
  | .zeroFi => some zerofi
  | _ => none

/-- The dispatch table sends a program with a format to the parser of that format. -/
theorem parse_formatOf (env : Env) (view : IxView T) (program : Program) (format : Format)
    (known : formatOf program = some format) :
    Dex.parse env view program = format.parse env view := by
  cases program <;> cases known <;> rfl

end Dex

namespace Aggregator

/-- A leg is decoded exactly when its dex parser finds a swap. -/
theorem routeOf_decoded_iff (env : Env) (view : IxView T) (ix : T) (swap : DexSwap) :
    routeOf env view ix = .ok (some (.decoded swap)) ↔
      isHop view ix = true ∧ ∃ program, (view.newCloned ix).program = .ok program ∧
        Dex.parse env (view.newCloned ix) program = .ok (some swap) := by
  by_cases hop : isHop view ix = true
  · simp only [routeOf, hop, if_true, Outcome.bind_ok_iff, true_and]
    apply exists_congr
    intro program
    apply and_congr_right
    intro _
    constructor
    · rintro ⟨found | found, parsed, same⟩
      · simp at same
      · obtain rfl : found = swap := by simpa using same
        exact parsed
    · intro parsed
      exact ⟨some swap, parsed, rfl⟩
  · simp [routeOf, hop]

/-- The program of a leg is always known. -/
theorem isHop_program (view : IxView T) (ix : T) (hop : isHop view ix = true) :
    ∃ program, (view.newCloned ix).program = .ok program := by
  unfold isHop at hop
  split at hop
  · rename_i id _ inTable
    have found : (view.newCloned ix).programId = .ok id := by
      simp [IxView.programId, IxView.newCloned, inTable]
    exact ⟨Program.ofPubkey id, by simp [IxView.program, found]⟩
  · simp at hop

/-- A leg fails exactly when its dex parser does, and with the same error. -/
theorem routeOf_err_iff (env : Env) (view : IxView T) (ix : T) (error : ParseError) :
    routeOf env view ix = .err error ↔
      isHop view ix = true ∧ ∃ program, (view.newCloned ix).program = .ok program ∧
        Dex.parse env (view.newCloned ix) program = .err error := by
  by_cases hop : isHop view ix = true
  · obtain ⟨program, known⟩ := isHop_program view ix hop
    simp only [routeOf, hop, if_true, known, Outcome.ok_bind, true_and, Outcome.ok.injEq,
      exists_eq_left']
    cases Dex.parse env (view.newCloned ix) program with
    | ok found => cases found <;> simp
    | err | panic => simp
  · simp [routeOf, hop]

/-- An aggregator swap comes with all legs of its route. -/
theorem parse_routes (env : Env) (view : IxView T) (program : Program) (found : AggregatorSwap)
    (parsed : parse env view program = .ok (some found)) :
    aggregatorRoutes env view = .ok found.routes := by
  rw [parse, Outcome.bind_ok_iff] at parsed
  obtain ⟨_ | header, _, rest⟩ := parsed
  · simp at rest
  · obtain ⟨routes, walked, netted⟩ := (Outcome.bind_ok_iff _ _ _).mp rest
    obtain ⟨swap, _, same⟩ := (Outcome.bind_ok_iff _ _ _).mp netted
    obtain rfl := Option.some.inj (Outcome.ok.inj same)
    exact walked

end Aggregator

/-- The program of an instruction is the one its id names in the account table. -/
theorem program_known (view : IxView T) (program : Program)
    (known : view.program = .ok program) :
    ∃ id, view.keys.get (SolanaInstruction.programId view.ix).toNat = some id ∧
      Program.ofPubkey id = program := by
  obtain ⟨id, found, same⟩ := (Outcome.bind_ok_iff _ _ _).mp known
  refine ⟨id, ?_, Outcome.ok.inj same⟩
  unfold IxView.programId at found
  split at found
  · rename_i key atIndex
    rw [atIndex, Outcome.ok.inj found]
  · simp at found

/-- A dex swap is parsed from an instruction exactly when its program is a dex and the
parser of the dex finds the swap. -/
theorem parseInstructionInternal_dex_iff (env : Env) (view : IxView T) (swap : DexSwap) :
    parseInstructionInternal env view = .ok (some (.dex swap)) ↔
      ∃ program, view.program = .ok program ∧ Aggregator.isAggregator program = false ∧
        Dex.isAmm program = true ∧ Dex.parse env view program = .ok (some swap) := by
  rw [parseInstructionInternal, Outcome.bind_ok_iff]
  apply exists_congr
  intro program
  apply and_congr_right
  intro _
  by_cases aggregator : Aggregator.isAggregator program = true
  · simp [aggregator, Outcome.bind_ok_iff]
  · by_cases dex : Dex.isAmm program = true
    · simp [aggregator, dex, Outcome.bind_ok_iff]
    · simp [aggregator, dex]

/-- An aggregator swap is parsed only by the parser of its aggregator. -/
theorem parseInstructionInternal_aggregator (env : Env) (view : IxView T)
    (swap : AggregatorSwap)
    (parsed : parseInstructionInternal env view = .ok (some (.aggregator swap))) :
    ∃ program, view.program = .ok program ∧
      Aggregator.parse env view program = .ok (some swap) := by
  rw [parseInstructionInternal, Outcome.bind_ok_iff] at parsed
  obtain ⟨program, known, rest⟩ := parsed
  refine ⟨program, known, ?_⟩
  by_cases aggregator : Aggregator.isAggregator program = true
  · simpa [aggregator, Outcome.bind_ok_iff] using rest
  · by_cases dex : Dex.isAmm program = true
    · simp [aggregator, dex, Outcome.bind_ok_iff] at rest
    · simp [aggregator, dex] at rest

/-- The view of a root instruction of the transaction that is parsed at all. -/
def IsRoot (env : Env) (tx : SolanaTx) (view : IxView StackIx) : Prop :=
  ∃ root ∈ tx.enumerated, ∃ tree,
    (tx.rootInstruction env.profile root.2 root.1 : Outcome WithTrace StackIx) = .ok tree ∧
      isParsed tx tree = true ∧ view = tx.view tree

/-- The views on which a dex parser may be run: the root instructions, and the legs of
the routes that start there. -/
inductive Dispatched (env : Env) (tx : SolanaTx) : IxView StackIx → Prop where
  | root (view : IxView StackIx) : IsRoot env tx view → Dispatched env tx view
  | hop (view : IxView StackIx) (child : StackIx) : IsRoot env tx view → child ∈ view.ix.inner →
      Aggregator.isHop view child = true → Dispatched env tx (view.newCloned child)

/-- The result names the swap, by itself or as a leg of a route. -/
def Reported (swap : DexSwap) (result : List Parsed) : Prop :=
  .dex swap ∈ result ∨
    ∃ aggregator, .aggregator aggregator ∈ result ∧ .decoded swap ∈ aggregator.routes

/-- Whatever a transaction yields was parsed from one of its root instructions. -/
theorem parseTransaction_mem (env : Env) (tx : SolanaTx) (result : List Parsed)
    (ok : parseTransaction env tx = .ok result) (parsed : Parsed) (member : parsed ∈ result) :
    ∃ view, IsRoot env tx view ∧ parseInstructionInternal env view = .ok (some parsed) := by
  obtain ⟨root, listed, found⟩ := Outcome.collectSome_mem _ _ _ ok parsed member
  rw [parseRoot, Outcome.bind_ok_iff] at found
  obtain ⟨tree, built, rest⟩ := found
  by_cases known : isParsed tx tree = true
  · rw [if_pos known, parseInstruction, withTrace, Outcome.mapError_eq_ok] at rest
    exact ⟨tx.view tree, ⟨root, listed, tree, built, known, rfl⟩, rest⟩
  · simp [known] at rest

/-- Every swap that a result names was found by the dex parser for the program of some
instruction on which one is run. -/
theorem reported_dispatched (env : Env) (tx : SolanaTx) (result : List Parsed)
    (ok : parseTransaction env tx = .ok result) (swap : DexSwap)
    (reported : Reported swap result) :
    ∃ view program, Dispatched env tx view ∧ view.program = .ok program ∧
      Dex.parse env view program = .ok (some swap) := by
  rcases reported with alone | ⟨aggregator, member, leg⟩
  · obtain ⟨view, root, parsed⟩ := parseTransaction_mem env tx result ok _ alone
    obtain ⟨program, known, _, _, found⟩ :=
      (parseInstructionInternal_dex_iff env view swap).mp parsed
    exact ⟨view, program, .root view root, known, found⟩
  · obtain ⟨view, root, parsed⟩ := parseTransaction_mem env tx result ok _ member
    obtain ⟨aggregatorProgram, _, found⟩ :=
      parseInstructionInternal_aggregator env view aggregator parsed
    have walked := Aggregator.parse_routes env view aggregatorProgram aggregator found
    obtain ⟨child, listed, decoded⟩ := Outcome.collectSome_mem _ _ _ walked _ leg
    obtain ⟨hop, program, known, parsedLeg⟩ :=
      (Aggregator.routeOf_decoded_iff env view child swap).mp decoded
    exact ⟨view.newCloned child, program, .hop view child root listed hop, known, parsedLeg⟩

/-! ## A pool -/

/-- Libraries that read what the pool below needs: checked transfers, the names of the
token program and of a mint, a log without bytes, and the calls of a transaction that
makes one. -/
def poolLibraries : Env where
  profile := ⟨true⟩
  pubkeyFromStr text :=
    if text = "TokenkegQfeZyiNwAJbNbGKPFXCWuBvf9Ss623VQ5DA" then some Ids.splToken
    else if text = "So11111111111111111111111111111111111111112" then some Ids.nativeMint
    else none
  unpack
    | 12 :: rest =>
      match Borsh.u64.run rest with
      | .ok (amount, [decimals]) => .ok (.transferChecked amount decimals)
      | _ => .error "InvalidInstruction"
    | _ => .error "InvalidInstruction"
  decodeBase64 text := if text = "" then .ok [] else .error "InvalidByte"
  logParser := ⟨fun _ => .ok (.node ⟨0⟩ .nil .nil),
    fun call messages => (messages.drop (call.line + 1)).take 1⟩
  totalsOrder _ _ := default

/-- The record of a vault of the pool. -/
def vaultRecord (accountIndex : UInt8) : TransactionTokenBalance :=
  ⟨accountIndex, "So11111111111111111111111111111111111111112",
    ⟨some ⟨0x3F50624DD2F1A9FC⟩, 6, "1000", "0.001"⟩, "",
    "TokenkegQfeZyiNwAJbNbGKPFXCWuBvf9Ss623VQ5DA"⟩

/-- The user, account 0, pays 100 into one vault of a pool, account 4, and the pool,
account 3, pays 50 out of the other, account 5. -/
def poolTransfers : List CompiledInstruction :=
  [⟨1, [6, 8, 4, 0], [12, 100, 0, 0, 0, 0, 0, 0, 0, 6]⟩,
    ⟨1, [5, 9, 7, 3], [12, 50, 0, 0, 0, 0, 0, 0, 0, 6]⟩]

/-- The account table: the user, who pays the fee, the token program, a program, seven more
keys, and an aggregator. -/
def poolKeys (program : Program) : AccountKeys :=
  ⟨[⟨2⟩, Ids.splToken, program.pubkey, ⟨3⟩, ⟨4⟩, ⟨5⟩, ⟨6⟩, ⟨7⟩, ⟨8⟩, ⟨9⟩, Ids.axiomTrade], [], []⟩

/-- A transaction with one instruction, of a program that lets the pool swap. -/
def poolTx (program : Program) (accounts : List UInt8) (data : Bytes) : SolanaTx where
  instructions := [⟨2, accounts, data⟩]
  accountKeys := poolKeys program
  metadata := ⟨[], [], .ofList [(0, poolTransfers.map (fun ix => ⟨ix, some 2⟩))], [],
    [vaultRecord 4, vaultRecord 5], []⟩

/-- The same instruction as the only leg of an aggregator's route. -/
def routeTx (program : Program) (accounts : List UInt8) (data : Bytes) : SolanaTx where
  instructions := [⟨10, [0, 0], [0]⟩]
  accountKeys := poolKeys program
  metadata := ⟨[], [], .ofList [(0, ⟨⟨2, accounts, data⟩, some 2⟩ ::
    poolTransfers.map (fun ix => ⟨ix, some 3⟩))], [], [vaultRecord 4, vaultRecord 5], []⟩

/-- The instruction at a path, with its calls. -/
def poolTree (path : Path) (accounts : List UInt8) (data : Bytes) : StackIx :=
  ⟨⟨2, accounts, data⟩,
    poolTransfers.mapIdx (fun i ix => ⟨ix, [], path ++ [UInt8.ofNat i]⟩), path⟩

/-- The aggregator's instruction with its route. -/
def routeTree (accounts : List UInt8) (data : Bytes) : StackIx :=
  ⟨⟨10, [0, 0], [0]⟩, [poolTree [0, 0] accounts data], [0]⟩

end Graced
