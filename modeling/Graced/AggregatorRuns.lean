import Graced.AggregatorEvents
import Graced.CallTree
import Graced.Dispatch

/-!
# What aggregators logged and what is reported

An aggregator that logs what it swaps calls itself with the record as data. In the list of
inner instructions these calls stand among all others, at the depth at which they were made.
A parsed transaction reports the net swap of such an aggregator exactly if one of its root
instructions runs the aggregator with a known discriminator, names the user in the place that
belongs to it, and its direct calls, not those further down, log that net swap. Its calls are
those recorded under its position, of which one byte is kept.
-/

namespace Graced

open CallTree Forest

/-- The calls that are looked up for the root instruction at a position: those recorded under
the position, cut down to one byte. Past 256 root instructions these are not its own. -/
def SolanaTx.callsOf (tx : SolanaTx) (position : Nat) : Forest CompiledInstruction :=
  (nest under ((tx.metadata.innerInstructions.get (.ofNat position)).getD [])).map
    IxWithStackHeight.ix

/-- A forest of calls that was listed is recorded as that forest. -/
theorem SolanaTx.callsOf_listing (tx : SolanaTx) (position height : Nat)
    (forest : Forest CompiledInstruction)
    (listed : tx.metadata.innerInstructions.get (.ofNat position) = some (listing height forest)) :
    tx.callsOf position = forest := by
  rw [SolanaTx.callsOf, listed]
  exact nest_listing height forest

/-- The account in a place of an instruction. -/
def SolanaTx.accountAt (tx : SolanaTx) (ix : CompiledInstruction) (place : Nat) : Option Pubkey :=
  ix.accounts[place]?.bind fun index => tx.accountKeys.get index.toNat

/-- The payloads that a program logged with calls to itself, among some calls. -/
def loggedBy (keys : AccountKeys) (program : Program) (calls : List CompiledInstruction) :
    List Bytes :=
  (calls.filter fun call => keys.get call.programIdIndex.toNat = some program.pubkey).filterMap
    fun call => anchorEventCpiFilter call.data

/-- The direct calls of a placed forest are its roots. -/
theorem map_ix_place {α : Type} (ixOf : α → CompiledInstruction) (path : Path) (first : Nat)
    (forest : Forest α) :
    (place ixOf path first forest).map StackIx.ix = (forest.map ixOf).roots := by
  induction forest generalizing first with
  | nil => rfl
  | node value children siblings _ later => rw [place, List.map_cons, later]; rfl

/-- The tree of a root instruction, once it is built. -/
theorem SolanaTx.rootInstruction_ok {ε : Type} (tx : SolanaTx) (profile : Profile)
    (position : Nat) (root : CompiledInstruction) (tree : StackIx)
    (built : (tx.rootInstruction profile position root : Outcome ε StackIx) = .ok tree) :
    tree.ix = root ∧ tree.inner.map StackIx.ix = (tx.callsOf position).roots := by
  rw [SolanaTx.rootInstruction, buildIxStack_eq] at built
  split at built
  · simp at built
  · obtain rfl := Outcome.ok.inj built
    exact ⟨rfl, map_ix_place _ _ _ _⟩

namespace Aggregator

/-- The log of an instruction depends on its direct calls only. -/
theorem cpiData_eq (view : IxView StackIx) (program : Program) :
    cpiData view program = loggedBy view.keys program (view.ix.inner.map StackIx.ix) := by
  change filterCpiLogsData view.keys program.pubkey view.ix.inner = _
  rw [filterCpiLogsData, loggedBy, List.filter_map, List.filterMap_map, List.filterMap_filter]
  congr 1
  funext call
  change ((view.keys.get call.ix.programIdIndex.toNat).bind fun id => _) = _
  cases found : view.keys.get call.ix.programIdIndex.toNat with
  | none => simp [found]
  | some id =>
    by_cases own : id = program.pubkey
    · simp [found, own, SolanaInstruction.data, Except.toOption]
    · simp [found, own]

/-- An aggregator swap comes from a header, the routes, and the net swap of the header. -/
theorem parse_some_iff (env : Env) (view : IxView StackIx) (program : Program)
    (swap : AggregatorSwap) :
    parse env view program = .ok (some swap) ↔
      ∃ found, header env view program = .ok (some found) ∧
        aggregatorRoutes env view = .ok swap.routes ∧ found.netSwap swap.routes = .ok swap.swap ∧
        found.program = swap.program ∧ found.user = swap.user := by
  rw [parse, Outcome.bind_ok_iff]
  constructor
  · rintro ⟨_ | found, headed, rest⟩
    · simp at rest
    · obtain ⟨routes, walked, netted⟩ := (Outcome.bind_ok_iff _ _ _).mp rest
      obtain ⟨net, same, kept⟩ := (Outcome.bind_ok_iff _ _ _).mp netted
      obtain rfl := Option.some.inj (Outcome.ok.inj kept)
      exact ⟨found, headed, walked, same, rfl, rfl⟩
  · rintro ⟨found, headed, walked, netted, sameProgram, sameUser⟩
    refine ⟨some found, headed, ?_⟩
    simp [walked, netted, sameProgram, sameUser]

/-- The aggregators that log what they swap. -/
inductive Logger where
  | dflow
  | jupiter
  | okx
deriving DecidableEq, Repr

namespace Logger

def program : Logger → Program
  | dflow => .dflowAgg
  | jupiter => .jupV6
  | okx => .okxDexRouter2

/-- The place of the user in an instruction with this discriminator, if it is a known one. -/
def userPlace : Logger → Bytes → Option Nat
  | dflow, disc => if disc ∈ dflowDiscs then some 3 else none
  | jupiter, disc => jupiterUser disc
  | okx, disc => if disc ∈ okxDiscs then some 0 else none

/-- What a log tells as the net swap. Jupiter has to log at least one swap; Dflow and OKX may
be silent. -/
def Tells (env : Env) (payloads : List Bytes) (net : Outcome ParseError (Option Swap)) :
    Logger → Prop
  | dflow => ∃ told, List.Forall₂ (TellsLeg DflowSilent) payloads told ∧
      net = netOfSwaps env (told.filterMap id)
  | jupiter => ∃ swaps, TellsSwaps [] payloads swaps ∧ swaps ≠ [] ∧ net = netOfSwaps env swaps
  | okx => (∀ payload ∈ payloads, OkxSilent payload) ∧ net = .ok none ∨
      ∃ before payload after s, payloads = before ++ payload :: after ∧
        (∀ earlier ∈ before, OkxSilent earlier) ∧ TellsNet payload s ∧ net = .ok (some s)

/-- The id of an aggregator is the one under which it is listed. -/
theorem ofPubkey_program (logger : Logger) :
    Program.ofPubkey logger.program.pubkey = logger.program := by
  cases logger <;> rfl

theorem isAggregator_program (logger : Logger) : isAggregator logger.program = true := by
  cases logger <;> rfl

theorem not_disallowed (logger : Logger) : disallowed.contains logger.program.pubkey = false := by
  cases logger <;> decide

/-- A known discriminator has eight bytes. -/
theorem length_of_userPlace (logger : Logger) (disc : Bytes) (place : Nat)
    (known : logger.userPlace disc = some place) : disc.length = 8 := by
  cases logger with
  | dflow =>
    simp only [userPlace, Option.ite_none_right_eq_some] at known
    exact (by decide : ∀ disc ∈ dflowDiscs, disc.length = 8) disc known.1
  | jupiter =>
    simp only [userPlace, jupiterUser] at known
    split_ifs at known <;> simp [*]
  | okx =>
    simp only [userPlace, Option.ite_none_right_eq_some] at known
    exact (by decide : ∀ disc ∈ okxDiscs, disc.length = 8) disc known.1

end Logger

/-- The view of an instruction of a known program, before its accounts are read. -/
theorem accounts_eq (view : IxView StackIx) (id : Pubkey)
    (runs : view.keys.get view.ix.ix.programIdIndex.toNat = some id) :
    view.accounts = .ok ⟨view.keys, view.ix.ix.accounts, 0, id⟩ := by
  change (Outcome.ofExcept (InstructionAccounts.new view.keys view.ix.ix.accounts
    view.ix.ix.programIdIndex)).mapError ParseError.keyTransversal = _
  rw [InstructionAccounts.new, runs]
  rfl

/-- A place is read exactly if the instruction has it and its account is in the table. -/
theorem peek_ok_iff (keys : AccountKeys) (indices : List UInt8) (id : Pubkey) (place : Nat)
    (user : Pubkey) :
    peek ⟨keys, indices, 0, id⟩ place = .ok user ↔
      (indices[place]?.bind fun index => keys.get index.toNat) = some user := by
  rw [peek, Outcome.mapError_eq_ok, Outcome.ofExcept_eq_ok, InstructionAccounts.peek, Nat.zero_add]
  cases indices[place]? with
  | none => simp
  | some index => cases found : keys.get index.toNat <;> simp [found]

/-- What is read of a log, as an outcome of the parser. -/
theorem borsh_ok_iff {α : Type} (read : Except String α) (value : α) :
    (Outcome.ofExcept read).mapError ParseError.borshDeserialize = .ok value ↔
      read = .ok value := by
  rw [Outcome.mapError_eq_ok, Outcome.ofExcept_eq_ok]

theorem dflow_some_iff (env : Env) (view : IxView StackIx) (id : Pubkey) (found : Header)
    (runs : view.keys.get view.ix.ix.programIdIndex.toNat = some id) :
    dflow env view = .ok (some found) ↔
      ∃ place user net, Logger.dflow.userPlace (view.ix.ix.data.take 8) = some place ∧
        (view.ix.ix.accounts[place]?.bind fun index => view.keys.get index.toNat) = some user ∧
        Logger.dflow.Tells env (cpiData view .dflowAgg) net ∧
        found = ⟨.dflowAgg, user, fun _ => net⟩ := by
  have data : view.data = .ok view.ix.ix.data := rfl
  rw [dflow, data, Outcome.ok_bind]
  by_cases known : view.ix.ix.data.take 8 ∈ dflowDiscs
  · have place : Logger.dflow.userPlace (view.ix.ix.data.take 8) = some 3 := if_pos known
    have length := Logger.length_of_userPlace _ _ _ place
    rw [List.length_take] at length
    have goesOn : ¬ (view.ix.ix.data.length < 8 ∨ view.ix.ix.data.take 8 ∉ dflowDiscs) :=
      not_or.mpr ⟨by omega, not_not.mpr known⟩
    rw [if_neg goesOn, accounts_eq view id runs, Outcome.ok_bind, Outcome.bind_ok_iff]
    simp only [place, Outcome.bind_ok_iff, peek_ok_iff, borsh_ok_iff, dflowSwaps_iff,
      Logger.Tells, Outcome.pure_eq, Outcome.ok.injEq, Option.some.injEq]
    constructor
    · rintro ⟨user, named, swaps, ⟨told, each, rfl⟩, rfl⟩
      exact ⟨3, user, _, rfl, named, ⟨told, each, rfl⟩, rfl⟩
    · rintro ⟨_, user, net, rfl, named, ⟨told, each, rfl⟩, rfl⟩
      exact ⟨user, named, _, ⟨told, each, rfl⟩, rfl⟩
  · have unknown : Logger.dflow.userPlace (view.ix.ix.data.take 8) = none := if_neg known
    simp [known, unknown]

theorem jupiter_some_iff (env : Env) (view : IxView StackIx) (id : Pubkey) (found : Header)
    (runs : view.keys.get view.ix.ix.programIdIndex.toNat = some id) :
    jupiter env view = .ok (some found) ↔
      ∃ place user net, Logger.jupiter.userPlace (view.ix.ix.data.take 8) = some place ∧
        (view.ix.ix.accounts[place]?.bind fun index => view.keys.get index.toNat) = some user ∧
        Logger.jupiter.Tells env (cpiData view .jupV6) net ∧
        found = ⟨.jupV6, user, fun _ => net⟩ := by
  have data : view.data = .ok view.ix.ix.data := rfl
  rw [jupiter, data, Outcome.ok_bind]
  cases known : Logger.jupiter.userPlace (view.ix.ix.data.take 8) with
  | none =>
    have unknown : jupiterUser (view.ix.ix.data.take 8) = none := known
    simp [unknown, accounts_eq view id runs]
  | some place =>
    have length := Logger.length_of_userPlace _ _ _ known
    rw [List.length_take] at length
    have place : jupiterUser (view.ix.ix.data.take 8) = some place := known
    rw [if_neg (by omega), accounts_eq view id runs, Outcome.ok_bind, place]
    simp only [Outcome.bind_ok_iff, peek_ok_iff, borsh_ok_iff, jupiterSwaps_iff, Logger.Tells,
      Option.some.injEq]
    constructor
    · rintro ⟨user, named, swaps, tells, rest⟩
      cases swaps with
      | nil => simp at rest
      | cons first others =>
        exact ⟨_, user, _, rfl, named, ⟨first :: others, tells, by simp, rfl⟩,
          (Option.some.inj (Outcome.ok.inj rest)).symm⟩
    · rintro ⟨_, user, net, rfl, named, ⟨swaps, tells, nonempty, rfl⟩, rfl⟩
      refine ⟨user, named, swaps, tells, ?_⟩
      simp [nonempty]

theorem okx_some_iff (env : Env) (view : IxView StackIx) (id : Pubkey) (found : Header)
    (runs : view.keys.get view.ix.ix.programIdIndex.toNat = some id) :
    okxRouter view = .ok (some found) ↔
      ∃ place user net, Logger.okx.userPlace (view.ix.ix.data.take 8) = some place ∧
        (view.ix.ix.accounts[place]?.bind fun index => view.keys.get index.toNat) = some user ∧
        Logger.okx.Tells env (cpiData view .okxDexRouter2) net ∧
        found = ⟨.okxDexRouter2, user, fun _ => net⟩ := by
  have data : view.data = .ok view.ix.ix.data := rfl
  rw [okxRouter, data, Outcome.ok_bind]
  by_cases known : view.ix.ix.data.take 8 ∈ okxDiscs
  · have place : Logger.okx.userPlace (view.ix.ix.data.take 8) = some 0 := if_pos known
    have length := Logger.length_of_userPlace _ _ _ place
    rw [List.length_take] at length
    rw [if_neg (by omega), accounts_eq view id runs, Outcome.ok_bind, if_neg (not_not.mpr known)]
    simp only [place, Outcome.bind_ok_iff, peek_ok_iff, borsh_ok_iff, okxSwap_iff,
      Logger.Tells, Outcome.pure_eq, Outcome.ok.injEq, Option.some.injEq]
    constructor
    · rintro ⟨user, named, swap, tells, rfl⟩
      exact ⟨0, user, .ok swap, rfl, named, by simpa using tells, rfl⟩
    · rintro ⟨_, user, net, rfl, named, tells, rfl⟩
      rcases tells with ⟨silent, rfl⟩ | ⟨before, payload, after, s, split, silent, tells, rfl⟩
      · exact ⟨user, named, none, .inl ⟨silent, rfl⟩, rfl⟩
      · exact ⟨user, named, some s,
          .inr ⟨before, payload, after, s, split, silent, tells, rfl⟩, rfl⟩
  · have unknown : Logger.okx.userPlace (view.ix.ix.data.take 8) = none := if_neg known
    simp [known, unknown, accounts_eq view id runs]

/-- Whatever header comes out has the label. -/
def Labelled (program : Program) (headed : Outcome ParseError (Option Header)) : Prop :=
  ∀ found, headed = .ok (some found) → found.program = program

theorem labelled_none (program : Program) : Labelled program (.ok none) := by simp [Labelled]

theorem labelled_some (user : Pubkey) (program : Program)
    (netSwap : List Route → Outcome ParseError (Option Swap)) :
    Labelled program (.ok (some ⟨program, user, netSwap⟩)) := by
  intro found same
  obtain rfl := Option.some.inj (Outcome.ok.inj same)
  rfl

theorem labelled_bind {α : Type} (program : Program) (outcome : Outcome ParseError α)
    (next : α → Outcome ParseError (Option Header))
    (each : ∀ value, Labelled program (next value)) : Labelled program (outcome >>= next) := by
  intro found headed
  obtain ⟨value, _, rest⟩ := (Outcome.bind_ok_iff _ _ _).mp headed
  exact each value found rest

/-- A header is labelled with the program whose parser wrote it. -/
theorem header_labelled (env : Env) (view : IxView StackIx) (program : Program) :
    Labelled program (header env view program) := by
  cases program <;> try exact labelled_none _
  case axiomTrade =>
    refine labelled_bind _ _ _ fun data => ?_
    split
    · exact labelled_bind _ _ _ fun accs => labelled_bind _ _ _ fun _ =>
        labelled_bind _ _ _ fun user => labelled_some user _ _
    · exact labelled_none _
  case dflowAgg =>
    refine labelled_bind _ _ _ fun data => ?_
    split
    · exact labelled_none _
    · exact labelled_bind _ _ _ fun accs => labelled_bind _ _ _ fun user =>
        labelled_bind _ _ _ fun swaps => labelled_some user _ _
  case jupV6 =>
    refine labelled_bind _ _ _ fun data => ?_
    split
    · exact labelled_none _
    · refine labelled_bind _ _ _ fun accs => ?_
      split
      · exact labelled_none _
      · refine labelled_bind _ _ _ fun user => labelled_bind _ _ _ fun swaps => ?_
        split
        · exact labelled_none _
        · exact labelled_some user _ _
  case okxDexRouter2 =>
    refine labelled_bind _ _ _ fun data => ?_
    split
    · exact labelled_none _
    · refine labelled_bind _ _ _ fun accs => ?_
      split
      · exact labelled_none _
      · exact labelled_bind _ _ _ fun user => labelled_bind _ _ _ fun swap =>
          labelled_some user _ _
  case titanExchangeRouter =>
    refine labelled_bind _ _ _ fun data => labelled_bind _ _ _ fun accs => ?_
    split
    · exact labelled_bind _ _ _ fun user => labelled_some user _ _
    · split
      · exact labelled_bind _ _ _ fun user => labelled_some user _ _
      · exact labelled_none _

/-- What such an aggregator's parser knows before it looks at the routes: the user, and the net
swap that its log tells. -/
theorem header_some_iff (env : Env) (view : IxView StackIx) (logger : Logger) (found : Header)
    (runs : view.keys.get view.ix.ix.programIdIndex.toNat = some logger.program.pubkey) :
    header env view logger.program = .ok (some found) ↔
      ∃ place user net, logger.userPlace (view.ix.ix.data.take 8) = some place ∧
        (view.ix.ix.accounts[place]?.bind fun index => view.keys.get index.toNat) = some user ∧
        logger.Tells env (cpiData view logger.program) net ∧
        found = ⟨logger.program, user, fun _ => net⟩ := by
  cases logger with
  | dflow => exact dflow_some_iff env view _ found runs
  | jupiter => exact jupiter_some_iff env view _ found runs
  | okx => exact okx_some_iff env view _ found runs

end Aggregator

/-- A parsed transaction has evaluated every root instruction, and kept what was found. -/
theorem parsed_root (env : Env) (tx : SolanaTx) (parsed : List Parsed)
    (success : parseTransaction env tx = .ok parsed) (position : Nat) (root : CompiledInstruction)
    (listed : tx.instructions[position]? = some root) :
    ∃ yielded, parseRoot env tx (root, position) = .ok yielded ∧
      ∀ result, yielded = some result → result ∈ parsed := by
  obtain ⟨evaluated, kept⟩ := Outcome.collectSome_eq_filterMap _ _ _ success
  have member : (root, position) ∈ tx.enumerated := List.mem_zipIdx_iff_getElem?.mpr listed
  obtain ⟨yielded, atRoot⟩ := evaluated _ member
  refine ⟨yielded, atRoot, ?_⟩
  rintro result rfl
  rw [kept]
  exact List.mem_filterMap.mpr ⟨_, member, by rw [atRoot]; rfl⟩

/-- What is kept was found in a root instruction. -/
theorem parsed_from_root (env : Env) (tx : SolanaTx) (parsed : List Parsed)
    (success : parseTransaction env tx = .ok parsed) (result : Parsed) (kept : result ∈ parsed) :
    ∃ position root, tx.instructions[position]? = some root ∧
      parseRoot env tx (root, position) = .ok (some result) := by
  obtain ⟨⟨root, position⟩, member, found⟩ := Outcome.collectSome_mem _ _ _ success result kept
  exact ⟨position, root, List.mem_zipIdx_iff_getElem?.mp member, found⟩

namespace Aggregator

/-- A root instruction that runs such an aggregator is parsed by the aggregator's parser. -/
theorem parseRoot_aggregator (env : Env) (tx : SolanaTx) (position : Nat)
    (root : CompiledInstruction) (logger : Logger)
    (runs : tx.accountKeys.get root.programIdIndex.toNat = some logger.program.pubkey)
    (tree : StackIx) (built : (tx.rootInstruction env.profile position root :
      Outcome WithTrace StackIx) = .ok tree) (yielded : Option Parsed) :
    parseRoot env tx (root, position) = .ok yielded ↔
      ∃ found, parse env (tx.view tree) logger.program = .ok found ∧
        found.map Parsed.aggregator = yielded := by
  have sameIx := (tx.rootInstruction_ok env.profile position root tree built).1
  have inTable : tx.accountKeys.get (SolanaInstruction.programId tree).toNat =
      some logger.program.pubkey := by
    change tx.accountKeys.get tree.ix.programIdIndex.toNat = _
    rw [sameIx, runs]
  have isKnown : isParsed tx tree = true := by
    rw [isParsed, inTable]
    simpa using logger.not_disallowed
  have inView : (tx.view tree).keys.get (SolanaInstruction.programId (tx.view tree).ix).toNat =
      some logger.program.pubkey := inTable
  have known : (tx.view tree).program = .ok logger.program := by
    simp [IxView.program, IxView.programId, inView, logger.ofPubkey_program]
  rw [parseRoot, built, Outcome.ok_bind, if_pos isKnown, parseInstruction, withTrace,
    Outcome.mapError_eq_ok, parseInstructionInternal, known, Outcome.ok_bind,
    if_pos logger.isAggregator_program, Outcome.bind_ok_iff]
  simp only [Outcome.pure_eq, Outcome.ok.injEq]

/-- An aggregator swap under the label of such an aggregator was parsed from a root instruction
that runs it. -/
theorem parseRoot_logger (env : Env) (tx : SolanaTx) (position : Nat)
    (root : CompiledInstruction) (logger : Logger) (swap : AggregatorSwap)
    (label : swap.program = logger.program)
    (found : parseRoot env tx (root, position) = .ok (some (.aggregator swap))) :
    tx.accountKeys.get root.programIdIndex.toNat = some logger.program.pubkey := by
  rw [parseRoot, Outcome.bind_ok_iff] at found
  obtain ⟨tree, built, rest⟩ := found
  by_cases known : isParsed tx tree = true
  · rw [if_pos known, parseInstruction, withTrace, Outcome.mapError_eq_ok] at rest
    obtain ⟨program, ofView, parsed⟩ := parseInstructionInternal_aggregator env _ swap rest
    obtain ⟨header, headed, _, _, sameProgram, _⟩ := (parse_some_iff env _ program swap).mp parsed
    obtain rfl : program = logger.program := by
      rw [← label, ← sameProgram, header_labelled env _ program header headed]
    obtain ⟨id, inTable, same⟩ := program_known _ _ ofView
    rw [← same, Program.pubkey_ofPubkey, ← inTable,
      ← (tx.rootInstruction_ok env.profile position root tree built).1]
    rfl
  · simp [known] at rest

/-- A parsed transaction reports a net swap of an aggregator exactly if a root instruction runs
the aggregator with a known discriminator, for that user, and the direct calls that are looked
up for it log that swap. -/
theorem logged_swap_iff (env : Env) (tx : SolanaTx) (parsed : List Parsed)
    (success : parseTransaction env tx = .ok parsed) (logger : Logger) (user : Pubkey)
    (net : Option Swap) :
    (∃ routes, .aggregator ⟨logger.program, user, net, routes⟩ ∈ parsed) ↔
      ∃ position root place, tx.instructions[position]? = some root ∧
        tx.accountKeys.get root.programIdIndex.toNat = some logger.program.pubkey ∧
        logger.userPlace (root.data.take 8) = some place ∧ tx.accountAt root place = some user ∧
        logger.Tells env
          (loggedBy tx.accountKeys logger.program (tx.callsOf position).roots) (.ok net) := by
  have viewed (position : Nat) (root : CompiledInstruction) (tree : StackIx)
      (built : (tx.rootInstruction env.profile position root : Outcome WithTrace StackIx) =
        .ok tree) :
      (tx.view tree).ix.ix = root ∧ cpiData (tx.view tree) logger.program =
        loggedBy tx.accountKeys logger.program (tx.callsOf position).roots := by
    obtain ⟨sameIx, sameCalls⟩ := tx.rootInstruction_ok env.profile position root tree built
    refine ⟨sameIx, ?_⟩
    rw [cpiData_eq, ← sameCalls]
    rfl
  constructor
  · rintro ⟨routes, kept⟩
    obtain ⟨position, root, listed, found⟩ := parsed_from_root env tx parsed success _ kept
    have runs := parseRoot_logger env tx position root logger _ rfl found
    obtain ⟨tree, built, _⟩ := (Outcome.bind_ok_iff _ _ _).mp found
    obtain ⟨sameIx, sameLog⟩ := viewed position root tree built
    obtain ⟨swap, parsedRoot, same⟩ :=
      (parseRoot_aggregator env tx position root logger runs tree built _).mp found
    obtain ⟨_, rfl, sameSwap⟩ := Option.map_eq_some_iff.mp same
    obtain rfl := Parsed.aggregator.inj sameSwap
    obtain ⟨header, headed, _, netted, _, sameUser⟩ := (parse_some_iff env _ _ _).mp parsedRoot
    obtain ⟨place, other, told, known, named, tells, rfl⟩ := (header_some_iff env _ logger header
      (by rw [sameIx]; exact runs)).mp headed
    obtain rfl : other = user := sameUser
    obtain rfl : told = .ok net := netted
    rw [sameLog] at tells
    rw [sameIx] at known named
    exact ⟨position, root, place, listed, runs, known, named, tells⟩
  · rintro ⟨position, root, place, listed, runs, known, named, tells⟩
    obtain ⟨yielded, found, kept⟩ := parsed_root env tx parsed success position root listed
    obtain ⟨tree, built, rest⟩ := (Outcome.bind_ok_iff _ _ _).mp found
    obtain ⟨sameIx, sameLog⟩ := viewed position root tree built
    have headed : header env (tx.view tree) logger.program =
        .ok (some ⟨logger.program, user, fun _ => .ok net⟩) := by
      refine (header_some_iff env _ logger _ (by rw [sameIx]; exact runs)).mpr
        ⟨place, user, .ok net, ?_, ?_, ?_, rfl⟩
      · rw [sameIx, known]
      · rw [sameIx]
        exact named
      · rw [sameLog]
        exact tells
    obtain ⟨swap, parsedRoot, rfl⟩ :=
      (parseRoot_aggregator env tx position root logger runs tree built _).mp found
    rw [parse, headed, Outcome.ok_bind, Outcome.bind_ok_iff] at parsedRoot
    obtain ⟨routes, _, same⟩ := parsedRoot
    obtain rfl := Outcome.ok.inj same
    exact ⟨routes, kept _ rfl⟩

/-- A call with which a program logs a leg. -/
def loggingCall (s : Swap) : CompiledInstruction :=
  ⟨1, [], eventIxTagLe ++ (Dex.swapEventDisc ++ (List.replicate 32 0 ++ swapBytes s ++ []))⟩

/-- The aggregator logs one leg by itself, and another from within a call. -/
def loggingCalls : Forest CompiledInstruction :=
  .node (loggingCall ⟨100, 50, ⟨7⟩, ⟨8⟩⟩) .nil
    (.node ⟨2, [], []⟩ (.node (loggingCall ⟨9, 9, ⟨8⟩, ⟨9⟩⟩) .nil .nil) .nil)

/-- A Dflow swap with these calls. -/
def loggingRoute : SolanaTx where
  instructions := [⟨1, [0, 0, 0, 0], [248, 198, 158, 145, 225, 117, 135, 200]⟩]
  accountKeys := ⟨[⟨2⟩, Ids.dflowAgg, ⟨3⟩], [], []⟩
  metadata := ⟨[], [], .ofList [(0, listing 1 loggingCalls)], [], [], []⟩

/-- What is reported for it. -/
def loggedRoute : AggregatorSwap :=
  ⟨.dflowAgg, ⟨2⟩, some ⟨100, 50, ⟨7⟩, ⟨8⟩⟩, [.undecoded (.unknown ⟨3⟩) [0, 1] []]⟩

theorem loggingRoute_parsed :
    parseTransaction poolLibraries loggingRoute = .ok [.aggregator loggedRoute] := by
  decide +kernel

/-- Only the leg that the aggregator logged by itself counts. -/
theorem logged_swap_of_dflow :
    ∃ routes, .aggregator ⟨.dflowAgg, ⟨2⟩, some ⟨100, 50, ⟨7⟩, ⟨8⟩⟩, routes⟩ ∈
      [Parsed.aggregator loggedRoute] := by
  have calls : loggingRoute.callsOf 0 = loggingCalls :=
    loggingRoute.callsOf_listing 0 1 loggingCalls rfl
  have log : loggedBy loggingRoute.accountKeys .dflowAgg loggingCalls.roots =
      [Dex.swapEventDisc ++ (List.replicate 32 0 ++ swapBytes ⟨100, 50, ⟨7⟩, ⟨8⟩⟩ ++ [])] := by
    decide +kernel
  refine (logged_swap_iff poolLibraries loggingRoute _ loggingRoute_parsed .dflow ⟨2⟩
    (some ⟨100, 50, ⟨7⟩, ⟨8⟩⟩)).mpr ⟨0, _, 3, rfl, rfl, rfl, rfl, ?_⟩
  rw [calls]
  change Logger.Tells poolLibraries (loggedBy loggingRoute.accountKeys .dflowAgg _) _ _
  rw [log]
  exact ⟨[some ⟨100, 50, ⟨7⟩, ⟨8⟩⟩],
    .cons (.leg (List.replicate 32 0) [] _ rfl) .nil, rfl⟩

end Aggregator

end Graced
