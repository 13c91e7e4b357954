import Graced.ErrorTraces
import Graced.Ledger
import Graced.RouteLinks
import Graced.RoutePasses

/-!
# What stops the parser

A panic anywhere in a transaction is a panic of the whole. In a build without overflow checks
the call trees are always built, routes are always netted, and the aggregator parsers look up
their accounts with errors. What is left are the dex parsers, which index: the parser of a
transaction stops exactly at a root instruction that is reached and that its dex parser
stops at, or at a leg of its route that is reached and that the parser of its dex stops at.
-/

namespace Graced

/-- While the root instruction at a position is parsed, the parser of the dex that the viewed
instruction runs stops: at the root instruction itself, or at a leg of its route that is
reached. -/
inductive StopsAt (env : Env) (tx : SolanaTx) (position : Nat) :
    IxView StackIx → Program → Prop where
  | root (view : IxView StackIx) (program : Program) :
      Reached env tx position view → view.program = .ok program →
      Aggregator.isAggregator program = false → Dex.isAmm program = true →
      Dex.parse env view program = .panic → StopsAt env tx position view program
  | hop (view : IxView StackIx) (aggregator : Program) (header : Aggregator.Header)
      (before after : List StackIx) (child : StackIx) (program : Program) :
      Reached env tx position view → view.program = .ok aggregator →
      Aggregator.isAggregator aggregator = true →
      Aggregator.header env view aggregator = .ok (some header) →
      view.ix.inner = before ++ child :: after →
      (∀ earlier ∈ before, ∃ yielded, Aggregator.routeOf env view earlier = .ok yielded) →
      Aggregator.isHop view child = true → (view.newCloned child).program = .ok program →
      Dex.parse env (view.newCloned child) program = .panic →
      StopsAt env tx position (view.newCloned child) program

namespace Halts

universe u
variable {ε : Type u} {profile : Profile}

/-! ## Builds without overflow checks -/

section Unchecked

variable (unchecked : profile.overflowChecks = false)
include unchecked

/-- The call tree of a root instruction is always built. -/
theorem rootInstruction_returns (tx : SolanaTx) (position : Nat) (ix : CompiledInstruction) :
    (tx.rootInstruction profile position ix : Outcome ε StackIx) ≠ .panic := by
  simp [SolanaTx.rootInstruction, CallTree.buildIxStack_eq, unchecked]

/-- A list of swaps is netted, or an error. -/
theorem graphSwap_returns (swaps : List Swap) : SwapGraph.swap profile ⟨swaps⟩ ≠ .panic := by
  cases swaps with
  | nil => simp [SwapGraph.swap]
  | cons first rest =>
    rw [SwapGraph.swap_ne_panic_iff profile (first :: rest) (List.cons_ne_nil first rest)]
    intro checks
    rw [unchecked] at checks
    cases checks

/-- Something or nothing is known of every leg. -/
theorem shapes_returns (orders : Nat → IterationOrder Pubkey UInt64) (routes : List Route) :
    Routes.shapes profile orders routes ≠ .panic := by
  intro panics
  obtain ⟨⟨route, index⟩, _, atLeg⟩ := Outcome.collect_panic _ _ panics
  cases route with
  | decoded dex => cases atLeg
  | undecoded program path transfers =>
    rcases (Outcome.bind_panic_iff _ _).mp atLeg with sums | ⟨sums, _, chosen⟩
    · exact RouteLinks.totals_unchecked profile unchecked _ _ sums
    · split at chosen <;> cases chosen

/-- Every route is netted, or an error. -/
theorem routesSwap_returns (orders : Nat → IterationOrder Pubkey UInt64) (routes : List Route) :
    Routes.swap profile orders routes ≠ .panic := by
  rw [Routes.swap, Outcome.bind_ne_panic_iff]
  constructor
  · unfold Routes.swaps
    split
    · rw [Routes.toSwaps, Outcome.bind_ne_panic_iff]
      exact ⟨shapes_returns unchecked orders routes, fun shapes _ =>
        Routes.knownSwaps_ne_panic _⟩
    · simp
  · intro swaps _
    rw [ne_eq, Outcome.mapError_eq_panic]
    exact graphSwap_returns unchecked swaps

end Unchecked

/-! ## Aggregators -/

/-- A header is looked for without a panic, and so is the net swap that it announces. -/
def Returns (headed : Outcome ParseError (Option Aggregator.Header)) : Prop :=
  headed ≠ .panic ∧
    ∀ header, headed = .ok (some header) → ∀ routes, header.netSwap routes ≠ .panic

theorem returns_none : Returns (.ok none) := by simp [Returns]

theorem returns_some (header : Aggregator.Header)
    (netSwap : ∀ routes, header.netSwap routes ≠ .panic) : Returns (.ok (some header)) := by
  refine ⟨by simp, fun found same => ?_⟩
  obtain rfl := Option.some.inj (Outcome.ok.inj same)
  exact netSwap

theorem returns_bind {α : Type} (outcome : Outcome ParseError α)
    (next : α → Outcome ParseError (Option Aggregator.Header)) (returns : outcome ≠ .panic)
    (each : ∀ value, Returns (next value)) : Returns (outcome >>= next) := by
  refine ⟨(Outcome.bind_ne_panic_iff _ _).mpr ⟨returns, fun value _ => (each value).1⟩, ?_⟩
  intro header headed
  obtain ⟨value, _, rest⟩ := (Outcome.bind_ok_iff _ _ _).mp headed
  exact (each value).2 header rest

/-- An account that an aggregator looks up is there or an error. -/
theorem peek_returns (accs : InstructionAccounts) (position : Nat) :
    Aggregator.peek accs position ≠ .panic := by
  simp [Aggregator.peek, Outcome.mapError_eq_panic]

/-- Neither the headers of the aggregators nor their net swaps stop the parser. -/
theorem header_returns (env : Env) (unchecked : env.profile.overflowChecks = false)
    (view : IxView StackIx) (program : Program) :
    Returns (Aggregator.header env view program) := by
  have ofRoutes (routes : List Route) : Aggregator.netOfRoutes env view routes ≠ .panic := by
    rw [Aggregator.netOfRoutes, ne_eq, Outcome.discard_eq_panic]
    exact routesSwap_returns unchecked _ routes
  have ofSwaps (swaps : List Swap) : Aggregator.netOfSwaps env swaps ≠ .panic := by
    rw [Aggregator.netOfSwaps, ne_eq, Outcome.discard_eq_panic]
    exact graphSwap_returns unchecked swaps
  have data := IxView.data_ne_panic view
  have accounts := IxView.accounts_ne_panic view
  cases program <;> try exact returns_none
  case axiomTrade =>
    apply returns_bind _ _ data
    intro data
    split
    · apply returns_bind _ _ accounts
      intro accs
      apply returns_bind _ _ (peek_returns accs 0)
      intro _
      apply returns_bind _ _ (peek_returns accs 1)
      intro user
      exact returns_some _ ofRoutes
    · exact returns_none
  case dflowAgg =>
    apply returns_bind _ _ data
    intro data
    split
    · exact returns_none
    · apply returns_bind _ _ accounts
      intro accs
      apply returns_bind _ _ (peek_returns accs 3)
      intro user
      apply returns_bind _ _ (by simp [Outcome.mapError_eq_panic])
      intro swaps
      exact returns_some _ (fun _ => ofSwaps swaps)
  case jupV6 =>
    apply returns_bind _ _ data
    intro data
    split
    · exact returns_none
    · apply returns_bind _ _ accounts
      intro accs
      split
      · exact returns_none
      · rename_i position _
        apply returns_bind _ _ (peek_returns accs position)
        intro user
        apply returns_bind _ _ (by simp [Outcome.mapError_eq_panic])
        intro swaps
        split
        · exact returns_none
        · exact returns_some _ (fun _ => ofSwaps swaps)
  case okxDexRouter2 =>
    apply returns_bind _ _ data
    intro data
    split
    · exact returns_none
    · apply returns_bind _ _ accounts
      intro accs
      split
      · exact returns_none
      · apply returns_bind _ _ (peek_returns accs 0)
        intro user
        apply returns_bind _ _ (by simp [Outcome.mapError_eq_panic])
        intro found
        exact returns_some _ (by simp)
  case titanExchangeRouter =>
    apply returns_bind _ _ data
    intro data
    apply returns_bind _ _ accounts
    intro accs
    split
    · apply returns_bind _ _ (peek_returns accs 0)
      intro user
      exact returns_some _ ofRoutes
    · split
      · apply returns_bind _ _ (peek_returns accs 1)
        intro user
        exact returns_some _ ofRoutes
      · exact returns_none

/-! ## Instructions -/

/-- A leg stops the parser exactly if it is one that the parser of its dex stops at. -/
theorem routeOf_panic_iff (env : Env) (view : IxView StackIx) (ix : StackIx) :
    Aggregator.routeOf env view ix = .panic ↔
      Aggregator.isHop view ix = true ∧ ∃ program, (view.newCloned ix).program = .ok program ∧
        Dex.parse env (view.newCloned ix) program = .panic := by
  by_cases hop : Aggregator.isHop view ix = true
  · obtain ⟨program, known⟩ := Aggregator.isHop_program view ix hop
    simp only [Aggregator.routeOf, hop, if_true, known, Outcome.ok_bind, true_and, Outcome.ok.injEq,
      exists_eq_left']
    cases Dex.parse env (view.newCloned ix) program with
    | ok found => cases found <;> simp
    | err | panic => simp
  · simp [Aggregator.routeOf, hop]

/-- A dex parser that stops stops the parser of its root instruction. -/
theorem stopsAt_root (env : Env) (tx : SolanaTx) (position : Nat) (site : IxView StackIx)
    (program : Program) (stops : StopsAt env tx position site program) :
    ∃ view, Reached env tx position view ∧ parseInstructionInternal env view = .panic := by
  cases stops with
  | root _ _ reached known notAggregator listed stopped =>
    refine ⟨site, reached, ?_⟩
    rw [parseInstructionInternal, known, Outcome.ok_bind, notAggregator, listed, stopped]
    rfl
  | hop view aggregator header before after child _ reached known isAggregator headed called
      fine hop knownHop stopped =>
    have leg : Aggregator.routeOf env view child = .panic :=
      (routeOf_panic_iff env view child).mpr ⟨hop, program, knownHop, stopped⟩
    have routes : Aggregator.aggregatorRoutes env view = .panic :=
      (Outcome.collectSome_panic_iff _ _).mpr ⟨before, child, after, called, fine, leg⟩
    refine ⟨view, reached, ?_⟩
    rw [parseInstructionInternal, known, Outcome.ok_bind, isAggregator, Aggregator.parse, headed,
      Outcome.ok_bind, routes]
    rfl

/-- What stops an aggregator's parser is the parser of the dex of a leg that is reached. -/
theorem leg_of_stopped (env : Env) (unchecked : env.profile.overflowChecks = false)
    (view : IxView StackIx) (program : Program)
    (stopped : Aggregator.parse env view program = .panic) :
    ∃ header before child after dex, Aggregator.header env view program = .ok (some header) ∧
      view.ix.inner = before ++ child :: after ∧
      (∀ earlier ∈ before, ∃ yielded, Aggregator.routeOf env view earlier = .ok yielded) ∧
      Aggregator.isHop view child = true ∧ (view.newCloned child).program = .ok dex ∧
      Dex.parse env (view.newCloned child) dex = .panic := by
  obtain ⟨returns, nets⟩ := header_returns env unchecked view program
  rcases (Outcome.bind_panic_iff _ _).mp stopped with inHeader | ⟨header, headed, inRoutes⟩
  · exact absurd inHeader returns
  cases header with
  | none => simp at inRoutes
  | some header =>
    rcases (Outcome.bind_panic_iff _ _).mp inRoutes with inLegs | ⟨routes, _, inNet⟩
    · obtain ⟨before, child, after, called, fine, inLeg⟩ :=
        (Outcome.collectSome_panic_iff _ _).mp inLegs
      obtain ⟨hop, dex, known, inDex⟩ := (routeOf_panic_iff env view child).mp inLeg
      exact ⟨header, before, child, after, dex, headed, called, fine, hop, known, inDex⟩
    · rcases (Outcome.bind_panic_iff _ _).mp inNet with netStops | ⟨_, _, impossible⟩
      · exact absurd netStops (nets header headed routes)
      · simp at impossible

/-- What stops the parser of a root instruction that is reached is the parser of some dex. -/
theorem stopsAt_of_root (env : Env) (unchecked : env.profile.overflowChecks = false)
    (tx : SolanaTx) (position : Nat) (view : IxView StackIx)
    (reached : Reached env tx position view)
    (stopped : parseInstructionInternal env view = .panic) :
    ∃ site program, StopsAt env tx position site program := by
  rcases (Outcome.bind_panic_iff _ _).mp stopped with unknown | ⟨program, known, inProgram⟩
  · simp [IxView.program, Outcome.bind_panic_iff] at unknown
  by_cases aggregator : Aggregator.isAggregator program = true
  · rw [if_pos aggregator, Outcome.bind_panic_iff] at inProgram
    obtain inParse | ⟨_, _, impossible⟩ := inProgram
    · obtain ⟨header, before, child, after, dex, headed, called, fine, hop, ofLeg, inDex⟩ :=
        leg_of_stopped env unchecked view program inParse
      exact ⟨_, dex, .hop view program header before after child dex reached known aggregator headed
        called fine hop ofLeg inDex⟩
    · simp at impossible
  · by_cases listed : Dex.isAmm program = true
    · rw [if_neg aggregator, if_pos listed, Outcome.bind_panic_iff] at inProgram
      obtain inDex | ⟨_, _, impossible⟩ := inProgram
      · exact ⟨_, program, .root view program reached known (by simpa using aggregator) listed
          inDex⟩
      · simp at impossible
    · simp [aggregator, listed] at inProgram

/-- A root instruction at which the parser stops is a parsed one. -/
theorem parseRoot_panic_iff (env : Env) (unchecked : env.profile.overflowChecks = false)
    (tx : SolanaTx) (root : CompiledInstruction) (position : Nat) :
    parseRoot env tx (root, position) = .panic ↔
      ∃ tree, (tx.rootInstruction env.profile position root : Outcome WithTrace StackIx) =
          .ok tree ∧ isParsed tx tree = true ∧
        parseInstructionInternal env (tx.view tree) = .panic := by
  rw [parseRoot, Outcome.bind_panic_iff]
  constructor
  · rintro (unbuilt | ⟨tree, built, inTree⟩)
    · exact absurd unbuilt (rootInstruction_returns unchecked tx position root)
    · split at inTree
      · rename_i known
        rw [parseInstruction, withTrace, Outcome.mapError_eq_panic] at inTree
        exact ⟨tree, built, known, inTree⟩
      · cases inTree
  · rintro ⟨tree, built, known, stopped⟩
    refine .inr ⟨tree, built, ?_⟩
    rw [if_pos known, parseInstruction, withTrace, Outcome.mapError_eq_panic]
    exact stopped

/-- In a build without overflow checks the parser of a transaction stops exactly if that of
some dex does, at a root instruction or at a leg of a route that is reached. -/
theorem transaction_stops_iff (env : Env) (unchecked : env.profile.overflowChecks = false)
    (tx : SolanaTx) :
    parseTransaction env tx = .panic ↔
      ∃ position site program, StopsAt env tx position site program := by
  constructor
  · intro stopped
    obtain ⟨before, ⟨root, position⟩, after, split, fine, atRoot⟩ :=
      (Outcome.collectSome_panic_iff _ _).mp stopped
    obtain ⟨tree, built, known, inTree⟩ := (parseRoot_panic_iff env unchecked tx root position).mp
      atRoot
    obtain ⟨site, program, stops⟩ := stopsAt_of_root env unchecked tx position (tx.view tree)
      ⟨before, root, after, tree, split, fine, built, known, rfl⟩ inTree
    exact ⟨position, site, program, stops⟩
  · rintro ⟨position, site, program, stops⟩
    obtain ⟨view, reached, stopped⟩ := stopsAt_root env tx position site program stops
    obtain ⟨before, root, after, tree, split, fine, built, known, rfl⟩ := reached
    exact (Outcome.collectSome_panic_iff _ _).mpr ⟨before, (root, position), after, split, fine,
      (parseRoot_panic_iff env unchecked tx root position).mpr ⟨tree, built, known, stopped⟩⟩

/-- The libraries in a build without overflow checks. -/
def releaseLibraries : Env := { poolLibraries with profile := ⟨false⟩ }

/-- A leg that lists no accounts stops the parser of its transaction. -/
theorem transaction_stops_of_leg :
    ∃ position site program,
      StopsAt releaseLibraries (routeTx .zeroFi [] []) position site program :=
  (transaction_stops_iff releaseLibraries rfl (routeTx .zeroFi [] [])).mp rfl

end Halts

end Graced
