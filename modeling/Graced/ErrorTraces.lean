import Graced.CallTree
import Graced.Dispatch

/-!
# Where an error is reported

A failure in a dex parser ends the parsing of the transaction, wherever the parser was
run. The path and the program in the error are those of the root instruction. For a
failure in a leg of a route this is the aggregator and not the leg, and any two legs of
one route are reported at the same place.
-/

namespace Graced

/-- The root instruction at a position is parsed: nothing before it failed, and its call
tree was built. -/
def Reached (env : Env) (tx : SolanaTx) (position : Nat) (view : IxView StackIx) : Prop :=
  ∃ before root after tree, tx.enumerated = before ++ (root, position) :: after ∧
    (∀ earlier ∈ before, ∃ yielded, parseRoot env tx earlier = .ok yielded) ∧
    (tx.rootInstruction env.profile position root : Outcome WithTrace StackIx) = .ok tree ∧
    isParsed tx tree = true ∧ view = tx.view tree

/-- While the root instruction at a position is parsed, the parser of the dex that the
viewed instruction runs fails: at the root instruction itself, or at a leg of its route
that is reached. -/
inductive FailsAt (env : Env) (tx : SolanaTx) (position : Nat) :
    IxView StackIx → Program → ParseError → Prop where
  | root (view : IxView StackIx) (program : Program) (error : ParseError) :
      Reached env tx position view → view.program = .ok program →
      Aggregator.isAggregator program = false → Dex.isAmm program = true →
      Dex.parse env view program = .err error → FailsAt env tx position view program error
  | hop (view : IxView StackIx) (aggregator : Program)
      (header : Aggregator.Header) (before after : List StackIx) (child : StackIx)
      (program : Program) (error : ParseError) :
      Reached env tx position view → view.program = .ok aggregator →
      Aggregator.isAggregator aggregator = true →
      Aggregator.header env view aggregator = .ok (some header) →
      view.ix.inner = before ++ child :: after →
      (∀ earlier ∈ before, ∃ yielded, Aggregator.routeOf env view earlier = .ok yielded) →
      Aggregator.isHop view child = true → (view.newCloned child).program = .ok program →
      Dex.parse env (view.newCloned child) program = .err error →
      FailsAt env tx position (view.newCloned child) program error

namespace ErrorTraces

/-- Every placed instruction is a child of the path. -/
theorem place_path {α : Type} (ixOf : α → CompiledInstruction) (path : Path) (position : Nat)
    (forest : Forest α) (child : StackIx)
    (member : child ∈ CallTree.place ixOf path position forest) :
    ∃ last, child.path = path ++ [last] := by
  induction forest generalizing position with
  | nil => simp [CallTree.place] at member
  | node value children siblings _ later =>
    rw [CallTree.place, List.mem_cons] at member
    rcases member with rfl | member
    · exact ⟨_, rfl⟩
    · exact later (position + 1) member

/-- A root instruction has its position as its path, and its children one step more. -/
theorem reached_paths (env : Env) (tx : SolanaTx) (position : Nat) (view : IxView StackIx)
    (reached : Reached env tx position view) :
    view.ix.path = [UInt8.ofNat position] ∧
      ∀ child ∈ view.ix.inner, ∃ last, child.path = [UInt8.ofNat position, last] := by
  obtain ⟨_, root, _, tree, _, _, built, _, rfl⟩ := reached
  rw [SolanaTx.rootInstruction, CallTree.buildIxStack_eq] at built
  split at built
  · simp at built
  · obtain rfl := Outcome.ok.inj built
    exact ⟨rfl, fun child member => place_path _ _ _ _ child member⟩

/-- A root instruction that is reached is one of the parsed ones. -/
theorem reached_isRoot (env : Env) (tx : SolanaTx) (position : Nat) (view : IxView StackIx)
    (reached : Reached env tx position view) : IsRoot env tx view := by
  obtain ⟨_, root, _, tree, split, _, built, known, same⟩ := reached
  exact ⟨(root, position), by simp [split], tree, built, known, same⟩

/-- Every parsed root instruction has a path of length one. -/
theorem isRoot_path (env : Env) (tx : SolanaTx) (view : IxView StackIx)
    (root : IsRoot env tx view) : view.ix.path.length = 1 := by
  obtain ⟨listed, _, tree, built, _, rfl⟩ := root
  rw [SolanaTx.rootInstruction, CallTree.buildIxStack_eq] at built
  split at built
  · simp at built
  · obtain rfl := Outcome.ok.inj built
    rfl

/-- A leg of a route runs another program than the aggregator. -/
theorem hop_program (view : IxView StackIx) (child : StackIx) (aggregator program : Program)
    (hop : Aggregator.isHop view child = true) (known : view.program = .ok aggregator)
    (knownHop : (view.newCloned child).program = .ok program) : program ≠ aggregator := by
  obtain ⟨aggId, inTable, rfl⟩ := program_known view aggregator known
  obtain ⟨id, hopInTable, rfl⟩ := program_known _ program knownHop
  have viewed : view.keys.get (SolanaInstruction.programId child).toNat = some id := hopInTable
  rw [Aggregator.isHop, inTable, viewed] at hop
  intro same
  simp [Program.ofPubkey_injective id aggId same] at hop

/-- What fails in a root instruction that is reached is the failure of the transaction,
reported at the root instruction. -/
theorem reached_fails (env : Env) (tx : SolanaTx) (position : Nat) (view : IxView StackIx)
    (program : Program) (error : ParseError) (reached : Reached env tx position view)
    (known : view.program = .ok program)
    (fails : parseInstructionInternal env view = .err error) :
    parseTransaction env tx = .err ⟨view.ix.path, some program, error⟩ := by
  obtain ⟨before, root, after, tree, split, fine, built, isKnown, rfl⟩ := reached
  apply (Outcome.collectSome_err_iff _ _ _).mpr
  refine ⟨before, _, after, split, fine, ?_⟩
  obtain ⟨id, inTable, rfl⟩ := program_known _ program known
  rw [parseRoot, built, Outcome.ok_bind, if_pos isKnown, parseInstruction, withTrace, fails,
    inTable]
  rfl

/-- The failure of a dex parser is that of the transaction, reported at the root
instruction in which it happened. -/
theorem failure_reported (env : Env) (tx : SolanaTx) (position : Nat) (site : IxView StackIx)
    (program : Program) (error : ParseError) (fails : FailsAt env tx position site program error) :
    ∃ view rootProgram, Reached env tx position view ∧
      parseTransaction env tx = .err ⟨view.ix.path, some rootProgram, error⟩ ∧
      (site = view ∧ program = rootProgram ∨
        ∃ child ∈ view.ix.inner, site = view.newCloned child ∧ program ≠ rootProgram) := by
  cases fails with
  | root _ _ _ reached known notAggregator listed failed =>
    refine ⟨site, program, reached, reached_fails env tx position site program error reached
      known ?_, .inl ⟨rfl, rfl⟩⟩
    rw [parseInstructionInternal, known, Outcome.ok_bind, notAggregator, listed, failed]
    rfl
  | hop view aggregator header before after child _ _ reached known isAggregator headed called
      fine hop knownHop failed =>
    have leg : Aggregator.routeOf env view child = .err error :=
      (Aggregator.routeOf_err_iff env view child error).mpr ⟨hop, program, knownHop, failed⟩
    have routes : Aggregator.aggregatorRoutes env view = .err error :=
      (Outcome.collectSome_err_iff _ _ _).mpr ⟨before, child, after, called, fine, leg⟩
    refine ⟨view, aggregator, reached, reached_fails env tx position view aggregator error
      reached known ?_, .inr ⟨child, by simp [called], rfl,
        hop_program view child aggregator program hop known knownHop⟩⟩
    rw [parseInstructionInternal, known, Outcome.ok_bind, isAggregator, Aggregator.parse, headed,
      Outcome.ok_bind, routes]
    rfl

/-- A failure is reported with the path and the program of the instruction that failed
exactly if that is a root instruction. Two failures are reported with the same path
exactly if they happened in root instructions whose positions end in the same byte. -/
theorem failure_traced_iff (env : Env) :
    (∀ (tx : SolanaTx) (position : Nat) (site : IxView StackIx) (program : Program)
      (error : ParseError), FailsAt env tx position site program error →
        ∃ trace, parseTransaction env tx = .err trace ∧ trace.error = error ∧
          (trace.path = site.ix.path ∧ trace.program = some program ↔ IsRoot env tx site)) ∧
    (∀ (tx otherTx : SolanaTx) (position otherPosition : Nat) (site otherSite : IxView StackIx)
      (program otherProgram : Program) (error otherError : ParseError)
      (trace otherTrace : WithTrace),
      FailsAt env tx position site program error →
      FailsAt env otherTx otherPosition otherSite otherProgram otherError →
      parseTransaction env tx = .err trace → parseTransaction env otherTx = .err otherTrace →
        (trace.path = otherTrace.path ↔ position % 256 = otherPosition % 256)) := by
  have reportedPath (tx : SolanaTx) (position : Nat) (site : IxView StackIx) (program : Program)
      (error : ParseError) (trace : WithTrace) (fails : FailsAt env tx position site program error)
      (failed : parseTransaction env tx = .err trace) :
      trace.path = [UInt8.ofNat position] := by
    obtain ⟨view, rootProgram, reached, reported, _⟩ :=
      failure_reported env tx position site program error fails
    obtain rfl := Outcome.err.inj (reported.symm.trans failed)
    exact (reached_paths env tx position view reached).1
  constructor
  · intro tx position site program error fails
    obtain ⟨view, rootProgram, reached, reported, ⟨rfl, rfl⟩ | ⟨child, member, rfl, other⟩⟩ :=
      failure_reported env tx position site program error fails
    · exact ⟨_, reported, rfl, by simp [reached_isRoot env tx position site reached]⟩
    · refine ⟨_, reported, rfl, ?_⟩
      obtain ⟨last, path⟩ := (reached_paths env tx position view reached).2 child member
      constructor
      · rintro ⟨_, same⟩
        exact absurd (Option.some.inj same).symm other
      · intro root
        have short := isRoot_path env tx _ root
        simp [IxView.newCloned, path] at short
  · intro tx otherTx position otherPosition site otherSite program otherProgram error otherError
      trace otherTrace fails otherFails failed otherFailed
    rw [reportedPath tx position site program error trace fails failed,
      reportedPath otherTx otherPosition otherSite otherProgram otherError otherTrace otherFails
        otherFailed]
    simp [← UInt8.toNat_inj]

/-- A leg whose pool belongs to another user: its transfers are not found. -/
theorem failingLeg :
    FailsAt poolLibraries (routeTx .orca [2, 9, 3, 2, 4, 2, 5] Dex.swapDisc) 0
      ((routeTx .orca [2, 9, 3, 2, 4, 2, 5] Dex.swapDisc).view
        (poolTree [0, 0] [2, 9, 3, 2, 4, 2, 5] Dex.swapDisc)) .orca .noDetailsFound :=
  .hop ((routeTx .orca [2, 9, 3, 2, 4, 2, 5] Dex.swapDisc).view
      (routeTree [2, 9, 3, 2, 4, 2, 5] Dex.swapDisc)) .axiomTrade
    ⟨.axiomTrade, ⟨2⟩, Aggregator.netOfRoutes poolLibraries
      ((routeTx .orca [2, 9, 3, 2, 4, 2, 5] Dex.swapDisc).view
        (routeTree [2, 9, 3, 2, 4, 2, 5] Dex.swapDisc))⟩
    [] [] (poolTree [0, 0] [2, 9, 3, 2, 4, 2, 5] Dex.swapDisc) .orca .noDetailsFound
    ⟨[], _, [], _, rfl, by simp, rfl, by decide, rfl⟩ rfl rfl rfl rfl (by simp) (by decide) rfl rfl

/-- The same instruction as a root instruction. -/
theorem failingRoot :
    FailsAt poolLibraries (poolTx .orca [2, 9, 3, 2, 4, 2, 5] Dex.swapDisc) 0
      ((poolTx .orca [2, 9, 3, 2, 4, 2, 5] Dex.swapDisc).view
        (poolTree [0] [2, 9, 3, 2, 4, 2, 5] Dex.swapDisc)) .orca .noDetailsFound :=
  .root _ .orca .noDetailsFound
    ⟨[], _, [], _, rfl, by simp, rfl, by decide, rfl⟩ rfl rfl rfl rfl

/-- At the root, the failure is reported where it happened. -/
theorem failure_traced_at_root :
    (∃ trace, parseTransaction poolLibraries
        (poolTx .orca [2, 9, 3, 2, 4, 2, 5] Dex.swapDisc) = .err trace ∧
      trace.error = .noDetailsFound ∧ trace.path = [0] ∧ trace.program = some .orca) ∧
    ((⟨[0], some .orca, .noDetailsFound⟩ : WithTrace).path =
        (⟨[0], some .axiomTrade, .noDetailsFound⟩ : WithTrace).path ↔ 0 % 256 = 0 % 256) := by
  constructor
  · obtain ⟨trace, failed, error, traced⟩ := (failure_traced_iff poolLibraries).1
      (poolTx .orca [2, 9, 3, 2, 4, 2, 5] Dex.swapDisc) 0 _ _ _ failingRoot
    obtain ⟨path, program⟩ := traced.mpr ⟨_, List.mem_cons_self, _, rfl, by decide, rfl⟩
    exact ⟨trace, failed, error, path, program⟩
  · exact (failure_traced_iff poolLibraries).2 _ _ 0 0 _ _ _ _ _ _ _ _ failingRoot failingLeg
      rfl rfl

/-- In a leg, it is reported at the aggregator. -/
theorem failure_traced_at_aggregator :
    FailsAt poolLibraries (routeTx .orca [2, 9, 3, 2, 4, 2, 5] Dex.swapDisc) 0
      ((routeTx .orca [2, 9, 3, 2, 4, 2, 5] Dex.swapDisc).view
        (poolTree [0, 0] [2, 9, 3, 2, 4, 2, 5] Dex.swapDisc)) .orca .noDetailsFound ∧
    parseTransaction poolLibraries (routeTx .orca [2, 9, 3, 2, 4, 2, 5] Dex.swapDisc) =
      .err ⟨[0], some .axiomTrade, .noDetailsFound⟩ :=
  ⟨failingLeg, rfl⟩

end ErrorTraces

end Graced
