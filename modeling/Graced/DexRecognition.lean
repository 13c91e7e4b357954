import Graced.Dispatch

/-!
# Recognised at the root, recognised in a route

Two lists of programs say which root instructions are dex instructions; in a route,
the dispatch table alone decides. The lists and the table name the same programs with
one exception: the table has SolFi, and the lists do not. A SolFi swap that is not
routed through an aggregator is passed over, and so is an error in it.
-/

namespace Graced

variable {T : Type} [SolanaInstruction T]

namespace Dex

/-- Apart from SolFi, a program that is not on the lists is not in the dispatch table. -/
theorem parse_unlisted (env : Env) (view : IxView T) (program : Program)
    (unlisted : isAmm program = false) (notSolfi : program ≠ .solFi) :
    Dex.parse env view program = .ok none := by
  cases program <;> first | exact absurd rfl notSolfi | rfl | cases unlisted

/-- A SolFi instruction holds nothing to find: its data can be read, and unless it does
not start as a swap, its accounts can be had and those at the positions of the layout
are without matching transfers. -/
def NoSolfiSwap (env : Env) (view : IxView T) : Prop :=
  ∃ data, view.data = .ok data ∧ (data.head? = some 7 →
    ∃ accs, view.accounts = .ok accs ∧
      ∀ accounts, (⟨0, 1, 4, 5, [8, 9]⟩ : Layout).read accs = .ok accounts →
        view.swapInfo env accounts.tokenAccountA accounts.tokenAccountB accounts.user = .ok none)

/-- The SolFi parser finds no swap and no error exactly when there is nothing to find. -/
theorem solfi_silent_iff (env : Env) (view : IxView T) :
    ((∀ swap, Dex.parse env view .solFi ≠ .ok (some swap)) ∧
      (∀ error, Dex.parse env view .solFi ≠ .err error)) ↔ NoSolfiSwap env view := by
  have unfolded : Dex.parse env view .solFi = (do
      let data ← view.data
      if data.head? = some 7 then
        let accs ← view.accounts
        solfi.decode env view accs ⟨0, 1, 4, 5, [8, 9]⟩
      else pure none) := by
    show solfi.parse env view = _
    rw [Format.parse, if_neg (by simp [solfi])]
    cases view.data with
    | err | panic => rfl
    | ok data =>
      by_cases swapData : data.head? = some 7 <;> simp [solfi, swapData]
  rw [unfolded]
  cases dataRead : view.data with
  | panic => exact absurd dataRead (IxView.data_ne_panic view)
  | err error => simp [NoSolfiSwap, dataRead]
  | ok data =>
    by_cases swapData : data.head? = some 7
    · cases accountsRead : view.accounts with
      | panic => exact absurd accountsRead (IxView.accounts_ne_panic view)
      | err error => simp [NoSolfiSwap, dataRead, swapData, accountsRead]
      | ok accs =>
        cases layoutRead : (⟨0, 1, 4, 5, [8, 9]⟩ : Layout).read accs with
        | err error => exact absurd layoutRead (Layout.read_ne_err _ accs error)
        | panic =>
          simp [NoSolfiSwap, dataRead, swapData, accountsRead, layoutRead, Format.decode]
        | ok accounts =>
          cases info : view.swapInfo env accounts.tokenAccountA accounts.tokenAccountB
            accounts.user with
          | panic => exact absurd info (IxView.swapInfo_ne_panic env view _ _ _)
          | err error =>
            simp [NoSolfiSwap, dataRead, swapData, accountsRead, layoutRead, Format.decode, info]
          | ok found =>
            cases found <;>
              simp [NoSolfiSwap, dataRead, swapData, accountsRead, layoutRead, Format.decode,
                info, solfi]
    · simp [NoSolfiSwap, dataRead, swapData]

end Dex

/-- The outcome of a root instruction is what is found for its program, with the path and
the program attached to an error, if the lists have the program. -/
theorem parseInstruction_listed (env : Env) (view : IxView T) (program : Program)
    (known : view.program = .ok program)
    (notAggregator : Aggregator.isAggregator program = false) :
    parseInstruction env view =
      if Dex.isAmm program then
        ((fun found => found.map Parsed.dex) <$> Dex.parse env view program).mapError
          (fun error => ⟨SolanaInstruction.path view.ix, some program, error⟩)
      else .ok none := by
  obtain ⟨id, inTable, rfl⟩ := program_known view program known
  rw [parseInstruction, withTrace, parseInstructionInternal, known, inTable]
  simp only [Outcome.ok_bind, notAggregator, Bool.false_eq_true, if_false, Option.map_some]
  split
  · rfl
  · rfl

/-- A listed program's instruction is decoded as its dex parser decodes it. -/
theorem decoded_alike_of_listed (env : Env) (view : IxView T) (program : Program)
    (known : view.program = .ok program)
    (notAggregator : Aggregator.isAggregator program = false)
    (listed : Dex.isAmm program = true) :
    (∀ swap, parseInstruction env view = .ok (some (.dex swap)) ↔
      Dex.parse env view program = .ok (some swap)) ∧
    (∀ error, (∃ trace, parseInstruction env view = .err trace ∧ trace.error = error) ↔
      Dex.parse env view program = .err error) := by
  rw [parseInstruction_listed env view program known notAggregator, if_pos listed]
  cases Dex.parse env view program with
  | ok found => cases found <;> simp
  | err error => simp
  | panic => simp

/-- An unlisted program's instruction is decoded as its dex parser decodes it if that
finds neither a swap nor an error. -/
theorem decoded_alike_of_unlisted (env : Env) (view : IxView T) (program : Program)
    (known : view.program = .ok program)
    (notAggregator : Aggregator.isAggregator program = false)
    (unlisted : Dex.isAmm program = false) :
    ((∀ swap, parseInstruction env view = .ok (some (.dex swap)) ↔
        Dex.parse env view program = .ok (some swap)) ∧
      (∀ error, (∃ trace, parseInstruction env view = .err trace ∧ trace.error = error) ↔
        Dex.parse env view program = .err error)) ↔
    (∀ swap, Dex.parse env view program ≠ .ok (some swap)) ∧
      (∀ error, Dex.parse env view program ≠ .err error) := by
  rw [parseInstruction_listed env view program known notAggregator, unlisted]
  simp

/-- The leg that an instruction is in a route is decoded as its dex parser decodes it. -/
theorem decoded_alike_in_route (env : Env) (aggregator view : IxView T) (program : Program)
    (known : view.program = .ok program) (sameContext : view = aggregator.newCloned view.ix)
    (before after : List T) (routes : List Route)
    (called : SolanaInstruction.innerInstructions aggregator.ix = before ++ view.ix :: after)
    (hop : Aggregator.isHop aggregator view.ix = true)
    (walked : Aggregator.aggregatorRoutes env aggregator = .ok routes) :
    ∃ earlier route later, routes = earlier ++ route :: later ∧
      Outcome.collectSome (Aggregator.routeOf env aggregator) before = .ok earlier ∧
      ∀ swap, route = .decoded swap ↔ Dex.parse env view program = .ok (some swap) := by
  rw [Aggregator.aggregatorRoutes, called] at walked
  obtain ⟨earlier, yielded, later, inBefore, atView, _, split⟩ :=
    Outcome.collectSome_split _ _ _ _ _ walked
  have decoded (swap : DexSwap) : yielded = some (.decoded swap) ↔
      Dex.parse env view program = .ok (some swap) := by
    have leg := Aggregator.routeOf_decoded_iff env aggregator view.ix swap
    rw [← sameContext, atView, Outcome.ok.injEq] at leg
    rw [leg, known]
    simp [hop]
  cases yielded with
  | none =>
    rw [Aggregator.routeOf, if_pos hop, Outcome.bind_ok_iff] at atView
    obtain ⟨_, _, rest⟩ := atView
    obtain ⟨found, _, leg⟩ := (Outcome.bind_ok_iff _ _ _).mp rest
    cases found <;> simp at leg
  | some route =>
    refine ⟨earlier, route, later, by simpa using split, inBefore, fun swap => ?_⟩
    rw [← decoded swap, Option.some.injEq]

/-- Outside of routes, a dex instruction is decoded as its dex parser decodes it exactly
if it is not one of SolFi, or SolFi's parser has nothing to find. As a leg of a route it
always is. -/
theorem decoded_alike_iff (env : Env) (view : IxView T) (program : Program)
    (known : view.program = .ok program)
    (notAggregator : Aggregator.isAggregator program = false) :
    (((∀ swap, parseInstruction env view = .ok (some (.dex swap)) ↔
          Dex.parse env view program = .ok (some swap)) ∧
        (∀ error, (∃ trace, parseInstruction env view = .err trace ∧ trace.error = error) ↔
          Dex.parse env view program = .err error)) ↔
      program ≠ .solFi ∨ Dex.NoSolfiSwap env view) ∧
    (∀ (aggregator : IxView T) (before after : List T) (routes : List Route),
      view = aggregator.newCloned view.ix →
      SolanaInstruction.innerInstructions aggregator.ix = before ++ view.ix :: after →
      Aggregator.isHop aggregator view.ix = true →
      Aggregator.aggregatorRoutes env aggregator = .ok routes →
        ∃ earlier route later, routes = earlier ++ route :: later ∧
          Outcome.collectSome (Aggregator.routeOf env aggregator) before = .ok earlier ∧
          ∀ swap, route = .decoded swap ↔ Dex.parse env view program = .ok (some swap)) := by
  constructor
  · cases listed : Dex.isAmm program with
    | true =>
      have notSolfi : program ≠ .solFi := by
        rintro rfl
        cases listed
      apply iff_of_true
      · exact decoded_alike_of_listed env view program known notAggregator listed
      · exact .inl notSolfi
    | false =>
      rw [decoded_alike_of_unlisted env view program known notAggregator listed]
      by_cases solfi : program = .solFi
      · subst solfi
        simpa using Dex.solfi_silent_iff env view
      · simp [Dex.parse_unlisted env view program listed solfi, solfi]
  · intro aggregator before after routes sameContext called hop walked
    exact decoded_alike_in_route env aggregator view program known sameContext before after routes
      called hop walked

/-- An Orca swap is decoded at the root, and as a leg of a route. -/
theorem decoded_alike_of_orca :
    (parseInstruction poolLibraries
        ((poolTx .orca [2, 0, 3, 2, 4, 2, 5] Dex.swapDisc).view
          (poolTree [0] [2, 0, 3, 2, 4, 2, 5] Dex.swapDisc)) =
      .ok (some (.dex ⟨⟨2⟩, ⟨3⟩, .orca, ⟨100, 50, ⟨8⟩, ⟨9⟩⟩⟩))) ∧
    ∃ earlier route later,
      [Route.decoded ⟨⟨2⟩, ⟨3⟩, .orca, ⟨100, 50, ⟨8⟩, ⟨9⟩⟩⟩] = earlier ++ route :: later ∧
      route = .decoded ⟨⟨2⟩, ⟨3⟩, .orca, ⟨100, 50, ⟨8⟩, ⟨9⟩⟩⟩ := by
  constructor
  · have alike := (decoded_alike_iff poolLibraries
      ((poolTx .orca [2, 0, 3, 2, 4, 2, 5] Dex.swapDisc).view
        (poolTree [0] [2, 0, 3, 2, 4, 2, 5] Dex.swapDisc)) .orca rfl rfl).1.mpr
      (.inl (by decide))
    exact (alike.1 _).mpr rfl
  · obtain ⟨earlier, route, later, split, _, decoded⟩ := (decoded_alike_iff poolLibraries
      ((routeTx .orca [2, 0, 3, 2, 4, 2, 5] Dex.swapDisc).view
        (poolTree [0, 0] [2, 0, 3, 2, 4, 2, 5] Dex.swapDisc)) .orca rfl rfl).2
      ((routeTx .orca [2, 0, 3, 2, 4, 2, 5] Dex.swapDisc).view
        (routeTree [2, 0, 3, 2, 4, 2, 5] Dex.swapDisc)) [] []
      [.decoded ⟨⟨2⟩, ⟨3⟩, .orca, ⟨100, 50, ⟨8⟩, ⟨9⟩⟩⟩] rfl rfl (by decide) rfl
    exact ⟨earlier, route, later, split, (decoded _).mpr rfl⟩

/-- A SolFi swap is decoded as a leg of a route, and passed over at the root. -/
theorem solfi_passed_over_at_root :
    Dex.parse poolLibraries
      ((poolTx .solFi [0, 3, 2, 2, 4, 5, 2, 2, 2, 2] [7]).view
        (poolTree [0] [0, 3, 2, 2, 4, 5, 2, 2, 2, 2] [7])) .solFi =
      .ok (some ⟨⟨2⟩, ⟨3⟩, .solFi, ⟨100, 50, ⟨8⟩, ⟨9⟩⟩⟩) ∧
    parseInstruction poolLibraries
      ((poolTx .solFi [0, 3, 2, 2, 4, 5, 2, 2, 2, 2] [7]).view
        (poolTree [0] [0, 3, 2, 2, 4, 5, 2, 2, 2, 2] [7])) = .ok none ∧
    Aggregator.aggregatorRoutes poolLibraries
      ((routeTx .solFi [0, 3, 2, 2, 4, 5, 2, 2, 2, 2] [7]).view
        (routeTree [0, 3, 2, 2, 4, 5, 2, 2, 2, 2] [7])) =
      .ok [.decoded ⟨⟨2⟩, ⟨3⟩, .solFi, ⟨100, 50, ⟨8⟩, ⟨9⟩⟩⟩] :=
  ⟨rfl, rfl, rfl⟩

end Graced
