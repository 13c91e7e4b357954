import Graced.DexRecords
import Graced.Halts
import Graced.HashOrder
import Graced.NettingOverflow

/-!
# What a recorded transaction tells

An aggregator's instruction is recognised by its data, with its user in one place among the
accounts and, for three of the aggregators, a log that can be read. It is reported if every
leg of its route can be read, and if the sums over the legs keep their range where the build
minds. A transaction is reported if every root instruction of it can be read, and then with
those root instructions that tell a swap.
-/

namespace Graced

open HashOrder

/-! ## Sums over the legs -/

/-- No balance leaves its range on the walk over these swaps, in a build that minds. -/
def SwapGraph.InRange (profile : Profile) : List Swap → Prop
  | [] => True
  | first :: rest => profile.overflowChecks = true →
    ∀ reached, Reached first.inputMint .start (first :: rest) reached → reached.BalancesFit

/-- Swaps are netted, or an error, exactly if the balances keep their range. -/
theorem SwapGraph.swap_returns_iff (profile : Profile) (swaps : List Swap) :
    SwapGraph.swap profile ⟨swaps⟩ ≠ .panic ↔ SwapGraph.InRange profile swaps := by
  cases swaps with
  | nil => exact iff_of_true (by simp [SwapGraph.swap]) trivial
  | cons first rest =>
    exact SwapGraph.swap_ne_panic_iff profile (first :: rest) (List.cons_ne_nil first rest)

namespace Routes

/-- The totals of every leg keep their range, up to the first that cannot be read. -/
def TotalsInRange (profile : Profile) : List Route → Prop
  | [] => True
  | .decoded _ :: rest => TotalsInRange profile rest
  | .undecoded program path transfers :: rest => TotalsFit transfers ∧
    (Readable profile (.undecoded program path transfers) → TotalsInRange profile rest)

/-- The totals of the legs keep their range, and so do the balances on the walk over the legs as
they are read, in a build that minds. -/
structure InRange (profile : Profile) (orders : Nat → IterationOrder Pubkey UInt64)
    (routes : List Route) : Prop where
  totals : profile.overflowChecks = true → routes.any (fun route => !route.isDecoded) = true →
    TotalsInRange profile routes
  balances : ∀ swaps, Routes.swaps profile orders routes = .ok swaps →
    SwapGraph.InRange profile swaps

section Range

variable {profile : Profile} (orders : Nat → IterationOrder Pubkey UInt64)

/-- Adding up returns exactly if the totals keep their range, in a build that minds. -/
theorem totals_returns_iff (sums : AssocMap Pubkey UInt64) (transfers : List TokenTransfer)
    (checks : profile.overflowChecks = true) :
    totals profile sums transfers ≠ .panic ↔
      ∀ mint, ((sums.get mint).getD 0).toNat + mintTotal (namedBefore transfers) mint <
        2 ^ 64 := by
  have present (mint : Pubkey) : ((sums.get mint).getD 0).toNat < 2 ^ 64 := UInt64.toNat_lt _
  induction transfers generalizing sums with
  | nil => exact iff_of_true (by simp [totals]) present
  | cons transfer rest inductionHypothesis =>
    cases named : transfer.mint with
    | none =>
      rw [namedBefore_unnamed transfer rest named]
      exact iff_of_true (by simp [totals, named]) present
    | some mint =>
      rw [namedBefore_named transfer rest mint named]
      simp only [totals, named]
      by_cases room : ((sums.get mint).getD 0).toNat + transfer.amount.toNat < 2 ^ 64
      · obtain ⟨total, added, sum⟩ := add64_fits (ε := RouteError) profile _ _ room
        rw [added, Outcome.ok_bind]
        exact (inductionHypothesis (sums.insert mint total) (fun _ => UInt64.toNat_lt _)).trans
          (insert_fits_iff sums transfer (namedBefore rest) mint total named sum)
      · have overflows : (profile.add64 ((sums.get mint).getD 0) transfer.amount :
            Outcome RouteError UInt64) = .panic := by
          rw [Profile.add64, if_pos ⟨checks, by omega⟩]
        refine iff_of_false (by simp [overflows]) fun fits => ?_
        have atMint := fits mint
        rw [mintTotal_cons, if_pos named] at atMint
        omega

/-- The shapes of the legs are found, or an error, exactly if the totals keep their range. -/
theorem shapes_returns_iff (routes : List Route) (checks : profile.overflowChecks = true) :
    shapes profile orders routes ≠ .panic ↔ TotalsInRange profile routes := by
  unfold shapes
  generalize 0 = offset
  induction routes generalizing offset with
  | nil => exact iff_of_true (by simp [Outcome.collect]) trivial
  | cons route rest inductionHypothesis =>
    have next := inductionHypothesis (offset + 1)
    simp only [List.zipIdx_cons, Outcome.collect, Outcome.bind_ne_panic_iff]
    cases route with
    | decoded dex => simpa [shapeOf, TotalsInRange] using next
    | undecoded program path transfers =>
      have readable := shapeOf_ok_iff profile (orders offset) (.undecoded program path transfers)
      have fits : shapeOf profile (orders offset) (.undecoded program path transfers) ≠ .panic ↔
          TotalsFit transfers := by
        have returns := totals_returns_iff .empty transfers checks
        simp only [AssocMap.get_empty, Option.getD_none, UInt64.toNat_zero, Nat.zero_add] at returns
        rw [TotalsFit, ← returns, shapeOf, candidatesFromTransfers, Outcome.bind_ne_panic_iff]
        refine and_iff_left_of_imp fun _ sums _ => ?_
        split <;> simp
      rw [TotalsInRange, fits, ← readable]
      refine and_congr_right fun _ => ?_
      constructor
      · rintro each ⟨shape, shaped⟩
        exact next.mp (each shape shaped).1
      · intro later shape shaped
        exact ⟨next.mpr (later ⟨shape, shaped⟩), by simp⟩

/-- A route is netted, or an error, exactly if all sums keep their range. -/
theorem swap_returns_iff (routes : List Route) :
    Routes.swap profile orders routes ≠ .panic ↔ InRange profile orders routes := by
  have legs : Routes.swaps profile orders routes ≠ .panic ↔
      (profile.overflowChecks = true → routes.any (fun route => !route.isDecoded) = true →
        TotalsInRange profile routes) := by
    unfold Routes.swaps
    split
    · next undecoded =>
      have shaped : shapes profile orders routes ≠ .panic ↔
          (profile.overflowChecks = true → TotalsInRange profile routes) := by
        by_cases checks : profile.overflowChecks = true
        · rw [shapes_returns_iff orders routes checks]
          simp [checks]
        · exact iff_of_true (Halts.shapes_returns (by simpa using checks) orders routes)
            fun minds => absurd minds checks
      rw [toSwaps, Outcome.bind_ne_panic_iff, shaped]
      simp [undecoded, knownSwaps_ne_panic]
    · next decoded => simp [decoded]
  rw [Routes.swap, Outcome.bind_ne_panic_iff, legs]
  simp only [ne_eq, Outcome.mapError_eq_panic]
  constructor
  · rintro ⟨totals, balances⟩
    exact ⟨totals, fun swaps read =>
      (SwapGraph.swap_returns_iff profile swaps).mp (balances swaps read)⟩
  · intro range
    exact ⟨range.totals, fun swaps read =>
      (SwapGraph.swap_returns_iff profile swaps).mpr (range.balances swaps read)⟩

end Range

end Routes

/-! ## Aggregators -/

namespace Aggregator

/-- What an aggregator logged with calls to itself. -/
def logOf (view : IxView StackIx) (program : Program) : List Bytes :=
  loggedBy view.keys program (view.ix.inner.map StackIx.ix)

/-- The discriminator of a swap on Titan. -/
def TitanRoute (data : Bytes) : Prop :=
  8 < data.length ∧ data.take 8 = [249, 91, 84, 33, 69, 22, 0, 135]

/-- The data is that of a route, its user is in the right place and its log can be read. The
last part says which sums over the legs have to keep their range. -/
inductive Headed (env : Env) (view : IxView StackIx) : Program → (List Route → Prop) → Prop where
  | axiomTrade : view.ix.ix.data.head? = some 0 → (view.accountAt 0).isSome →
      (view.accountAt 1).isSome →
      Headed env view .axiomTrade (Routes.InRange env.profile (env.totalsOrder view.ix.path))
  | titanRoute : TitanRoute view.ix.ix.data → (view.accountAt 0).isSome →
      Headed env view .titanExchangeRouter
        (Routes.InRange env.profile (env.totalsOrder view.ix.path))
  | titanOther : ¬ TitanRoute view.ix.ix.data → view.ix.ix.data.head? = some 42 →
      (view.accountAt 1).isSome →
      Headed env view .titanExchangeRouter
        (Routes.InRange env.profile (env.totalsOrder view.ix.path))
  | dflow (place : Nat) (told : List (Option Swap)) :
      Logger.dflow.userPlace (view.ix.ix.data.take 8) = some place →
      (view.accountAt place).isSome →
      List.Forall₂ (TellsLeg DflowSilent) (logOf view .dflowAgg) told →
      Headed env view .dflowAgg (fun _ => SwapGraph.InRange env.profile (told.filterMap id))
  | jupiter (place : Nat) (swaps : List Swap) :
      Logger.jupiter.userPlace (view.ix.ix.data.take 8) = some place →
      (view.accountAt place).isSome → TellsSwaps [] (logOf view .jupV6) swaps → swaps ≠ [] →
      Headed env view .jupV6 (fun _ => SwapGraph.InRange env.profile swaps)
  | okx (place : Nat) : Logger.okx.userPlace (view.ix.ix.data.take 8) = some place →
      (view.accountAt place).isSome →
      ((∀ payload ∈ logOf view .okxDexRouter2, OkxSilent payload) ∨
        ∃ before payload after s, logOf view .okxDexRouter2 = before ++ payload :: after ∧
          (∀ earlier ∈ before, OkxSilent earlier) ∧ TellsNet payload s) →
      Headed env view .okxDexRouter2 (fun _ => True)

/-- The data is none of a route, or it is one of Jupiter that logged no swap. -/
inductive Unheaded (view : IxView StackIx) : Program → Prop where
  | axiomTrade : view.ix.ix.data.head? ≠ some 0 → Unheaded view .axiomTrade
  | titan : ¬ TitanRoute view.ix.ix.data → view.ix.ix.data.head? ≠ some 42 →
      Unheaded view .titanExchangeRouter
  | dflow : Logger.dflow.userPlace (view.ix.ix.data.take 8) = none → Unheaded view .dflowAgg
  | jupiter : Logger.jupiter.userPlace (view.ix.ix.data.take 8) = none → Unheaded view .jupV6
  | okx : Logger.okx.userPlace (view.ix.ix.data.take 8) = none → Unheaded view .okxDexRouter2
  | jupiterSilent (place : Nat) :
      Logger.jupiter.userPlace (view.ix.ix.data.take 8) = some place →
      (view.accountAt place).isSome → TellsSwaps [] (logOf view .jupV6) [] → Unheaded view .jupV6

/-- A leg of the route can be read: its instruction tells a swap or is passed over. What is no
leg is not read. -/
def LegRead (env : Env) (view : IxView StackIx) (call : StackIx) : Prop :=
  isHop view call = true → ∃ program, (view.newCloned call).program = .ok program ∧
    (Dex.HoldsSwap env (view.newCloned call) program ∨
      Dex.Passes env (view.newCloned call) program)

/-- What is recorded of an instruction of this aggregator is a route. -/
def HoldsSwap (env : Env) (view : IxView StackIx) (program : Program) : Prop :=
  ∃ inRange, Headed env view program inRange ∧ (∀ call ∈ view.ix.inner, LegRead env view call) ∧
    ∀ routes, aggregatorRoutes env view = .ok routes → inRange routes

/-- What a header tells: if it is found the sums that have to keep their range for a net swap,
and otherwise that there is none. -/
structure HeaderTold (headed : Outcome ParseError (Option Header))
    (shows : (List Route → Prop) → Prop) (passes : Prop) : Prop where
  found : ∀ header, headed = .ok (some header) → ∃ inRange, shows inRange ∧
    ∀ routes, (∃ net, header.netSwap routes = .ok net) ↔ inRange routes
  shown : ∀ inRange, shows inRange → ∃ header, headed = .ok (some header) ∧
    ∀ routes, (∃ net, header.netSwap routes = .ok net) ↔ inRange routes
  passes_iff : headed = .ok none ↔ passes

section Header

variable (env : Env) (view : IxView StackIx) (id : Pubkey)
  (runs : view.keys.get view.ix.ix.programIdIndex.toNat = some id)

/-- What is discarded on failure is lost only to a panic. -/
theorem discard_succeeds_iff {ε δ α : Type} (outcome : Outcome ε α) :
    (∃ value, (outcome.discard : Outcome δ (Option α)) = .ok value) ↔ outcome ≠ .panic := by
  cases outcome <;> simp [Outcome.discard]

theorem netOfRoutes_iff (routes : List Route) :
    (∃ net, netOfRoutes env view routes = .ok net) ↔
      Routes.InRange env.profile (env.totalsOrder view.ix.path) routes := by
  rw [netOfRoutes, discard_succeeds_iff]
  exact Routes.swap_returns_iff _ routes

theorem netOfSwaps_iff (swaps : List Swap) :
    (∃ net, netOfSwaps env swaps = .ok net) ↔ SwapGraph.InRange env.profile swaps := by
  rw [netOfSwaps, discard_succeeds_iff]
  exact SwapGraph.swap_returns_iff _ swaps

theorem peek_accountAt_iff (place : Nat) (user : Pubkey) :
    peek ⟨view.keys, view.ix.ix.accounts, 0, id⟩ place = .ok user ↔
      view.accountAt place = some user :=
  peek_ok_iff view.keys view.ix.ix.accounts id place user

/-- A header that nothing can fail to give. -/
theorem told_none {shows : (List Route → Prop) → Prop} {passes : Prop}
    (shown : ∀ inRange, ¬ shows inRange) (passed : passes) : HeaderTold (.ok none) shows passes :=
  ⟨by simp, fun inRange shows => absurd shows (shown inRange), iff_of_true rfl passed⟩

/-- A header that needs the user in one place and nothing else. -/
theorem told_user (place : Nat) (header : Pubkey → Header) (inRange : List Route → Prop)
    (shows : (List Route → Prop) → Prop) (passes : Prop)
    (nets : ∀ user routes, (∃ net, (header user).netSwap routes = .ok net) ↔ inRange routes)
    (shows_iff : ∀ range, shows range ↔ range = inRange ∧ (view.accountAt place).isSome)
    (passed : ¬ passes) :
    HeaderTold (do
      let user ← peek ⟨view.keys, view.ix.ix.accounts, 0, id⟩ place
      pure (some (header user))) shows passes := by
  refine ⟨?_, ?_, iff_of_false (by simp [Outcome.bind_ok_iff]) passed⟩
  · intro found headed
    simp only [Outcome.bind_ok_iff, peek_accountAt_iff] at headed
    obtain ⟨user, named, same⟩ := headed
    obtain rfl := Option.some.inj (Outcome.ok.inj same)
    exact ⟨inRange, (shows_iff _).mpr ⟨rfl, Option.isSome_of_eq_some named⟩, nets user⟩
  · intro range shown
    obtain ⟨rfl, named⟩ := (shows_iff range).mp shown
    obtain ⟨user, named⟩ := Option.isSome_iff_exists.mp named
    refine ⟨header user, ?_, nets user⟩
    simp only [Outcome.bind_ok_iff, peek_accountAt_iff]
    exact ⟨user, named, rfl⟩

include runs

theorem told_axiomTrade :
    HeaderTold (axiomTrade env view) (Headed env view .axiomTrade) (Unheaded view .axiomTrade) := by
  have data : view.data = .ok view.ix.ix.data := rfl
  rw [axiomTrade, data, Outcome.ok_bind]
  by_cases route : view.ix.ix.data.head? = some 0
  · rw [if_pos route, accounts_eq view id runs, Outcome.ok_bind]
    have unpassed : ¬ Unheaded view .axiomTrade := by
      intro unheaded
      cases unheaded with
      | axiomTrade other => exact other route
    refine ⟨?_, ?_, iff_of_false (by simp [Outcome.bind_ok_iff]) unpassed⟩
    · intro header headed
      simp only [Outcome.bind_ok_iff, peek_accountAt_iff] at headed
      obtain ⟨_, first, user, second, same⟩ := headed
      obtain rfl := Option.some.inj (Outcome.ok.inj same)
      exact ⟨_, .axiomTrade route (Option.isSome_of_eq_some first)
        (Option.isSome_of_eq_some second), netOfRoutes_iff env view⟩
    · intro range headed
      cases headed with
      | axiomTrade _ first second =>
        obtain ⟨payer, first⟩ := Option.isSome_iff_exists.mp first
        obtain ⟨user, second⟩ := Option.isSome_iff_exists.mp second
        refine ⟨⟨.axiomTrade, user, netOfRoutes env view⟩, ?_, netOfRoutes_iff env view⟩
        simp only [Outcome.bind_ok_iff, peek_accountAt_iff]
        exact ⟨payer, first, user, second, rfl⟩
  · rw [if_neg route]
    refine told_none ?_ (.axiomTrade route)
    intro range headed
    cases headed with
    | axiomTrade is _ _ => exact route is

theorem told_titan :
    HeaderTold (titanRouter env view) (Headed env view .titanExchangeRouter)
      (Unheaded view .titanExchangeRouter) := by
  have data : view.data = .ok view.ix.ix.data := rfl
  rw [titanRouter, data, Outcome.ok_bind, accounts_eq view id runs, Outcome.ok_bind]
  split
  · next route =>
    refine told_user view id 0 _ (Routes.InRange env.profile _) _ _
      (fun _ => netOfRoutes_iff env view) (fun range => ?_) fun unheaded => ?_
    · constructor
      · intro headed
        cases headed with
        | titanRoute _ user => exact ⟨rfl, user⟩
        | titanOther other _ _ => exact absurd route other
      · rintro ⟨rfl, user⟩
        exact .titanRoute route user
    · cases unheaded with
      | titan other _ => exact other route
  · next notRoute =>
    split
    · next other =>
      refine told_user view id 1 _ (Routes.InRange env.profile _) _ _
        (fun _ => netOfRoutes_iff env view) (fun range => ?_) fun unheaded => ?_
      · constructor
        · intro headed
          cases headed with
          | titanRoute route _ => exact absurd route notRoute
          | titanOther _ _ user => exact ⟨rfl, user⟩
        · rintro ⟨rfl, user⟩
          exact .titanOther notRoute other user
      · cases unheaded with
        | titan _ unknown => exact unknown other
    · next unknown =>
      refine told_none (fun range headed => ?_) (.titan notRoute unknown)
      cases headed with
      | titanRoute route _ => exact notRoute route
      | titanOther _ other _ => exact unknown other

/-- Behind a known discriminator the parser reads the log of Dflow, and otherwise nothing. -/
theorem told_dflow :
    HeaderTold (dflow env view) (Headed env view .dflowAgg) (Unheaded view .dflowAgg) := by
  have log : cpiData view .dflowAgg = logOf view .dflowAgg := cpiData_eq view _
  have data : view.data = .ok view.ix.ix.data := rfl
  refine ⟨fun header headed => ?_, fun range headed => ?_, ?_⟩
  · obtain ⟨place, user, net, known, named, ⟨told, each, rfl⟩, rfl⟩ :=
      (dflow_some_iff env view id header runs).mp headed
    rw [log] at each
    exact ⟨_, .dflow place told known (Option.isSome_of_eq_some named) each,
      fun _ => netOfSwaps_iff env _⟩
  · cases headed with
    | dflow place told known named each =>
      obtain ⟨user, named⟩ := Option.isSome_iff_exists.mp named
      rw [← log] at each
      exact ⟨_, (dflow_some_iff env view id _ runs).mpr ⟨place, user, _, known, named,
        ⟨told, each, rfl⟩, rfl⟩, fun _ => netOfSwaps_iff env _⟩
  · have passed : Unheaded view .dflowAgg ↔
        Logger.dflow.userPlace (view.ix.ix.data.take 8) = none := by
      refine ⟨fun unheaded => ?_, .dflow⟩
      cases unheaded with
      | dflow unknown => exact unknown
    rw [passed, dflow, data, Outcome.ok_bind]
    by_cases known : view.ix.ix.data.take 8 ∈ dflowDiscs
    · have place : Logger.dflow.userPlace (view.ix.ix.data.take 8) = some 3 := if_pos known
      have length := Logger.length_of_userPlace _ _ _ place
      rw [List.length_take] at length
      have goesOn : ¬ (view.ix.ix.data.length < 8 ∨ view.ix.ix.data.take 8 ∉ dflowDiscs) :=
        not_or.mpr ⟨by omega, not_not.mpr known⟩
      rw [if_neg goesOn, accounts_eq view id runs, place]
      simp [Outcome.bind_ok_iff]
    · have place : Logger.dflow.userPlace (view.ix.ix.data.take 8) = none := if_neg known
      simp [known, place]

theorem told_jupiter :
    HeaderTold (jupiter env view) (Headed env view .jupV6) (Unheaded view .jupV6) := by
  have log : cpiData view .jupV6 = logOf view .jupV6 := cpiData_eq view _
  have data : view.data = .ok view.ix.ix.data := rfl
  refine ⟨fun header headed => ?_, fun range headed => ?_, ?_⟩
  · obtain ⟨place, user, net, known, named, ⟨swaps, tells, nonempty, rfl⟩, rfl⟩ :=
      (jupiter_some_iff env view id header runs).mp headed
    rw [log] at tells
    exact ⟨_, .jupiter place swaps known (Option.isSome_of_eq_some named) tells nonempty,
      fun _ => netOfSwaps_iff env _⟩
  · cases headed with
    | jupiter place swaps known named tells nonempty =>
      obtain ⟨user, named⟩ := Option.isSome_iff_exists.mp named
      rw [← log] at tells
      exact ⟨_, (jupiter_some_iff env view id _ runs).mpr ⟨place, user, _, known, named,
        ⟨swaps, tells, nonempty, rfl⟩, rfl⟩, fun _ => netOfSwaps_iff env _⟩
  · rw [jupiter, data, Outcome.ok_bind]
    cases place : Logger.jupiter.userPlace (view.ix.ix.data.take 8) with
    | none =>
      have unknown : jupiterUser (view.ix.ix.data.take 8) = none := place
      exact iff_of_true (by simp [unknown, accounts_eq view id runs]) (.jupiter place)
    | some user =>
      have length := Logger.length_of_userPlace _ _ _ place
      rw [List.length_take] at length
      have known : jupiterUser (view.ix.ix.data.take 8) = some user := place
      rw [if_neg (by omega), accounts_eq view id runs, Outcome.ok_bind, known]
      simp only [Outcome.bind_ok_iff, peek_accountAt_iff, borsh_ok_iff, jupiterSwaps_iff, log]
      constructor
      · rintro ⟨key, named, swaps, tells, rest⟩
        cases swaps with
        | nil => exact .jupiterSilent user place (Option.isSome_of_eq_some named) tells
        | cons first others => simp at rest
      · intro unheaded
        cases unheaded with
        | jupiter unknown => simp [place] at unknown
        | jupiterSilent other atOther named tells =>
          obtain rfl := Option.some.inj (place.symm.trans atOther)
          obtain ⟨key, named⟩ := Option.isSome_iff_exists.mp named
          exact ⟨key, named, [], tells, rfl⟩

theorem told_okx :
    HeaderTold (okxRouter view) (Headed env view .okxDexRouter2)
      (Unheaded view .okxDexRouter2) := by
  have log : cpiData view .okxDexRouter2 = logOf view .okxDexRouter2 := cpiData_eq view _
  have data : view.data = .ok view.ix.ix.data := rfl
  refine ⟨fun header headed => ?_, fun range headed => ?_, ?_⟩
  · obtain ⟨place, user, net, known, named, tells, rfl⟩ :=
      (okx_some_iff env view id header runs).mp headed
    rw [log] at tells
    rcases tells with ⟨silent, rfl⟩ | ⟨before, payload, after, s, split, silent, tells, rfl⟩
    · exact ⟨_, .okx place known (Option.isSome_of_eq_some named) (.inl silent), by simp⟩
    · exact ⟨_, .okx place known (Option.isSome_of_eq_some named)
        (.inr ⟨before, payload, after, s, split, silent, tells⟩), by simp⟩
  · cases headed with
    | okx place known named tells =>
      obtain ⟨user, named⟩ := Option.isSome_iff_exists.mp named
      rw [← log] at tells
      rcases tells with silent | ⟨before, payload, after, s, split, silent, tells⟩
      · exact ⟨_, (okx_some_iff env view id _ runs).mpr ⟨place, user, _, known, named,
          .inl ⟨silent, rfl⟩, rfl⟩, by simp⟩
      · exact ⟨_, (okx_some_iff env view id _ runs).mpr ⟨place, user, _, known, named,
          .inr ⟨before, payload, after, s, split, silent, tells, rfl⟩, rfl⟩, by simp⟩
  · have passed : Unheaded view .okxDexRouter2 ↔
        Logger.okx.userPlace (view.ix.ix.data.take 8) = none := by
      refine ⟨fun unheaded => ?_, .okx⟩
      cases unheaded with
      | okx unknown => exact unknown
    rw [passed, okxRouter, data, Outcome.ok_bind]
    by_cases known : view.ix.ix.data.take 8 ∈ okxDiscs
    · have place : Logger.okx.userPlace (view.ix.ix.data.take 8) = some 0 := if_pos known
      have length := Logger.length_of_userPlace _ _ _ place
      rw [List.length_take] at length
      rw [if_neg (by omega), accounts_eq view id runs, Outcome.ok_bind,
        if_neg (not_not.mpr known), place]
      simp [Outcome.bind_ok_iff]
    · have place : Logger.okx.userPlace (view.ix.ix.data.take 8) = none := if_neg known
      simp [known, place, accounts_eq view id runs]

/-- The conditions of the five aggregators are those of their parsers. -/
theorem told_header (program : Program) (aggregator : isAggregator program = true) :
    HeaderTold (header env view program) (Headed env view program) (Unheaded view program) := by
  cases program with
  | axiomTrade => exact told_axiomTrade env view id runs
  | dflowAgg => exact told_dflow env view id runs
  | jupV6 => exact told_jupiter env view id runs
  | okxDexRouter2 => exact told_okx env view id runs
  | titanExchangeRouter => exact told_titan env view id runs
  | _ => cases aggregator

end Header

/-- A leg is evaluated exactly if it can be read. -/
theorem routeOf_succeeds_iff (env : Env) (view : IxView StackIx) (call : StackIx) :
    (∃ yielded, routeOf env view call = .ok yielded) ↔ LegRead env view call := by
  by_cases hop : isHop view call = true
  · obtain ⟨program, known⟩ := isHop_program view call hop
    have told := Dex.told_parse env (view.newCloned call) program known
    simp only [LegRead, routeOf, hop, if_true, forall_const, known, Outcome.ok_bind,
      Outcome.ok.injEq, exists_eq_left', ← told.shows_iff, ← told.passes_iff]
    cases Dex.parse env (view.newCloned call) program with
    | ok found => cases found <;> simp
    | err | panic => simp
  · simp [LegRead, routeOf, hop]

/-- An aggregator's parser finds a route exactly where one is recorded, and passes over data
that is none of a route. -/
theorem told_parse (env : Env) (view : IxView StackIx) (program : Program)
    (known : view.program = .ok program) (aggregator : isAggregator program = true) :
    Told (parse env view program) (HoldsSwap env view program) (Unheaded view program) := by
  obtain ⟨id, runs, _⟩ := program_known view program known
  have told := told_header env view id runs program aggregator
  have walked : (∃ routes, aggregatorRoutes env view = .ok routes) ↔
      ∀ call ∈ view.ix.inner, LegRead env view call := by
    simp only [← routeOf_succeeds_iff]
    exact Outcome.collectSome_succeeds_iff _ _
  constructor
  · constructor
    · rintro ⟨swap, parsed⟩
      obtain ⟨header, headed, routes, netted, _⟩ := (parse_some_iff env view program swap).mp parsed
      obtain ⟨inRange, shown, nets⟩ := told.found header headed
      refine ⟨inRange, shown, walked.mp ⟨_, routes⟩, fun others again => ?_⟩
      obtain rfl := Outcome.ok.inj (routes.symm.trans again)
      exact (nets _).mp ⟨_, netted⟩
    · rintro ⟨inRange, shown, legs, fits⟩
      obtain ⟨header, headed, nets⟩ := told.shown inRange shown
      obtain ⟨routes, read⟩ := walked.mpr legs
      obtain ⟨net, netted⟩ := (nets routes).mpr (fits routes read)
      exact ⟨⟨header.program, header.user, net, routes⟩,
        (parse_some_iff env view program _).mpr ⟨header, headed, read, netted, rfl, rfl⟩⟩
  · rw [← told.passes_iff, parse]
    cases header env view program with
    | ok found => cases found <;> simp [Outcome.bind_ok_iff]
    | err | panic => simp

end Aggregator

/-! ## Root instructions -/

/-- What is recorded of an instruction of a known program is a swap, by an aggregator or on a
dex. -/
def HoldsSwap (env : Env) (view : IxView StackIx) : Prop :=
  ∃ program, view.program = .ok program ∧
    (Aggregator.isAggregator program = true ∧ Aggregator.HoldsSwap env view program ∨
      Aggregator.isAggregator program = false ∧ Dex.isAmm program = true ∧
        Dex.HoldsSwap env view program)

/-- An instruction of a known program is passed over: by its aggregator or its dex, or because
the program is neither. -/
def Passes (env : Env) (view : IxView StackIx) : Prop :=
  ∃ program, view.program = .ok program ∧
    (Aggregator.isAggregator program = true ∧ Aggregator.Unheaded view program ∨
      Aggregator.isAggregator program = false ∧
        (Dex.isAmm program = true → Dex.Passes env view program))

/-- An instruction is parsed where a swap is recorded, and passed over where that is said. -/
theorem told_instruction (env : Env) (view : IxView StackIx) :
    Told (parseInstructionInternal env view) (HoldsSwap env view) (Passes env view) := by
  cases known : view.program with
  | err | panic =>
    rw [parseInstructionInternal, known]
    exact ⟨by simp [HoldsSwap, known], by simp [Passes, known]⟩
  | ok program =>
    rw [parseInstructionInternal, known, Outcome.ok_bind]
    simp only [HoldsSwap, Passes, known, Outcome.ok.injEq, exists_eq_left']
    cases aggregator : Aggregator.isAggregator program with
    | true =>
      exact ((Aggregator.told_parse env view program known aggregator).map Parsed.aggregator).congr
        (by simp) (by simp)
    | false =>
      cases listed : Dex.isAmm program with
      | true =>
        exact ((Dex.told_parse env view program known).map Parsed.dex).congr
          (by simp) (by simp)
      | false =>
        exact (Told.of_none (ε := ParseError) (α := Parsed)).congr (by simp) (by simp)

/-- The calls below a root instruction can be put in a tree, its program is in the table and not
disallowed, and a swap is recorded. -/
def RootHoldsSwap (env : Env) (tx : SolanaTx) (root : CompiledInstruction × Nat) : Prop :=
  ∃ tree, (tx.rootInstruction env.profile root.2 root.1 : Outcome WithTrace StackIx) = .ok tree ∧
    isParsed tx tree = true ∧ HoldsSwap env (tx.view tree)

/-- The calls below a root instruction can be put in a tree, and it is not looked at or passed
over. -/
def RootPasses (env : Env) (tx : SolanaTx) (root : CompiledInstruction × Nat) : Prop :=
  ∃ tree, (tx.rootInstruction env.profile root.2 root.1 : Outcome WithTrace StackIx) = .ok tree ∧
    (isParsed tx tree = true → Passes env (tx.view tree))

/-- A root instruction yields a swap exactly where one is recorded, and nothing exactly where it
is passed over. -/
theorem told_root (env : Env) (tx : SolanaTx) (root : CompiledInstruction × Nat) :
    Told (parseRoot env tx root) (RootHoldsSwap env tx root) (RootPasses env tx root) := by
  have traced (view : IxView StackIx) (yielded : Option Parsed) :
      parseInstruction env view = .ok yielded ↔
        parseInstructionInternal env view = .ok yielded := by
    rw [parseInstruction, withTrace, Outcome.mapError_eq_ok]
  have told (tree : StackIx) := told_instruction env (tx.view tree)
  simp only [parseRoot, RootHoldsSwap, RootPasses]
  cases (tx.rootInstruction env.profile root.2 root.1 : Outcome WithTrace StackIx) with
  | err | panic => exact ⟨by simp, by simp⟩
  | ok tree =>
    simp only [Outcome.ok_bind, Outcome.ok.injEq, exists_eq_left']
    cases parsed : isParsed tx tree with
    | true =>
      exact ⟨by simp [traced, (told tree).shows_iff], by simp [traced, (told tree).passes_iff]⟩
    | false => exact ⟨by simp, by simp⟩

end Graced
