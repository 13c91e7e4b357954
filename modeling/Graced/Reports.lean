import Graced.DexLabels

/-!
# The reported swaps, one by one

The views on which the dex parsers are run come in a fixed order: the root instructions as
they stand in the transaction, and under a root instruction of an aggregator its legs. What
a parsed transaction reports is, in this order, what the parsers found there, each swap once.
-/

namespace Graced

/-- The swap of a route entry, if it was decoded. -/
def Route.swap? : Route → Option DexSwap
  | decoded swap => some swap
  | undecoded _ _ _ => none

/-- The dex swaps in one result. -/
def Parsed.swaps : Parsed → List DexSwap
  | dex swap => [swap]
  | aggregator found => found.routes.filterMap Route.swap?

/-- All dex swaps of a result, in order. -/
def reported (result : List Parsed) : List DexSwap := result.flatMap Parsed.swaps

namespace Reports

/-- The view of a root instruction, if it is parsed at all. -/
def rootView (env : Env) (tx : SolanaTx) (root : CompiledInstruction × Nat) :
    Option (IxView StackIx) :=
  (((tx.rootInstruction env.profile root.2 root.1 : Outcome WithTrace StackIx).toOption).filter
    (fun tree => isParsed tx tree)).map tx.view

/-- The legs of a route that starts at a root instruction. -/
def hops (view : IxView StackIx) : List (IxView StackIx) :=
  (view.ix.inner.filter (Aggregator.isHop view)).map (fun child => view.newCloned child)

/-- The aggregator parser goes on to the routes. -/
def headed (env : Env) (view : IxView StackIx) (program : Program) : Bool :=
  (Aggregator.header env view program).toOption.join.isSome

/-- The views on which a dex parser is run for a root instruction of this program. -/
def dexViewsOf (env : Env) (view : IxView StackIx) (program : Program) : List (IxView StackIx) :=
  if Aggregator.isAggregator program then
    if headed env view program then hops view else []
  else if Dex.isAmm program then [view]
  else []

/-- The views on which a dex parser is run for a root instruction. -/
def dexViews (env : Env) (view : IxView StackIx) : List (IxView StackIx) :=
  view.program.toOption.elim [] (dexViewsOf env view)

/-- The views on which a dex parser is run, in order. -/
def dispatched (env : Env) (tx : SolanaTx) : List (IxView StackIx) :=
  (tx.enumerated.filterMap (rootView env tx)).flatMap (dexViews env)

/-- What the dex parser for the program of a view finds. -/
def found (env : Env) (view : IxView StackIx) : Option DexSwap :=
  view.program.toOption.bind (fun program => (Dex.parse env view program).toOption.join)

/-- The dex parser for the program of a view succeeds, with or without a swap. -/
def Succeeds (env : Env) (view : IxView StackIx) : Prop :=
  ∃ program yielded, view.program = .ok program ∧ Dex.parse env view program = .ok yielded

/-- A leg is decoded as what the dex parser finds there. -/
theorem routeOf_found (env : Env) (view : IxView StackIx) (child : StackIx)
    (route : Option Route) (walked : Aggregator.routeOf env view child = .ok route) :
    (Aggregator.isHop view child = true → Succeeds env (view.newCloned child)) ∧
      route.bind Route.swap? =
        if Aggregator.isHop view child then found env (view.newCloned child) else none := by
  by_cases hop : Aggregator.isHop view child = true
  · rw [Aggregator.routeOf, if_pos hop] at walked
    obtain ⟨program, known, rest⟩ := (Outcome.bind_ok_iff _ _ _).mp walked
    obtain ⟨yielded, parsed, same⟩ := (Outcome.bind_ok_iff _ _ _).mp rest
    refine ⟨fun _ => ⟨program, yielded, known, parsed⟩, ?_⟩
    cases yielded with
    | none =>
      obtain rfl := Outcome.ok.inj same
      simp [hop, found, known, parsed, Route.swap?]
    | some swap =>
      obtain rfl := Outcome.ok.inj same
      simp [hop, found, known, parsed, Route.swap?]
  · rw [Aggregator.routeOf, if_neg hop] at walked
    obtain rfl := Outcome.ok.inj walked
    simp [hop]

/-- The decoded legs of a walked route are what the dex parsers find there. -/
theorem routes_found (env : Env) (view : IxView StackIx) (routes : List Route)
    (walked : Aggregator.aggregatorRoutes env view = .ok routes) :
    (∀ hop ∈ hops view, Succeeds env hop) ∧
      routes.filterMap Route.swap? = (hops view).filterMap (found env) := by
  obtain ⟨evaluated, kept⟩ := Outcome.collectSome_eq_filterMap _ _ _ walked
  constructor
  · intro hop member
    obtain ⟨child, inInner, rfl⟩ := List.mem_map.mp member
    obtain ⟨listed, isHop⟩ := List.mem_filter.mp inInner
    obtain ⟨route, ran⟩ := evaluated child listed
    exact (routeOf_found env view child route ran).1 isHop
  · rw [kept, List.filterMap_filterMap, hops, List.filterMap_map, List.filterMap_filter]
    apply List.filterMap_congr
    intro child listed
    obtain ⟨route, ran⟩ := evaluated child listed
    simpa [ran] using (routeOf_found env view child route ran).2

/-- What a root instruction yields is what the dex parsers find for it. -/
theorem parseInstructionInternal_found (env : Env) (view : IxView StackIx)
    (yielded : Option Parsed) (parsed : parseInstructionInternal env view = .ok yielded) :
    (∀ site ∈ dexViews env view, Succeeds env site) ∧
      yielded.toList.flatMap Parsed.swaps = (dexViews env view).filterMap (found env) := by
  obtain ⟨program, known, rest⟩ := (Outcome.bind_ok_iff _ _ _).mp parsed
  rw [dexViews, known, Outcome.toOption_ok, Option.elim_some, dexViewsOf]
  by_cases aggregator : Aggregator.isAggregator program = true
  · rw [if_pos aggregator] at rest ⊢
    obtain ⟨swap, walked, same⟩ := (Outcome.bind_ok_iff _ _ _).mp rest
    obtain rfl := Outcome.ok.inj same
    obtain ⟨header, atHeader, walked⟩ := (Outcome.bind_ok_iff _ _ _).mp walked
    cases header with
    | none =>
      obtain rfl := Outcome.ok.inj walked
      simp [headed, atHeader]
    | some header =>
      obtain ⟨routes, inRoutes, walked⟩ := (Outcome.bind_ok_iff _ _ _).mp walked
      obtain ⟨net, _, same⟩ := (Outcome.bind_ok_iff _ _ _).mp walked
      obtain rfl := Outcome.ok.inj same
      obtain ⟨succeed, same⟩ := routes_found env view routes inRoutes
      rw [if_pos (by simp [headed, atHeader])]
      exact ⟨succeed, by simpa [Parsed.swaps] using same⟩
  · rw [if_neg aggregator] at rest ⊢
    by_cases dex : Dex.isAmm program = true
    · rw [if_pos dex] at rest ⊢
      obtain ⟨swap, atDex, same⟩ := (Outcome.bind_ok_iff _ _ _).mp rest
      obtain rfl := Outcome.ok.inj same
      constructor
      · intro site member
        obtain rfl := List.mem_singleton.mp member
        exact ⟨program, swap, known, atDex⟩
      · cases swap <;> simp [List.filterMap, found, known, atDex, Parsed.swaps]
    · rw [if_neg dex] at rest ⊢
      obtain rfl := Outcome.ok.inj rest
      simp

/-- A parsed transaction reports, in order, what the dex parsers found, and none of them
failed. -/
theorem reported_found (env : Env) (tx : SolanaTx) (result : List Parsed)
    (ok : parseTransaction env tx = .ok result) :
    (∀ site ∈ dispatched env tx, Succeeds env site) ∧
      reported result = (dispatched env tx).filterMap (found env) := by
  obtain ⟨evaluated, kept⟩ := Outcome.collectSome_eq_filterMap _ _ _ ok
  have each (root : CompiledInstruction × Nat) (listed : root ∈ tx.enumerated) :
      (∀ view ∈ rootView env tx root, ∀ site ∈ dexViews env view, Succeeds env site) ∧
        ((parseRoot env tx root).toOption.join.toList.flatMap Parsed.swaps) =
          (rootView env tx root).toList.flatMap
            (fun view => (dexViews env view).filterMap (found env)) := by
    obtain ⟨yielded, ran⟩ := evaluated root listed
    obtain ⟨tree, built, parsed⟩ := (Outcome.bind_ok_iff _ _ _).mp ran
    rw [ran, Outcome.toOption_ok, Option.join_some, rootView, built, Outcome.toOption_ok]
    by_cases known : isParsed tx tree = true
    · rw [if_pos known, parseInstruction, withTrace, Outcome.mapError_eq_ok] at parsed
      obtain ⟨succeed, same⟩ := parseInstructionInternal_found env (tx.view tree) yielded parsed
      rw [Option.filter_some_pos known, Option.map_some]
      exact ⟨by simpa using succeed, by simpa using same⟩
    · rw [if_neg known] at parsed
      obtain rfl := Outcome.ok.inj parsed
      simp [known]
  constructor
  · intro site member
    obtain ⟨view, isRoot, atSite⟩ := List.mem_flatMap.mp member
    obtain ⟨root, listed, atView⟩ := List.mem_filterMap.mp isRoot
    exact (each root listed).1 view atView site atSite
  · rw [kept, reported, dispatched, List.filterMap_flatMap, List.filterMap_eq_flatMap_toList,
      List.filterMap_eq_flatMap_toList, List.flatMap_assoc, List.flatMap_assoc]
    apply List.flatMap_congr
    intro root listed
    exact (each root listed).2

end Reports

end Graced
