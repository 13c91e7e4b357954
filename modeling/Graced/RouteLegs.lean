import Graced.AggregatorRuns
import Graced.CallPaths
import Graced.DexLabels

/-!
# The legs of a reported route

The route that is reported with an aggregator swap has one entry for every direct call of the
aggregator's root instruction that runs another program which is not disallowed, in the order
of the calls. The calls are those recorded under the position of the root instruction, of
which one byte is kept. A leg that no dex parser reads as a swap comes with its place in the
transaction and with the transfers below it, or with none if one of these cannot be read.
Another aggregator is never read as a swap: what it routed in turn does not show.
-/

namespace Graced.RouteLegs

/-- The direct call in this place runs another program than the aggregator, not disallowed. -/
def IsLeg (tx : SolanaTx) (tree : StackIx) (own : Pubkey) (place : Nat) : Prop :=
  ∃ call id, tree.inner[place]? = some call ∧
    tx.accountKeys.get call.ix.programIdIndex.toNat = some id ∧ id ≠ own ∧ id ∉ disallowed

/-- What is reported for the direct call in a place. -/
inductive LegAt (env : Env) (tx : SolanaTx) (tree : StackIx) (position place : Nat) : Route → Prop
    where
  | decoded (call : StackIx) (id : Pubkey) (swap : DexSwap)
      (called : tree.inner[place]? = some call)
      (runs : tx.accountKeys.get call.ix.programIdIndex.toNat = some id)
      (read : Dex.parse env (tx.view call) (Program.ofPubkey id) = .ok (some swap)) :
      LegAt env tx tree position place (.decoded swap)
  | undecoded (call : StackIx) (id : Pubkey) (called : tree.inner[place]? = some call)
      (runs : tx.accountKeys.get call.ix.programIdIndex.toNat = some id)
      (unread : Dex.parse env (tx.view call) (Program.ofPubkey id) = .ok none) :
      LegAt env tx tree position place (.undecoded (Program.ofPubkey id)
        [.ofNat position, .ofNat place]
        ((parseMultipleTokenTransfers env tx.accountKeys call.inner).toOption.getD []))

/-- A direct call is a leg by the ids of both programs. -/
theorem isHop_iff (tx : SolanaTx) (tree call : StackIx) (own : Pubkey)
    (runs : tx.accountKeys.get tree.ix.programIdIndex.toNat = some own) :
    Aggregator.isHop (tx.view tree) call = true ↔
      ∃ id, tx.accountKeys.get call.ix.programIdIndex.toNat = some id ∧ id ≠ own ∧
        id ∉ disallowed := by
  have ownRuns : (tx.view tree).keys.get (SolanaInstruction.programId (tx.view tree).ix).toNat =
      some own := runs
  have here : (tx.view tree).keys.get (SolanaInstruction.programId call).toNat =
      tx.accountKeys.get call.ix.programIdIndex.toNat := rfl
  rw [Aggregator.isHop, ownRuns, here]
  cases tx.accountKeys.get call.ix.programIdIndex.toNat with
  | none => simp
  | some id => simp

/-- The entry for a direct call in a place of a built tree. -/
theorem legAt_of_routeOf (env : Env) (tx : SolanaTx) (tree call : StackIx) (own : Pubkey)
    (position place : Nat) (route : Route)
    (runs : tx.accountKeys.get tree.ix.programIdIndex.toNat = some own)
    (called : tree.inner[place]? = some call)
    (path : call.path = [.ofNat position, .ofNat place])
    (walked : Aggregator.routeOf env (tx.view tree) call = .ok (some route)) :
    IsLeg tx tree own place ∧ LegAt env tx tree position place route := by
  by_cases hop : Aggregator.isHop (tx.view tree) call = true
  · obtain ⟨id, callRuns, other, allowed⟩ := (isHop_iff tx tree call own runs).mp hop
    refine ⟨⟨call, id, called, callRuns, other, allowed⟩, ?_⟩
    have inView : (tx.view call).keys.get (SolanaInstruction.programId (tx.view call).ix).toNat =
      some id := callRuns
    have known : (tx.view call).program = .ok (Program.ofPubkey id) := by
      simp [IxView.program, IxView.programId, inView]
    rw [Aggregator.routeOf, if_pos hop] at walked
    change (tx.view call).program >>= _ = _ at walked
    rw [known, Outcome.ok_bind, Outcome.bind_ok_iff] at walked
    obtain ⟨found, parsed, same⟩ := walked
    cases found with
    | some swap =>
      obtain rfl := Option.some.inj (Outcome.ok.inj same)
      exact .decoded call id swap called callRuns parsed
    | none =>
      obtain rfl := Option.some.inj (Outcome.ok.inj same)
      change LegAt env tx tree position place (.undecoded _ call.path _)
      rw [path]
      exact .undecoded call id called callRuns parsed
  · simp [Aggregator.routeOf, hop] at walked

/-- Every direct call that is a leg gets an entry. -/
theorem routeOf_none (env : Env) (tx : SolanaTx) (tree call : StackIx) (own : Pubkey) (place : Nat)
    (runs : tx.accountKeys.get tree.ix.programIdIndex.toNat = some own)
    (called : tree.inner[place]? = some call)
    (walked : Aggregator.routeOf env (tx.view tree) call = .ok none) :
    ¬ IsLeg tx tree own place := by
  rintro ⟨other, id, calledToo, callRuns⟩
  obtain rfl := Option.some.inj (called.symm.trans calledToo)
  have hop : Aggregator.isHop (tx.view tree) call = true :=
    (isHop_iff tx tree call own runs).mpr ⟨id, callRuns⟩
  rw [Aggregator.routeOf, if_pos hop, Outcome.bind_ok_iff] at walked
  obtain ⟨program, _, rest⟩ := walked
  obtain ⟨found, _, same⟩ := (Outcome.bind_ok_iff _ _ _).mp rest
  cases found <;> simp at same

/-- The places of the legs increase, and what is walked from a place on are the legs from
there on. -/
theorem walk_legs (env : Env) (tx : SolanaTx) (tree : StackIx) (own : Pubkey) (position : Nat)
    (runs : tx.accountKeys.get tree.ix.programIdIndex.toNat = some own)
    (path : ∀ (place : Nat) (call : StackIx), tree.inner[place]? = some call →
      call.path = [.ofNat position, .ofNat place])
    (calls : List StackIx) (first : Nat) (rest : tree.inner.drop first = calls)
    (routes : List Route)
    (walked : Outcome.collectSome (Aggregator.routeOf env (tx.view tree)) calls = .ok routes) :
    ∃ legs : List Nat, legs.Pairwise (· < ·) ∧
      (∀ place, place ∈ legs ↔ first ≤ place ∧ IsLeg tx tree own place) ∧
      List.Forall₂ (LegAt env tx tree position) legs routes := by
  induction calls generalizing first routes with
  | nil =>
    obtain rfl := Outcome.ok.inj walked
    refine ⟨[], .nil, fun place => iff_of_false (by simp) ?_, .nil⟩
    rintro ⟨later, call, _, called, _⟩
    have within := (List.getElem?_eq_some_iff.mp called).1
    have ended := List.drop_eq_nil_iff.mp rest
    omega
  | cons call calls inductionHypothesis =>
    have called : tree.inner[first]? = some call := by
      rw [← Nat.add_zero first, ← List.getElem?_drop, rest]
      rfl
    have restLater : tree.inner.drop (first + 1) = calls := by
      rw [← List.drop_drop, rest]
      rfl
    rw [Outcome.collectSome, Outcome.bind_ok_iff] at walked
    obtain ⟨yielded, atCall, walkedLater⟩ := walked
    cases yielded with
    | none =>
      obtain ⟨legs, increase, members, entries⟩ :=
        inductionHypothesis (first + 1) restLater routes walkedLater
      have noLeg := routeOf_none env tx tree call own first runs called atCall
      refine ⟨legs, increase, fun place => (members place).trans ?_, entries⟩
      constructor
      · rintro ⟨later, leg⟩
        exact ⟨by omega, leg⟩
      · rintro ⟨later, leg⟩
        have other : place ≠ first := by
          rintro rfl
          exact noLeg leg
        exact ⟨by omega, leg⟩
    | some route =>
      obtain ⟨others, inRest, same⟩ := (Outcome.bind_ok_iff _ _ _).mp walkedLater
      obtain rfl := Outcome.ok.inj same
      obtain ⟨legs, increase, members, entries⟩ :=
        inductionHypothesis (first + 1) restLater others inRest
      obtain ⟨isLeg, entry⟩ := legAt_of_routeOf env tx tree call own position first route runs
        called (path first call called) atCall
      refine ⟨first :: legs, ?_, ?_, .cons entry entries⟩
      · refine List.pairwise_cons.mpr ⟨fun place member => ?_, increase⟩
        exact ((members place).mp member).1
      · intro place
        rw [List.mem_cons, members]
        constructor
        · rintro (rfl | ⟨later, leg⟩)
          · exact ⟨Nat.le_refl _, isLeg⟩
          · exact ⟨by omega, leg⟩
        · rintro ⟨later, leg⟩
          rcases Nat.eq_or_lt_of_le later with same | after
          · exact .inl same.symm
          · exact .inr ⟨after, leg⟩

/-- The route of a reported aggregator swap: one entry for each leg of the root instruction that
yields it, in the order of the calls, and no decoded one for another aggregator. -/
theorem route_legs (env : Env) (tx : SolanaTx) (result : List Parsed)
    (ok : parseTransaction env tx = .ok result) (swap : AggregatorSwap)
    (member : .aggregator swap ∈ result) :
    ∃ position root own tree legs, tx.instructions[position]? = some root ∧
      parseRoot env tx (root, position) = .ok (some (.aggregator swap)) ∧
      tx.accountKeys.get root.programIdIndex.toNat = some own ∧
      Program.ofPubkey own = swap.program ∧
      (tx.rootInstruction env.profile position root : Outcome WithTrace StackIx) = .ok tree ∧
      legs.Pairwise (· < ·) ∧ (∀ place, place ∈ legs ↔ IsLeg tx tree own place) ∧
      List.Forall₂ (LegAt env tx tree position) legs swap.routes ∧
      ∀ dex, .decoded dex ∈ swap.routes → Aggregator.isAggregator dex.program = false := by
  obtain ⟨position, root, listed, found⟩ := parsed_from_root env tx result ok _ member
  obtain ⟨tree, built, rest⟩ := (Outcome.bind_ok_iff _ _ _).mp found
  by_cases known : isParsed tx tree = true
  · rw [if_pos known, parseInstruction, withTrace, Outcome.mapError_eq_ok] at rest
    obtain ⟨program, ofView, parsed⟩ := parseInstructionInternal_aggregator env _ swap rest
    obtain ⟨header, headed, walked, _, sameProgram, _⟩ :=
      (Aggregator.parse_some_iff env _ program swap).mp parsed
    obtain ⟨own, inTable, rfl⟩ := program_known _ _ ofView
    have runs : tx.accountKeys.get tree.ix.programIdIndex.toNat = some own := inTable
    have path (place : Nat) (call : StackIx) (called : tree.inner[place]? = some call) :
        call.path = [.ofNat position, .ofNat place] :=
      CallPaths.built_path env.profile root _ (.ofNat position) tree built [place] call
        (by rw [StackIx.descend, called]; rfl)
    obtain ⟨legs, increase, members, entries⟩ := walk_legs env tx tree own position runs path
      tree.inner 0 rfl swap.routes walked
    refine ⟨position, root, own, tree, legs, listed, found, ?_, ?_, built, increase, ?_, entries,
      ?_⟩
    · rw [← (tx.rootInstruction_ok env.profile position root tree built).1, runs]
    · rw [← sameProgram, Aggregator.header_labelled env _ _ header headed]
    · simpa using members
    · intro dex inRoutes
      obtain ⟨place, entry⟩ : ∃ place, LegAt env tx tree position place (.decoded dex) := by
        clear walked members increase
        generalize swap.routes = routes at entries inRoutes
        induction entries with
        | nil => simp at inRoutes
        | cons entry _ inductionHypothesis =>
          rcases List.mem_cons.mp inRoutes with rfl | later
          · exact ⟨_, entry⟩
          · exact inductionHypothesis later
      cases entry with
      | decoded call id _ called runs read =>
        rw [Dex.parse_label env _ _ dex read]
        generalize Program.ofPubkey id = program at read
        cases program <;> first | rfl | cases read
  · simp [known] at rest

/-- The second of the three calls of a Dflow swap is its only leg. -/
theorem route_legs_of_dflow :
    ∃ position tree legs, legs.Pairwise (· < ·) ∧
      (∀ place, place ∈ legs ↔ IsLeg Aggregator.loggingRoute tree Ids.dflowAgg place) ∧
      List.Forall₂ (LegAt poolLibraries Aggregator.loggingRoute tree position) legs
        [.undecoded (.unknown ⟨3⟩) [0, 1] []] := by
  obtain ⟨position, root, own, tree, legs, _, _, _, label, _, increase, members, entries, _⟩ :=
    route_legs poolLibraries Aggregator.loggingRoute _ Aggregator.loggingRoute_parsed
      Aggregator.loggedRoute List.mem_cons_self
  obtain rfl : own = Ids.dflowAgg := by
    rw [← Program.pubkey_ofPubkey own, label]
    rfl
  exact ⟨position, tree, legs, increase, members, entries⟩

end Graced.RouteLegs
