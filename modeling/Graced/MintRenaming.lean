import Graced.Renaming
import Graced.Routes

/-!
# Mints under other names

The netting of a route never looks into a mint. It keys its balances and its totals by mints,
compares a mint with the entry and with the mint a neighbouring leg hands on, and copies mints
into its result. With all mints renamed one to one a route has the renamed net swap, or fails
for the same reason at the renamed mint.
-/

namespace Graced

section Names

variable (names : Equiv.Perm Pubkey)

/-- The swap between the renamed mints. -/
def Swap.rename (swap : Swap) : Swap :=
  { swap with inputMint := names swap.inputMint, outputMint := names swap.outputMint }

/-- The same failure, at the renamed mint. -/
def SwapGraphError.rename : SwapGraphError → SwapGraphError
  | .emptyRoute => .emptyRoute
  | .imbalancedRoute mint amount => .imbalancedRoute (names mint) amount

/-- The same failure of a route. -/
def RouteError.rename : RouteError → RouteError
  | .ambiguousTransfers => .ambiguousTransfers
  | .unresolvedLeg index => .unresolvedLeg index
  | .unknownMint => .unknownMint
  | .resolution error => .resolution (error.rename names)

/-- The transfer of the renamed mint, between the same accounts. -/
def TokenTransfer.renameMint (transfer : TokenTransfer) : TokenTransfer :=
  { transfer with mint := transfer.mint.map names }

/-- The leg with all its mints renamed. -/
def Route.rename : Route → Route
  | .decoded dex => .decoded { dex with swap := dex.swap.rename names }
  | .undecoded program path transfers =>
    .undecoded program path (transfers.map (TokenTransfer.renameMint names))

/-- The same amount of the renamed mint. -/
def MintAmount.rename (side : MintAmount) : MintAmount := { side with mint := names side.mint }

/-- The same shape between the renamed mints. -/
def LegShape.rename : LegShape → LegShape
  | .known swap => .known (swap.rename names)
  | .candidates a b => .candidates (a.rename names) (b.rename names)

end Names

/-- A sum is no name: what is done with it is renamed if that is. -/
theorem rename_add64_bind {ε δ α β : Type} (profile : Profile) (value : α → β) (error : ε → δ)
    (a b : UInt64) (next : UInt64 → Outcome ε α) (renamedNext : UInt64 → Outcome δ β)
    (each : ∀ sum, renamedNext sum = (next sum).rename value error) :
    (profile.add64 a b >>= renamedNext) = (profile.add64 a b >>= next).rename value error := by
  unfold Profile.add64
  split_ifs
  · rfl
  · exact each (a + b)

namespace SwapGraph

variable (names : Equiv.Perm Pubkey)

/-- The same amounts under the renamed mints. -/
def Walk.rename (walk : Walk) : Walk := { walk with balance := walk.balance.renameKeys names }

/-- The renamed mint has the balance of the mint. -/
@[simp] theorem available_rename (walk : Walk) (mint : Pubkey) :
    (walk.rename names).available (names mint) = walk.available mint := by
  simp [Walk.available, Walk.rename]

/-- Taking out an input. -/
theorem draw_rename (entry : Pubkey) (walk : Walk) (s : Swap) :
    draw (names entry) (walk.rename names) (s.rename names) =
      (draw entry walk s).rename (Walk.rename names) (SwapGraphError.rename names) := by
  have held : (walk.rename names).available (s.rename names).inputMint =
      walk.available s.inputMint := available_rename names walk s.inputMint
  have isEntry : (s.rename names).inputMint = names entry ↔ s.inputMint = entry :=
    names.injective.eq_iff
  have amount : (s.rename names).inputAmount = s.inputAmount := rfl
  simp only [draw, held, isEntry, amount]
  split_ifs <;> simp [Outcome.rename, Walk.rename, Swap.rename, SwapGraphError.rename]

/-- One round of the loop. -/
theorem step_rename (profile : Profile) (entry : Pubkey) (walk : Walk) (s : Swap) :
    step profile (names entry) (walk.rename names) (s.rename names) =
      (step profile entry walk s).rename (Walk.rename names) (SwapGraphError.rename names) := by
  simp only [step, draw_rename]
  apply Outcome.rename_bind
  intro drawn
  have held : (drawn.rename names).available (s.rename names).outputMint =
      drawn.available s.outputMint := available_rename names drawn s.outputMint
  have amount : (s.rename names).outputAmount = s.outputAmount := rfl
  rw [held, amount]
  apply rename_add64_bind
  intro credited
  simp [Outcome.rename, Walk.rename, Swap.rename]

/-- The loop. -/
theorem walk_rename (profile : Profile) (entry : Pubkey) (start : Walk) (swaps : List Swap) :
    walk profile (names entry) (start.rename names) (swaps.map (Swap.rename names)) =
      (walk profile entry start swaps).rename (Walk.rename names)
        (SwapGraphError.rename names) := by
  induction swaps generalizing start with
  | nil => rfl
  | cons s rest inductionHypothesis =>
    simp only [List.map_cons, walk, step_rename]
    apply Outcome.rename_bind
    exact inductionHypothesis

/-- The net swap of renamed swaps is the renamed net swap. -/
theorem net_rename (profile : Profile) (swaps : List Swap) :
    swap profile ⟨swaps.map (Swap.rename names)⟩ =
      (swap profile ⟨swaps⟩).rename (Swap.rename names) (SwapGraphError.rename names) := by
  cases swaps with
  | nil => rfl
  | cons first rest =>
    have last : (((first :: rest).map (Swap.rename names)).getLast (by simp)).outputMint =
        names ((first :: rest).getLast (by simp)).outputMint := by
      rw [List.getLast_map]
      rfl
    have walked := walk_rename names profile first.inputMint Walk.start (first :: rest)
    simp only [List.map_cons] at last walked
    simp only [swap, List.map_cons, last]
    have start : Walk.start.rename names = Walk.start := rfl
    rw [start] at walked
    have entry : (first.rename names).inputMint = names first.inputMint := rfl
    rw [entry, walked]
    apply Outcome.rename_bind
    intro final
    simp only [available_rename]
    rfl

end SwapGraph

namespace Routes

variable (names : Equiv.Perm Pubkey)

/-- The totals of the renamed transfers. -/
theorem totals_rename (profile : Profile) (sums : AssocMap Pubkey UInt64)
    (transfers : List TokenTransfer) :
    totals profile (sums.renameKeys names) (transfers.map (TokenTransfer.renameMint names)) =
      (totals profile sums transfers).rename (AssocMap.renameKeys names)
        (RouteError.rename names) := by
  induction transfers generalizing sums with
  | nil => rfl
  | cons transfer rest inductionHypothesis =>
    cases known : transfer.mint with
    | none => simp [totals, TokenTransfer.renameMint, known, Outcome.rename, RouteError.rename]
    | some mint =>
      have renamed : (transfer.renameMint names).mint = some (names mint) := by
        simp [TokenTransfer.renameMint, known]
      have amount : (transfer.renameMint names).amount = transfer.amount := rfl
      simp only [List.map_cons, totals, known, renamed, amount, AssocMap.get_renameKeys]
      apply rename_add64_bind
      intro sum
      rw [AssocMap.insert_renameKeys]
      exact inductionHypothesis (sums.insert mint sum)

/-- Sorting looks at the amounts only. -/
theorem sorted_rename (entries : List (Pubkey × UInt64)) :
    sorted (entries.map (Prod.map names id)) = (sorted entries).map (Prod.map names id) := by
  refine (List.map_insertionSort _ _ (Prod.map names id) entries ?_).symm
  intro first _ second _
  rfl

/-- The two sides of a leg, from its renamed transfers. -/
theorem candidatesFromTransfers_rename (profile : Profile)
    (order : IterationOrder Pubkey UInt64) (transfers : List TokenTransfer) :
    candidatesFromTransfers profile (order.rename names)
        (transfers.map (TokenTransfer.renameMint names)) =
      (candidatesFromTransfers profile order transfers).rename (LegShape.rename names)
        (RouteError.rename names) := by
  have summed := totals_rename names profile .empty transfers
  rw [AssocMap.renameKeys_empty] at summed
  simp only [candidatesFromTransfers, summed]
  apply Outcome.rename_bind
  intro sums
  have walked : (order.rename names).arrange (sums.renameKeys names).entries =
      (order.arrange sums.entries).map (Prod.map names id) :=
    order.arrange_rename names sums.entries
  rw [walked, sorted_rename]
  cases sorted (order.arrange sums.entries) with
  | nil => rfl
  | cons first others =>
    cases others with
    | nil => rfl
    | cons second more => rfl

/-- The shape of a leg. -/
theorem shapeOf_rename (profile : Profile) (order : IterationOrder Pubkey UInt64)
    (route : Route) :
    shapeOf profile (order.rename names) (route.rename names) =
      (shapeOf profile order route).rename (LegShape.rename names) (RouteError.rename names) := by
  cases route with
  | decoded dex => rfl
  | undecoded program path transfers =>
    exact candidatesFromTransfers_rename names profile order transfers

/-- The shapes of all legs. -/
theorem shapes_rename (profile : Profile) (orders : Nat → IterationOrder Pubkey UInt64)
    (routes : List Route) :
    shapes profile (fun index => (orders index).rename names) (routes.map (Route.rename names)) =
      (shapes profile orders routes).rename (List.map (LegShape.rename names))
        (RouteError.rename names) := by
  simp only [shapes, List.zipIdx_map]
  apply Outcome.rename_collect
  intro leg _
  exact shapeOf_rename names profile (orders leg.2) leg.1

/-- The direction of a leg between renamed mints. -/
theorem resolve_rename (a b : MintAmount) (held : Pubkey) (asInput : Bool) :
    resolve (a.rename names) (b.rename names) (names held) asInput =
      (resolve a b held asInput).map (Swap.rename names) := by
  have first : (a.rename names).mint = names held ↔ a.mint = held := names.injective.eq_iff
  have second : (b.rename names).mint = names held ↔ b.mint = held := names.injective.eq_iff
  simp only [resolve, first, second]
  cases asInput <;> split_ifs <;> rfl

/-- One leg of a pass. -/
theorem orient_rename (asInput : Bool) (held : Option Pubkey) (shape : LegShape) :
    orient asInput (held.map names) (shape.rename names) =
      ((orient asInput held shape).1.rename names, (orient asInput held shape).2.map names) := by
  cases shape with
  | known swap => cases asInput <;> rfl
  | candidates a b =>
    cases held with
    | none => rfl
    | some mint =>
      simp only [LegShape.rename, orient, Option.map_some, Option.bind_some, resolve_rename]
      cases resolve a b mint asInput with
      | none => rfl
      | some swap => cases asInput <;> rfl

/-- The forward pass. -/
theorem forward_rename (held : Option Pubkey) (legs : List LegShape) :
    forward (held.map names) (legs.map (LegShape.rename names)) =
      (forward held legs).map (LegShape.rename names) := by
  induction legs generalizing held with
  | nil => rfl
  | cons shape rest inductionHypothesis =>
    simp [forward, orient_rename, inductionHypothesis]

/-- The backward pass. -/
theorem backward_rename (legs : List LegShape) :
    backward (legs.map (LegShape.rename names)) =
      ((backward legs).1.map (LegShape.rename names), (backward legs).2.map names) := by
  induction legs with
  | nil => rfl
  | cons shape rest inductionHypothesis =>
    simp [backward, orient_rename, inductionHypothesis]

/-- The swaps of legs that all have a direction. -/
theorem knownSwaps_rename (legs : List LegShape) :
    knownSwaps (legs.map (LegShape.rename names)) =
      (knownSwaps legs).rename (List.map (Swap.rename names)) (RouteError.rename names) := by
  simp only [knownSwaps, List.zipIdx_map]
  apply Outcome.rename_collect
  intro leg _
  obtain ⟨shape, index⟩ := leg
  cases shape <;> rfl

/-- The swaps of a route. -/
theorem swaps_rename (profile : Profile) (orders : Nat → IterationOrder Pubkey UInt64)
    (routes : List Route) :
    swaps profile (fun index => (orders index).rename names) (routes.map (Route.rename names)) =
      (swaps profile orders routes).rename (List.map (Swap.rename names))
        (RouteError.rename names) := by
  have decoded (route : Route) : (route.rename names).isDecoded = route.isDecoded := by
    cases route <;> rfl
  have undecoded : (routes.map (Route.rename names)).any (fun route => !route.isDecoded) =
      routes.any (fun route => !route.isDecoded) := by
    simp [List.any_map, Function.comp_def, decoded]
  simp only [swaps, undecoded]
  by_cases resolved : routes.any (fun route => !route.isDecoded)
  · simp only [resolved, if_true, toSwaps, shapes_rename]
    apply Outcome.rename_bind
    intro legs
    have passed := forward_rename names none legs
    simp only [Option.map_none] at passed
    rw [passed, backward_rename]
    exact knownSwaps_rename names _
  · simp only [resolved, Bool.false_eq_true, if_false, Outcome.rename, List.filterMap_map,
      List.map_filterMap]
    congr 2
    funext route
    cases route <;> rfl

/-- Whatever one-to-one renaming of mints is applied to the legs of a route, its net swap is
the renamed net swap; where there is none, the failure is the same at the renamed mint. -/
theorem swap_rename (profile : Profile) (orders : Nat → IterationOrder Pubkey UInt64)
    (routes : List Route) :
    swap profile (fun index => (orders index).rename names) (routes.map (Route.rename names)) =
      (swap profile orders routes).rename (Swap.rename names) (RouteError.rename names) := by
  simp only [swap, swaps_rename]
  apply Outcome.rename_bind
  intro legs
  rw [SwapGraph.net_rename]
  cases SwapGraph.swap profile ⟨legs⟩ <;> rfl

end Routes

end Graced
