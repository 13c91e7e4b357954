import Graced.SolMerge
import Mathlib.Data.Multiset.Basic

/-!
# One swap for every owner

The merged changes are grouped by owner, and a group with losses and gains becomes a swap.
What comes out depends on the changes that the map holds and not on the order in which it is
walked, nor on that in which the groups are.
-/

namespace Graced.BalanceDiff

/-- The amount that is reported of a loss: its size. The least `i128` has no size of its type
and is reported as it is. -/
def soldAmount (delta : Int) : Int := if delta = -2 ^ 127 then delta else -delta

/-- The losses of an owner. -/
def lossesOf (deltas : Deltas) (owner : Pubkey) : List MintEntry :=
  (deltas.entries.filter (fun entry => entry.1.1 = owner ∧ entry.2.delta < 0)).map
    (fun entry => (entry.1.2, soldAmount entry.2.delta, entry.2.decimals))

/-- The gains of an owner. -/
def gainsOf (deltas : Deltas) (owner : Pubkey) : List MintEntry :=
  (deltas.entries.filter (fun entry => entry.1.1 = owner ∧ 0 < entry.2.delta)).map
    (fun entry => (entry.1.2, entry.2.delta, entry.2.decimals))

/-- The events are one swap for every owner with losses and gains, of exactly these. -/
structure ExactSwaps (isOnCurve : Pubkey → Bool) (deltas : Deltas) (events : List SwapEvent) :
    Prop where
  once : (events.map SwapEvent.trader).Nodup
  traders : ∀ owner, owner ∈ events.map SwapEvent.trader ↔
    lossesOf deltas owner ≠ [] ∧ gainsOf deltas owner ≠ []
  sold : ∀ event ∈ events, event.sold.Perm (lossesOf deltas event.trader)
  bought : ∀ event ∈ events, event.bought.Perm (gainsOf deltas event.trader)
  mediated : ∀ event ∈ events, event.isProgramMediated = !isOnCurve event.trader

/-- What an event says, up to the order of its entries. -/
def contents (event : SwapEvent) : Pubkey × Multiset MintEntry × Multiset MintEntry × Bool :=
  (event.trader, event.sold, event.bought, event.isProgramMediated)

/-- What events say, up to their order and that of their entries. -/
def allContents (events : List SwapEvent) :
    Multiset (Pubkey × Multiset MintEntry × Multiset MintEntry × Bool) := events.map contents

/-- A loss whose size can be taken: without overflow checks, any. -/
def Negatable (profile : Profile) (d : BalanceDelta) : Prop :=
  ¬ (profile.overflowChecks = true ∧ d.delta = -2 ^ 127)

/-! ## Equal changes, equal swaps -/

/-- Maps with the same entries have the same losses, in some order. -/
theorem lossesOf_perm (first second : Deltas) (same : first.entries.Perm second.entries)
    (owner : Pubkey) : (lossesOf first owner).Perm (lossesOf second owner) :=
  (same.filter _).map _

/-- Maps with the same entries have the same gains, in some order. -/
theorem gainsOf_perm (first second : Deltas) (same : first.entries.Perm second.entries)
    (owner : Pubkey) : (gainsOf first owner).Perm (gainsOf second owner) :=
  (same.filter _).map _

/-- Lists that are rearrangements of each other are empty together. -/
theorem perm_ne_nil {A : Type} (first second : List A) (same : first.Perm second) :
    first ≠ [] ↔ second ≠ [] :=
  not_congr ⟨fun empty => List.nil_perm.mp (empty ▸ same), fun empty =>
    List.perm_nil.mp (empty ▸ same)⟩

/-- What the event of an owner has to say. -/
def saying (isOnCurve : Pubkey → Bool) (deltas : Deltas) (owner : Pubkey) :
    Pubkey × Multiset MintEntry × Multiset MintEntry × Bool :=
  (owner, lossesOf deltas owner, gainsOf deltas owner, !isOnCurve owner)

/-- Exact swaps say what their traders' events have to. -/
theorem exactSwaps_saying (isOnCurve : Pubkey → Bool) (deltas : Deltas)
    (events : List SwapEvent) (exact : ExactSwaps isOnCurve deltas events) :
    events.map contents = (events.map SwapEvent.trader).map (saying isOnCurve deltas) := by
  rw [List.map_map]
  apply List.map_congr_left
  intro event member
  simp only [contents, Function.comp_apply, saying, exact.mediated event member,
    Multiset.coe_eq_coe.mpr (exact.sold event member),
    Multiset.coe_eq_coe.mpr (exact.bought event member)]

/-- Equal changes have the same to say. -/
theorem saying_perm (isOnCurve : Pubkey → Bool) (first second : Deltas)
    (same : first.entries.Perm second.entries) (owner : Pubkey) :
    saying isOnCurve first owner = saying isOnCurve second owner := by
  simp only [saying, Multiset.coe_eq_coe.mpr (lossesOf_perm first second same owner),
    Multiset.coe_eq_coe.mpr (gainsOf_perm first second same owner)]

/-- The swaps of equal changes say the same. -/
theorem exactSwaps_contents (isOnCurve : Pubkey → Bool) (first second : Deltas)
    (events others : List SwapEvent) (same : first.entries.Perm second.entries)
    (exact : ExactSwaps isOnCurve first events) (alsoExact : ExactSwaps isOnCurve second others) :
    allContents events = allContents others := by
  have traders : (events.map SwapEvent.trader).Perm (others.map SwapEvent.trader) := by
    apply (List.perm_ext_iff_of_nodup exact.once alsoExact.once).mpr
    intro owner
    rw [exact.traders, alsoExact.traders,
      perm_ne_nil _ _ (lossesOf_perm first second same owner),
      perm_ne_nil _ _ (gainsOf_perm first second same owner)]
  apply Multiset.coe_eq_coe.mpr
  rw [exactSwaps_saying isOnCurve first events exact,
    exactSwaps_saying isOnCurve second others alsoExact,
    funext (saying_perm isOnCurve first second same)]
  exact traders.map (saying isOnCurve second)

/-! ## Groups -/

/-- The group of an owner is all the owner's changes, in the order of the walk. -/
theorem byOwner_get (values : List BalanceDelta) (owner : Pubkey) :
    (byOwner values).get owner =
      if values.filter (fun d => d.owner = owner) = [] then none
      else some (values.filter (fun d => d.owner = owner)) := by
  induction values using List.reverseRecOn with
  | nil => rfl
  | append_singleton values d inductionHypothesis =>
    have step : byOwner (values ++ [d]) = (byOwner values).insert d.owner
        (((byOwner values).get d.owner).getD [] ++ [d]) := by
      simp [byOwner, List.foldl_append]
    rw [step, AssocMap.get_insert, List.filter_append]
    by_cases same : d.owner = owner
    · subst same
      rw [if_pos rfl, inductionHypothesis]
      by_cases first : values.filter (fun other => other.owner = d.owner) = []
      · simp [first]
      · simp [first]
    · rw [if_neg same, inductionHypothesis]
      simp [same]

/-- The losses in a group. -/
def groupLosses (group : List BalanceDelta) : List MintEntry :=
  (group.filter (fun d => d.delta < 0)).map (fun d => (d.mint, soldAmount d.delta, d.decimals))

/-- The gains in a group. -/
def groupGains (group : List BalanceDelta) : List MintEntry :=
  (group.filter (fun d => 0 < d.delta)).map (fun d => (d.mint, d.delta, d.decimals))

/-- The swap of one owner. -/
def swapOf (isOnCurve : Pubkey → Bool) (group : Pubkey × List BalanceDelta) : Option SwapEvent :=
  if groupLosses group.2 = [] ∨ groupGains group.2 = [] then none
  else some ⟨group.1, groupLosses group.2, groupGains group.2, !isOnCurve group.1⟩

/-- The size of an `i128` is reported, unless taking it overflows under checks. -/
theorem neg128_ok {ε : Type} (profile : Profile) (delta amount : Int) (fits : InI128 delta) :
    (profile.neg128 delta : Outcome ε Int) = .ok amount ↔
      ¬ (profile.overflowChecks = true ∧ delta = -2 ^ 127) ∧ amount = soldAmount delta := by
  unfold InI128 at fits
  by_cases least : delta = -2 ^ 127
  · have tooLarge : ¬ InI128 (-delta) := by
      unfold InI128
      omega
    have wraps : wrapI128 (-delta) = delta := by
      unfold wrapI128
      omega
    rw [Profile.neg128, Profile.i128, if_neg tooLarge, soldAmount, if_pos least, wraps]
    cases profile.overflowChecks with
    | true =>
      constructor
      · intro panics
        simp at panics
      · rintro ⟨allowed, _⟩
        exact absurd ⟨rfl, least⟩ allowed
    | false =>
      constructor
      · intro wrapped
        exact ⟨fun checked => Bool.false_ne_true checked.1, (Outcome.ok.inj wrapped).symm⟩
      · rintro ⟨_, rfl⟩
        rfl
  · have small : InI128 (-delta) := by
      unfold InI128
      omega
    rw [Profile.neg128, i128_fits profile _ small, soldAmount, if_neg least]
    constructor
    · intro exact
      exact ⟨fun checked => least checked.2, (Outcome.ok.inj exact).symm⟩
    · rintro ⟨_, rfl⟩
      rfl

/-- A loss that can be negated is reported. -/
theorem soldEntry_ok {ε : Type} (profile : Profile) (d : BalanceDelta) (fits : InI128 d.delta)
    (negatable : Negatable profile d) :
    (soldEntry profile d : Outcome ε MintEntry) =
      .ok (d.mint, soldAmount d.delta, d.decimals) := by
  have amount : (profile.neg128 d.delta : Outcome ε Int) = .ok (soldAmount d.delta) :=
    (neg128_ok profile d.delta _ fits).mpr ⟨negatable, rfl⟩
  simp [soldEntry, amount]

/-- The event of a group whose losses can be negated. -/
theorem eventOf_ok {ε : Type} (profile : Profile) (isOnCurve : Pubkey → Bool)
    (group : Pubkey × List BalanceDelta) (fits : ∀ d ∈ group.2, InI128 d.delta)
    (negatable : ∀ d ∈ group.2, d.delta < 0 → Negatable profile d) :
    (eventOf profile isOnCurve group : Outcome ε (Option SwapEvent)) =
      .ok (swapOf isOnCurve group) := by
  have sold : (Outcome.collect (soldEntry profile) (group.2.filter (fun d => d.delta < 0)) :
      Outcome ε (List MintEntry)) = .ok (groupLosses group.2) := by
    apply Outcome.collect_of_ok
    intro d member
    obtain ⟨inGroup, loss⟩ := List.mem_filter.mp member
    exact soldEntry_ok profile d (fits d inGroup) (negatable d inGroup (by simpa using loss))
  have bought : (group.2.filter (fun d => 0 < d.delta)).map
      (fun d => (d.mint, d.delta, d.decimals)) = groupGains group.2 := rfl
  simp only [eventOf, sold, Outcome.ok_bind, bought, List.isEmpty_iff]
  by_cases missing : groupLosses group.2 = [] ∨ groupGains group.2 = []
  · rw [if_pos missing, swapOf, if_pos missing]
    rfl
  · rw [if_neg missing, swapOf, if_neg missing]
    rfl

/-- A group for which there is a result has only losses that can be negated. -/
theorem eventOf_negatable {ε : Type} (profile : Profile) (isOnCurve : Pubkey → Bool)
    (group : Pubkey × List BalanceDelta) (event : Option SwapEvent)
    (evaluated : (eventOf profile isOnCurve group : Outcome ε (Option SwapEvent)) = .ok event)
    (d : BalanceDelta) (member : d ∈ group.2) (fits : InI128 d.delta) (loss : d.delta < 0) :
    Negatable profile d := by
  obtain ⟨sold, collected, _⟩ := (Outcome.bind_ok_iff _ _ _).mp evaluated
  have listed : d ∈ group.2.filter (fun d => d.delta < 0) :=
    List.mem_filter.mpr ⟨member, by simpa using loss⟩
  obtain ⟨entry, entered⟩ := Outcome.collect_each _ _ _ collected d listed
  obtain ⟨amount, negated, _⟩ := (Outcome.bind_ok_iff _ _ _).mp entered
  exact ((neg128_ok profile d.delta amount fits).mp negated).1

/-! ## All groups -/

/-- The changes in the order of the walk. -/
def walked (orders : DiffOrders) (deltas : Deltas) : List BalanceDelta :=
  (orders.values.arrange deltas.entries).map Prod.snd

/-- The changes of an owner in the order of the walk. -/
def groupOf (orders : DiffOrders) (deltas : Deltas) (owner : Pubkey) : List BalanceDelta :=
  (walked orders deltas).filter (fun d => d.owner = owner)

/-- The groups in the order of theirs. -/
def groups (orders : DiffOrders) (deltas : Deltas) : List (Pubkey × List BalanceDelta) :=
  orders.owners.arrange (byOwner (walked orders deltas)).entries

/-- The walk meets the changes of the map. -/
theorem mem_walked (orders : DiffOrders) (deltas : Deltas) (d : BalanceDelta) :
    d ∈ walked orders deltas ↔ ∃ key, deltas.get key = some d := by
  unfold walked
  rw [((orders.values.complete deltas.entries).map Prod.snd).mem_iff, List.mem_map]
  constructor
  · rintro ⟨⟨key, value⟩, member, rfl⟩
    exact ⟨key, (AssocMap.mem_entries deltas key value).mp member⟩
  · rintro ⟨key, found⟩
    exact ⟨(key, d), (AssocMap.mem_entries deltas key d).mpr found, rfl⟩

/-- Every owner with changes has one group, of these. -/
theorem mem_groups (orders : DiffOrders) (deltas : Deltas) (owner : Pubkey)
    (group : List BalanceDelta) :
    (owner, group) ∈ groups orders deltas ↔
      group ≠ [] ∧ group = groupOf orders deltas owner := by
  unfold groups groupOf
  rw [(orders.owners.complete _).mem_iff, AssocMap.mem_entries, byOwner_get]
  by_cases missing : (walked orders deltas).filter (fun d => d.owner = owner) = []
  · rw [if_pos missing, missing]
    constructor
    · simp
    · rintro ⟨present, absent⟩
      exact absurd absent present
  · rw [if_neg missing]
    constructor
    · intro same
      obtain rfl := Option.some.inj same
      exact ⟨missing, rfl⟩
    · rintro ⟨_, rfl⟩
      rfl

/-- The changes of an owner with some property, read off the walk or off the map. -/
theorem walked_filter (orders : DiffOrders) (deltas : Deltas) (proper : Proper deltas)
    (owner : Pubkey) (chosen : Int → Bool) (amount : Int → Int) :
    (((groupOf orders deltas owner).filter
        (fun d => chosen d.delta)).map (fun d => (d.mint, amount d.delta, d.decimals))).Perm
      ((deltas.entries.filter (fun entry => entry.1.1 = owner ∧ chosen entry.2.delta)).map
        (fun entry => (entry.1.2, amount entry.2.delta, entry.2.decimals))) := by
  have reordered : ((groupOf orders deltas owner).filter
      (fun d => chosen d.delta)).Perm (((deltas.entries.map Prod.snd).filter
        (fun d => d.owner = owner)).filter (fun d => chosen d.delta)) :=
    (((orders.values.complete deltas.entries).map Prod.snd).filter _).filter _
  have own (entry : DeltaKey × BalanceDelta) (member : entry ∈ deltas.entries) :
      keyOf entry.2 = entry.1 :=
    (proper entry.1 entry.2 ((AssocMap.mem_entries deltas entry.1 entry.2).mp member)).1
  apply (reordered.map _).trans
  apply List.Perm.of_eq
  generalize deltas.entries = entries at own
  induction entries with
  | nil => rfl
  | cons entry rest inductionHypothesis =>
    obtain ⟨atEntry, inRest⟩ := List.forall_mem_cons.mp own
    obtain ⟨owners, mints⟩ := Prod.ext_iff.mp atEntry
    have later := inductionHypothesis inRest
    simp only [keyOf] at owners mints
    by_cases same : entry.1.1 = owner
    · by_cases kept : chosen entry.2.delta
      · simpa [owners, mints, same, kept] using later
      · simpa [owners, same, kept] using later
    · simpa [owners, same] using later

/-- The losses in the group of an owner are the owner's losses. -/
theorem groupLosses_perm (orders : DiffOrders) (deltas : Deltas) (proper : Proper deltas)
    (owner : Pubkey) :
    (groupLosses (groupOf orders deltas owner)).Perm
      (lossesOf deltas owner) := by
  simpa [groupLosses, lossesOf] using
    walked_filter orders deltas proper owner (fun delta => delta < 0) soldAmount

/-- The gains in the group of an owner are the owner's gains. -/
theorem groupGains_perm (orders : DiffOrders) (deltas : Deltas) (proper : Proper deltas)
    (owner : Pubkey) :
    (groupGains (groupOf orders deltas owner)).Perm
      (gainsOf deltas owner) := by
  simpa [groupGains, gainsOf] using
    walked_filter orders deltas proper owner (fun delta => 0 < delta) (fun delta => delta)

/-- The swaps of distinct owners have distinct traders. -/
theorem swapOf_traders (isOnCurve : Pubkey → Bool) (list : List (Pubkey × List BalanceDelta)) :
    ((list.filterMap (swapOf isOnCurve)).map SwapEvent.trader).Sublist (list.map Prod.fst) := by
  induction list with
  | nil => exact List.Sublist.slnil
  | cons group rest inductionHypothesis =>
    by_cases missing : groupLosses group.2 = [] ∨ groupGains group.2 = []
    · have skipped : swapOf isOnCurve group = none := if_pos missing
      rw [List.filterMap_cons_none skipped, List.map_cons]
      exact inductionHypothesis.cons _
    · have kept : swapOf isOnCurve group = some _ := if_neg missing
      rw [List.filterMap_cons_some kept, List.map_cons, List.map_cons]
      exact inductionHypothesis.cons_cons _

/-- The swaps that the groups yield are exact. -/
theorem swapOf_exact (orders : DiffOrders) (isOnCurve : Pubkey → Bool) (deltas : Deltas)
    (proper : Proper deltas) :
    ExactSwaps isOnCurve deltas ((groups orders deltas).filterMap (swapOf isOnCurve)) := by
  have eachEvent (event : SwapEvent)
      (member : event ∈ (groups orders deltas).filterMap (swapOf isOnCurve)) :
      event.sold.Perm (lossesOf deltas event.trader) ∧
        event.bought.Perm (gainsOf deltas event.trader) ∧ event.sold ≠ [] ∧
        event.bought ≠ [] ∧ event.isProgramMediated = !isOnCurve event.trader := by
    obtain ⟨⟨owner, group⟩, inGroups, yields⟩ := List.mem_filterMap.mp member
    obtain ⟨_, rfl⟩ := (mem_groups orders deltas owner group).mp inGroups
    unfold swapOf at yields
    split at yields
    · simp at yields
    · rename_i complete
      obtain ⟨losses, gains⟩ := not_or.mp complete
      obtain rfl := Option.some.inj yields
      exact ⟨groupLosses_perm orders deltas proper owner,
        groupGains_perm orders deltas proper owner, losses, gains, rfl⟩
  constructor
  case once =>
    have distinct : ((groups orders deltas).map Prod.fst).Nodup :=
      ((orders.owners.complete _).map Prod.fst).nodup_iff.mpr
        (byOwner (walked orders deltas)).distinct
    exact distinct.sublist (swapOf_traders isOnCurve (groups orders deltas))
  case traders =>
    intro owner
    constructor
    · intro member
      obtain ⟨event, inEvents, rfl⟩ := List.mem_map.mp member
      obtain ⟨sold, bought, losses, gains, _⟩ := eachEvent event inEvents
      exact ⟨(perm_ne_nil _ _ sold).mp losses, (perm_ne_nil _ _ bought).mp gains⟩
    · rintro ⟨losses, gains⟩
      rw [← perm_ne_nil _ _ (groupLosses_perm orders deltas proper owner)] at losses
      rw [← perm_ne_nil _ _ (groupGains_perm orders deltas proper owner)] at gains
      have present : groupOf orders deltas owner ≠ [] := by
        intro empty
        exact losses (by rw [empty]; rfl)
      have member := (mem_groups orders deltas owner _).mpr ⟨present, rfl⟩
      have yields : swapOf isOnCurve (owner, groupOf orders deltas owner) =
          some ⟨owner, _, _, !isOnCurve owner⟩ := if_neg (not_or.mpr ⟨losses, gains⟩)
      exact List.mem_map.mpr ⟨_, List.mem_filterMap.mpr ⟨_, member, yields⟩, rfl⟩
  case sold => exact fun event member => (eachEvent event member).1
  case bought => exact fun event member => (eachEvent event member).2.1
  case mediated => exact fun event member => (eachEvent event member).2.2.2.2

/-- The members of a group are changes of the map, and in range. -/
theorem group_fits (orders : DiffOrders) (deltas : Deltas) (proper : Proper deltas)
    (group : Pubkey × List BalanceDelta) (member : group ∈ groups orders deltas)
    (d : BalanceDelta) (inGroup : d ∈ group.2) :
    (∃ key, deltas.get key = some d) ∧ InI128 d.delta := by
  obtain ⟨_, same⟩ := (mem_groups orders deltas group.1 group.2).mp member
  rw [same] at inGroup
  obtain ⟨key, found⟩ := (mem_walked orders deltas d).mp (List.mem_filter.mp inGroup).1
  exact ⟨⟨key, found⟩, (proper key d found).2⟩

/-- Where all losses can be negated, the changes are clustered into exact swaps. -/
theorem clusterIntoSwaps_ok {ε : Type} (profile : Profile) (orders : DiffOrders)
    (isOnCurve : Pubkey → Bool) (deltas : Deltas) (proper : Proper deltas)
    (negatable : ∀ key d, deltas.get key = some d → d.delta < 0 → Negatable profile d) :
    (clusterIntoSwaps profile orders isOnCurve deltas : Outcome ε (List SwapEvent)) =
      .ok ((groups orders deltas).filterMap (swapOf isOnCurve)) := by
  apply Outcome.collectSome_of_ok
  intro group member
  apply eventOf_ok
  · exact fun d inGroup => (group_fits orders deltas proper group member d inGroup).2
  · intro d inGroup loss
    obtain ⟨⟨key, found⟩, _⟩ := group_fits orders deltas proper group member d inGroup
    exact negatable key d found loss

/-- Where the changes were clustered, all losses can be negated. -/
theorem clusterIntoSwaps_negatable {ε : Type} (profile : Profile) (orders : DiffOrders)
    (isOnCurve : Pubkey → Bool) (deltas : Deltas) (proper : Proper deltas)
    (events : List SwapEvent)
    (clustered : (clusterIntoSwaps profile orders isOnCurve deltas :
      Outcome ε (List SwapEvent)) = .ok events)
    (key : DeltaKey) (d : BalanceDelta) (found : deltas.get key = some d) (loss : d.delta < 0) :
    Negatable profile d := by
  have evaluated := (Outcome.collectSome_eq_filterMap _ _ events clustered).1
  have walk : d ∈ groupOf orders deltas d.owner :=
    List.mem_filter.mpr ⟨(mem_walked orders deltas d).mpr ⟨key, found⟩, by simp⟩
  have member : (d.owner, groupOf orders deltas d.owner) ∈
      groups orders deltas :=
    (mem_groups orders deltas d.owner _).mpr ⟨List.ne_nil_of_mem walk, rfl⟩
  obtain ⟨event, atGroup⟩ := evaluated _ member
  exact eventOf_negatable profile isOnCurve _ event atGroup d walk (proper key d found).2 loss

end Graced.BalanceDiff
