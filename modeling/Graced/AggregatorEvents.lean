import Graced.Aggregator
import Graced.Spelling

/-!
# What the events of an aggregator say

Three aggregators log what they have swapped as records in the data of calls to themselves.
Here the records are written down as bytes, and each aggregator's reading of a log is said
without its loop: Dflow and Jupiter log one event for each leg, in any company; a Jupiter event
with all legs of a route overrules what was logged before it, and nothing behind it is looked
at; of the events of OKX the first one counts. Whatever follows a record in its data is
ignored. A log is refused exactly if an event that counts is cut short.
-/

namespace Graced

open Borsh

namespace Pubkey

/-- The bytes of a key, most significant first. -/
def bytes (key : Pubkey) : Bytes := (digits 32 key.raw.toNat).reverse

@[simp] theorem length_bytes (key : Pubkey) : key.bytes.length = 32 := by simp [bytes]

/-- A key is the number that its bytes spell backwards. -/
theorem ofBytes_eq (bytes : Bytes) :
    ofBytes bytes = ⟨BitVec.ofNat 256 (littleEndian bytes.reverse)⟩ := by
  rw [ofBytes, littleEndian, List.foldr_reverse]
  congr 3
  funext higher byte
  exact Nat.add_comm _ _

theorem spells_read : Spells read (fun front key => front = key.bytes) := by
  refine ((spells_take 32).bind (fun bytes => spells_pure (ofBytes bytes))).congr ?_
  intro front key
  constructor
  · rintro rfl
    refine ⟨key.bytes, key.bytes, [], ⟨rfl, length_bytes key⟩, ⟨rfl, ?_⟩, by simp⟩
    rw [ofBytes_eq, bytes, List.reverse_reverse,
      littleEndian_digits 32 _ key.raw.isLt, BitVec.ofNat_toNat, BitVec.setWidth_eq]
  · rintro ⟨spelled, _, _, ⟨rfl, length⟩, ⟨rfl, rfl⟩, rfl⟩
    have fits : littleEndian spelled.reverse < 2 ^ 256 := by
      have bounded := littleEndian_lt spelled.reverse
      rw [List.length_reverse, length] at bounded
      exact bounded
    have back := digits_littleEndian spelled.reverse
    rw [List.length_reverse, length] at back
    rw [ofBytes_eq, bytes, BitVec.toNat_ofNat, Nat.mod_eq_of_lt fits, back, List.reverse_reverse,
      List.append_nil]

end Pubkey

namespace Aggregator

/-! ## The records -/

/-- A leg in a record: what went in, then what came out. -/
def swapBytes (s : Swap) : Bytes :=
  s.inputMint.bytes ++ (digits 8 s.inputAmount.toNat ++
    (s.outputMint.bytes ++ digits 8 s.outputAmount.toNat))

theorem spells_swapEventV2 : Spells swapEventV2 (fun front s => front = swapBytes s) := by
  refine (Pubkey.spells_read.bind fun inputMint => spells_u64.bind fun inputAmount =>
    Pubkey.spells_read.bind fun outputMint => spells_u64.bind fun outputAmount =>
    spells_pure (Swap.mk inputAmount outputAmount inputMint outputMint)).congr ?_
  intro front s
  constructor
  · rintro rfl
    exact ⟨_, _, _, rfl, ⟨_, _, _, rfl, ⟨_, _, _, rfl, ⟨_, _, [], rfl, ⟨rfl, rfl⟩, rfl⟩, rfl⟩, rfl⟩,
      by simp [swapBytes]⟩
  · rintro ⟨_, _, _, rfl, ⟨_, _, _, rfl, ⟨_, _, _, rfl, ⟨_, _, _, rfl, ⟨rfl, rfl⟩, rfl⟩, rfl⟩, rfl⟩,
      rfl⟩
    simp [swapBytes]

/-- The event of one leg names the pool's program first. -/
theorem spells_swapEvent :
    Spells swapEvent (fun front s => ∃ amm, amm.length = 32 ∧ front = amm ++ swapBytes s) := by
  refine ((spells_skip 32).bind (fun _ => spells_swapEventV2)).congr ?_
  intro front s
  constructor
  · rintro ⟨amm, length, rfl⟩
    exact ⟨(), amm, swapBytes s, length, rfl, rfl⟩
  · rintro ⟨_, amm, _, length, rfl, rfl⟩
    exact ⟨amm, length, rfl⟩

/-- The parts of a route's record are the records of its legs. -/
theorem parts_swapBytes (parts : List Bytes) (swaps : List Swap) :
    List.Forall₂ (fun front s => front = swapBytes s) parts swaps ↔
      parts = swaps.map swapBytes := by
  constructor
  · intro each
    induction each with
    | nil => rfl
    | cons same _ inductionHypothesis => rw [same, inductionHypothesis, List.map_cons]
  · rintro rfl
    exact List.forall₂_map_left_iff.mpr (List.forall₂_same.mpr fun _ _ => rfl)

theorem spells_swapsEvent :
    Spells (vec swapEventV2) (fun front swaps => swaps.length < 2 ^ 32 ∧
      front = digits 4 swaps.length ++ (swaps.map swapBytes).flatten) := by
  refine spells_swapEventV2.vec.congr ?_
  intro front swaps
  simp only [parts_swapBytes, exists_eq_left]

/-- The flag of an event with fees. -/
def okxFlag (fees : Bool) : Reader Unit :=
  if fees then do
    let _ ← Borsh.bool
  else return

/-- The events of OKX are one record, in which two stretches differ in length and a flag may be
missing. -/
theorem okxEvent_eq (second fees enhanced : Bool) : okxEvent second fees enhanced = (do
    skip 8
    let sourceMint ← Pubkey.read
    let destinationMint ← Pubkey.read
    skip (if second then 72 else 64)
    let sourceTokenChange ← u64
    let destinationTokenChange ← u64
    okxFlag fees
    skip ((if fees then 127 else 0) + (if enhanced then 42 else 0))
    return ⟨sourceTokenChange, destinationTokenChange, sourceMint, destinationMint⟩) := by
  cases second <;> cases fees <;> cases enhanced <;>
    simp only [okxEvent, okxFlag, Bool.false_eq_true, if_false, if_true, skip_skip, skip_zero,
      pure_bind, bind_assoc, Nat.reduceAdd]

/-- How OKX writes an event down: what it swapped, among bytes that are not read. -/
structure OkxSpelled (second fees enhanced : Bool) (front : Bytes) (s : Swap) : Prop where
  parts : ∃ head between flag tail : Bytes, head.length = 8 ∧
    between.length = (if second then 72 else 64) ∧
    flag ∈ (if fees then [[0], [1]] else [[]]) ∧
    tail.length = (if fees then 127 else 0) + (if enhanced then 42 else 0) ∧
    front = head ++ (s.inputMint.bytes ++ (s.outputMint.bytes ++ (between ++
      (digits 8 s.inputAmount.toNat ++ (digits 8 s.outputAmount.toNat ++ (flag ++ tail))))))

theorem spells_okxFlag (fees : Bool) :
    Spells (okxFlag fees) (fun front _ => front ∈ (if fees then [[0], [1]] else [[]])) := by
  cases fees with
  | false => exact (spells_pure ()).congr (by simp)
  | true =>
    refine (spells_bool.bind (fun _ => spells_pure ())).congr ?_
    intro front value
    constructor
    · intro listed
      rcases List.mem_cons.mp listed with rfl | rest
      · exact ⟨false, _, [], rfl, ⟨rfl, rfl⟩, rfl⟩
      · obtain rfl := List.mem_singleton.mp rest
        exact ⟨true, _, [], rfl, ⟨rfl, rfl⟩, rfl⟩
    · rintro ⟨flag, _, _, rfl, ⟨rfl, rfl⟩, rfl⟩
      cases flag <;> simp

theorem spells_okxEvent (second fees enhanced : Bool) :
    Spells (okxEvent second fees enhanced) (OkxSpelled second fees enhanced) := by
  rw [okxEvent_eq]
  refine ((spells_skip 8).bind fun _ => Pubkey.spells_read.bind fun sourceMint =>
    Pubkey.spells_read.bind fun destinationMint => (spells_skip _).bind fun _ =>
    spells_u64.bind fun sourceTokenChange => spells_u64.bind fun destinationTokenChange =>
    (spells_okxFlag fees).bind fun _ => (spells_skip _).bind fun _ => spells_pure
      (Swap.mk sourceTokenChange destinationTokenChange sourceMint destinationMint)).congr ?_
  intro front s
  constructor
  · rintro ⟨head, between, flag, tail, headLength, betweenLength, flagged, tailLength, rfl⟩
    exact ⟨(), head, _, headLength, ⟨_, _, _, rfl, ⟨_, _, _, rfl, ⟨(), between, _, betweenLength,
      ⟨_, _, _, rfl, ⟨_, _, _, rfl, ⟨(), flag, _, flagged, ⟨(), tail, [], tailLength,
      ⟨rfl, rfl⟩, (List.append_nil _).symm⟩, rfl⟩, rfl⟩, rfl⟩, rfl⟩, rfl⟩, rfl⟩, rfl⟩
  · rintro ⟨_, head, _, headLength, ⟨_, _, _, rfl, ⟨_, _, _, rfl, ⟨_, between, _, betweenLength,
      ⟨_, _, _, rfl, ⟨_, _, _, rfl, ⟨_, flag, _, flagged, ⟨_, tail, _, tailLength,
      ⟨rfl, rfl⟩, rfl⟩, rfl⟩, rfl⟩, rfl⟩, rfl⟩, rfl⟩, rfl⟩, rfl⟩
    exact ⟨head, between, flag, tail, headLength, betweenLength, flagged, tailLength, by simp⟩

/-- The events of OKX, by their discriminators. -/
def okxKinds : List (Bytes × Bool × Bool × Bool) :=
  [([189, 97, 67, 12, 37, 209, 247, 29], false, true, false),
    ([12, 134, 38, 93, 167, 151, 42, 69], true, true, false),
    ([37, 72, 219, 67, 50, 244, 1, 213], false, true, true),
    ([84, 79, 219, 247, 218, 156, 219, 177], true, true, true),
    ([85, 81, 149, 239, 163, 74, 158, 111], false, false, false),
    ([21, 94, 224, 53, 220, 232, 193, 94], true, false, false)]

theorem okxEventOf_eq (disc : Bytes) :
    okxEventOf disc = (okxKinds.find? (fun kind => disc = kind.1)).map
      (fun kind => okxEvent kind.2.1 kind.2.2.1 kind.2.2.2) := by
  unfold okxEventOf okxKinds
  simp only [List.find?_cons, List.find?_nil]
  split_ifs <;> simp [*]

/-! ## The logs -/

/-- The discriminator of a Jupiter event that logs a whole route. -/
def swapsEventDisc : Bytes := [152, 47, 78, 235, 192, 96, 110, 106]

/-- What one payload of a log says about a leg: a record of the leg, or nothing. -/
inductive TellsLeg (silent : Bytes → Prop) : Bytes → Option Swap → Prop where
  | leg (amm padding : Bytes) (s : Swap) (length : amm.length = 32) :
      TellsLeg silent (Dex.swapEventDisc ++ (amm ++ swapBytes s ++ padding)) (some s)
  | nothing (payload : Bytes) (isSilent : silent payload) : TellsLeg silent payload none

/-- A payload that is no event of Dflow. -/
def DflowSilent (payload : Bytes) : Prop := payload.take 8 ≠ Dex.swapEventDisc

/-- A payload that is no event of Jupiter: too short, or with an unknown discriminator. -/
def JupiterSilent (payload : Bytes) : Prop :=
  payload.length ≤ 8 ∨
    payload.take 8 ≠ Dex.swapEventDisc ∧ payload.take 8 ≠ swapsEventDisc

/-- A payload that records all legs of a route. -/
inductive TellsRoute : Bytes → List Swap → Prop where
  | route (swaps : List Swap) (padding : Bytes) (counted : swaps.length < 2 ^ 32) :
      TellsRoute (swapsEventDisc ++
        (digits 4 swaps.length ++ (swaps.map swapBytes).flatten ++ padding)) swaps

/-- A payload that is no event of OKX. -/
def OkxSilent (payload : Bytes) : Prop :=
  payload.length ≤ 8 ∨ ∀ kind ∈ okxKinds, payload.take 8 ≠ kind.1

/-- A payload that is an event of OKX. -/
inductive TellsNet : Bytes → Swap → Prop where
  | event (kind : Bytes × Bool × Bool × Bool) (record padding : Bytes) (s : Swap)
      (known : kind ∈ okxKinds) (spelled : OkxSpelled kind.2.1 kind.2.2.1 kind.2.2.2 record s) :
      TellsNet (kind.1 ++ (record ++ padding)) s

/-- Behind its discriminator, a leg is read exactly if it is spelled out. -/
theorem deserialize_leg (payload : Bytes) (s : Swap)
    (disc : payload.take 8 = Dex.swapEventDisc) :
    deserialize swapEvent (payload.drop 8) = .ok s ↔
      ∃ amm padding : Bytes, amm.length = 32 ∧
        payload = Dex.swapEventDisc ++ (amm ++ swapBytes s ++ padding) := by
  rw [spells_swapEvent.deserialize_iff]
  constructor
  · rintro ⟨_, padding, ⟨amm, length, rfl⟩, rest⟩
    exact ⟨amm, padding, length, by rw [← disc, ← rest, List.take_append_drop]⟩
  · rintro ⟨amm, padding, length, rfl⟩
    exact ⟨_, padding, ⟨amm, length, rfl⟩, rfl⟩

/-- A log of Dflow is read exactly if each of its payloads is a leg or no event, and then it
tells the legs in order. -/
theorem dflowSwaps_iff (payloads : List Bytes) (swaps : List Swap) :
    dflowSwaps payloads = .ok swaps ↔
      ∃ told, List.Forall₂ (TellsLeg DflowSilent) payloads told ∧ swaps = told.filterMap id := by
  induction payloads generalizing swaps with
  | nil =>
    constructor
    · intro success
      obtain rfl : [] = swaps := Except.ok.inj success
      exact ⟨[], .nil, rfl⟩
    · rintro ⟨told, each, rfl⟩
      cases each
      rfl
  | cons payload rest inductionHypothesis =>
    have enough (disc : payload.take 8 = Dex.swapEventDisc) : 8 ≤ payload.length := by
      have length := congrArg List.length disc
      rw [List.length_take] at length
      change min 8 payload.length = 8 at length
      omega
    by_cases disc : payload.take 8 = Dex.swapEventDisc
    · rw [dflowSwaps, if_pos ⟨enough disc, disc⟩]
      constructor
      · intro success
        obtain ⟨s, read, later⟩ := (Outcome.exceptBind_ok_iff _ _ _).mp success
        obtain ⟨swaps', walked, same⟩ := (Outcome.exceptBind_ok_iff _ _ _).mp later
        obtain rfl := Except.ok.inj same
        obtain ⟨amm, padding, length, rfl⟩ := (deserialize_leg payload s disc).mp read
        obtain ⟨told, each, rfl⟩ := (inductionHypothesis swaps').mp walked
        exact ⟨some s :: told, .cons (.leg amm padding s length) each, rfl⟩
      · rintro ⟨_, each, rfl⟩
        cases each with
        | cons first each =>
          cases first with
          | nothing _ isSilent => exact absurd disc isSilent
          | leg amm padding s length =>
            have read := (deserialize_leg _ s disc).mpr ⟨amm, padding, length, rfl⟩
            rw [read]
            change (dflowSwaps rest >>= fun swaps => .ok (s :: swaps)) = _
            rw [(inductionHypothesis _).mpr ⟨_, each, rfl⟩]
            rfl
    · rw [dflowSwaps, if_neg (fun both => disc both.2), inductionHypothesis]
      constructor
      · rintro ⟨told, each, rfl⟩
        exact ⟨none :: told, .cons (.nothing payload disc) each, rfl⟩
      · rintro ⟨_, each, rfl⟩
        cases each with
        | cons first each =>
          cases first with
          | nothing => exact ⟨_, each, rfl⟩
          | leg => exact absurd rfl disc

/-- Behind its discriminator, a route is read exactly if it is spelled out. -/
theorem deserialize_route (payload : Bytes) (swaps : List Swap)
    (disc : payload.take 8 = swapsEventDisc) :
    deserialize (vec swapEventV2) (payload.drop 8) = .ok swaps ↔ TellsRoute payload swaps := by
  rw [spells_swapsEvent.deserialize_iff]
  constructor
  · rintro ⟨_, padding, ⟨counted, rfl⟩, rest⟩
    have whole : payload = swapsEventDisc ++
        (digits 4 swaps.length ++ (swaps.map swapBytes).flatten ++ padding) := by
      rw [← disc, ← rest, List.take_append_drop]
    rw [whole]
    exact .route swaps padding counted
  · rintro ⟨_, padding, counted⟩
    exact ⟨_, padding, ⟨counted, rfl⟩, rfl⟩

/-- What a log of Jupiter tells after some legs: these and its own, or the first route that is
logged as a whole. -/
inductive TellsSwaps (legs : List Swap) (payloads : List Bytes) (swaps : List Swap) : Prop where
  | legs (told : List (Option Swap)) (each : List.Forall₂ (TellsLeg JupiterSilent) payloads told)
      (same : swaps = legs ++ told.filterMap id)
  | route (before : List Bytes) (payload : Bytes) (after : List Bytes)
      (told : List (Option Swap)) (split : payloads = before ++ payload :: after)
      (each : List.Forall₂ (TellsLeg JupiterSilent) before told) (first : TellsRoute payload swaps)

/-- A log tells what its first payload tells, and goes on after a leg but not after a route. -/
theorem tellsSwaps_cons (legs : List Swap) (payload : Bytes) (rest : List Bytes)
    (swaps : List Swap) :
    TellsSwaps legs (payload :: rest) swaps ↔
      (∃ told, TellsLeg JupiterSilent payload told ∧ TellsSwaps (legs ++ told.toList) rest swaps) ∨
        TellsRoute payload swaps := by
  have joined (told : Option Swap) (others : List (Option Swap)) :
      (told :: others).filterMap id = told.toList ++ others.filterMap id := by
    cases told <;> simp
  constructor
  · intro tells
    cases tells with
    | legs told each same =>
      cases each with
      | cons head tail =>
        exact .inl ⟨_, head, .legs _ tail (by rw [same, joined, List.append_assoc])⟩
    | route before route after told split each first =>
      cases before with
      | nil =>
        obtain ⟨rfl, rfl⟩ := List.cons.inj split
        exact .inr first
      | cons head before =>
        obtain ⟨rfl, rfl⟩ := List.cons.inj split
        cases each with
        | cons head tail => exact .inl ⟨_, head, .route before route after _ rfl tail first⟩
  · rintro (⟨told, head, tells⟩ | first)
    · cases tells with
      | legs others tail same =>
        exact .legs (told :: others) (.cons head tail) (by rw [same, joined, List.append_assoc])
      | route before route after others split each first =>
        exact .route (payload :: before) route after (told :: others) (by rw [split]; rfl)
          (.cons head each) first
    · exact .route [] payload rest [] rfl .nil first

/-- A known discriminator with something behind it is an event. -/
theorem not_jupiterSilent (disc record : Bytes)
    (known : disc = Dex.swapEventDisc ∨ disc = swapsEventDisc) (recorded : 0 < record.length) :
    ¬ JupiterSilent (disc ++ record) := by
  have length : disc.length = 8 := by rcases known with rfl | rfl <;> rfl
  have front : (disc ++ record).take 8 = disc := by rw [← length, List.take_left]
  rintro (short | ⟨noLeg, noRoute⟩)
  · rw [List.length_append, length] at short
    omega
  · rw [front] at noLeg noRoute
    exact known.elim noLeg noRoute

/-- A log of Jupiter is read exactly if it tells some swaps, and as these swaps: each payload up
to the first whole route has to be a leg or no event. -/
theorem jupiterSwaps_iff (legs : List Swap) (payloads : List Bytes) (swaps : List Swap) :
    jupiterSwaps legs payloads = .ok swaps ↔ TellsSwaps legs payloads swaps := by
  induction payloads generalizing legs with
  | nil =>
    constructor
    · intro success
      exact .legs [] .nil (by simpa [jupiterSwaps] using success.symm)
    · intro tells
      cases tells with
      | legs told each same =>
        cases each
        simp [jupiterSwaps, same]
      | route before route after told split each first => simp at split
  | cons payload rest inductionHypothesis =>
    rw [tellsSwaps_cons]
    by_cases isSilent : JupiterSilent payload
    · have noLeg (told : Option Swap) (tells : TellsLeg JupiterSilent payload told) :
          told = none := by
        cases tells with
        | nothing => rfl
        | leg amm padding s length =>
          refine absurd isSilent (not_jupiterSilent _ _ (.inl rfl) ?_)
          rw [List.length_append, List.length_append, length]
          omega
      have noRoute : ¬ TellsRoute payload swaps := by
        rintro ⟨_, padding, _⟩
        refine absurd isSilent (not_jupiterSilent _ _ (.inr rfl) ?_)
        rw [List.length_append, List.length_append, length_digits]
        omega
      have skipped : jupiterSwaps legs (payload :: rest) = jupiterSwaps legs rest := by
        rw [jupiterSwaps]
        rcases isSilent with short | ⟨noLeg, noRoute⟩
        · rw [if_pos short]
        · rw [if_neg noLeg]
          split
          · rfl
          · exact if_neg noRoute
      rw [skipped, inductionHypothesis]
      constructor
      · intro tells
        exact .inl ⟨none, .nothing payload isSilent, by simpa using tells⟩
      · rintro (⟨told, head, tells⟩ | first)
        · obtain rfl := noLeg told head
          simpa using tells
        · exact absurd first noRoute
    · have long : ¬ payload.length ≤ 8 := fun short => isSilent (.inl short)
      rw [jupiterSwaps, if_neg long]
      by_cases disc : payload.take 8 = Dex.swapEventDisc
      · have noRoute : ¬ TellsRoute payload swaps := by
          rintro ⟨_, padding, _⟩
          exact absurd disc (by simp [swapsEventDisc, Dex.swapEventDisc])
        rw [if_pos disc, Outcome.exceptBind_ok_iff]
        simp only [noRoute, or_false, inductionHypothesis]
        constructor
        · rintro ⟨s, read, tells⟩
          obtain ⟨amm, padding, length, rfl⟩ := (deserialize_leg payload s disc).mp read
          exact ⟨some s, .leg amm padding s length, tells⟩
        · rintro ⟨_, head, tells⟩
          cases head with
          | nothing _ told => exact absurd told isSilent
          | leg amm padding s length =>
            exact ⟨s, (deserialize_leg _ s disc).mpr ⟨amm, padding, length, rfl⟩, tells⟩
      · have routeDisc : payload.take 8 = swapsEventDisc := by
          by_contra other
          exact isSilent (.inr ⟨disc, other⟩)
        have read : (if payload.take 8 = [152, 47, 78, 235, 192, 96, 110, 106] then
              deserialize (vec swapEventV2) (payload.drop 8)
            else jupiterSwaps legs rest) = deserialize (vec swapEventV2) (payload.drop 8) :=
          if_pos routeDisc
        rw [if_neg disc, read, deserialize_route payload swaps routeDisc]
        constructor
        · exact .inr
        · rintro (⟨_, head, _⟩ | first)
          · cases head with
            | nothing _ told => exact absurd told isSilent
            | leg => exact absurd rfl disc
          · exact first

theorem okxKinds_length : ∀ kind ∈ okxKinds, kind.1.length = 8 := by decide

theorem okxKinds_unique :
    ∀ kind ∈ okxKinds, ∀ other ∈ okxKinds, kind.1 = other.1 → kind = other := by
  decide

/-- No event starts with an unknown discriminator. -/
theorem okxEventOf_none (disc : Bytes) (unknown : ∀ kind ∈ okxKinds, disc ≠ kind.1) :
    okxEventOf disc = none := by
  rw [okxEventOf_eq, Option.map_eq_none_iff, List.find?_eq_none]
  simpa using unknown

/-- A known discriminator announces its own event. -/
theorem okxEventOf_known (kind : Bytes × Bool × Bool × Bool) (known : kind ∈ okxKinds) :
    okxEventOf kind.1 = some (okxEvent kind.2.1 kind.2.2.1 kind.2.2.2) := by
  rw [okxEventOf_eq]
  cases found : okxKinds.find? (fun other => kind.1 = other.1) with
  | none => simpa using List.find?_eq_none.mp found kind known
  | some other =>
    have same : kind.1 = other.1 := by simpa using List.find?_some found
    rw [okxKinds_unique kind known other (List.mem_of_find?_eq_some found) same]
    rfl

/-- Behind its discriminator, an event is read exactly if it is spelled out. -/
theorem deserialize_net (payload : Bytes) (s : Swap) (kind : Bytes × Bool × Bool × Bool)
    (known : kind ∈ okxKinds) (disc : payload.take 8 = kind.1) :
    deserialize (okxEvent kind.2.1 kind.2.2.1 kind.2.2.2) (payload.drop 8) = .ok s ↔
      TellsNet payload s := by
  rw [(spells_okxEvent _ _ _).deserialize_iff]
  constructor
  · rintro ⟨record, padding, spelled, rest⟩
    have whole : payload = kind.1 ++ (record ++ padding) := by
      rw [← disc, ← rest, List.take_append_drop]
    rw [whole]
    exact .event kind record padding s known spelled
  · rintro ⟨other, record, padding, s, otherKnown, spelled⟩
    have length : other.1.length = 8 := okxKinds_length other otherKnown
    have same : other = kind := okxKinds_unique other otherKnown kind known
      (by rw [← disc, ← length, List.take_left])
    subst same
    exact ⟨record, padding, spelled, by rw [← length, List.drop_left]⟩

/-- An event is never silent. -/
theorem not_silent_of_tells (payload : Bytes) (s : Swap) (tells : TellsNet payload s) :
    ¬ OkxSilent payload := by
  obtain ⟨kind, record, padding, _, known, parts⟩ := tells
  obtain ⟨_, _, _, _, headLength, _, _, _, rfl⟩ := parts
  have length : kind.1.length = 8 := okxKinds_length kind known
  rintro (short | unknown)
  · simp only [List.length_append] at short
    omega
  · exact unknown kind known (by rw [← length, List.take_left])

/-- A log of OKX is read exactly if its first event, if it has one, is spelled out, and then it
tells that event. -/
theorem okxSwap_iff (payloads : List Bytes) (net : Option Swap) :
    okxSwap payloads = .ok net ↔
      (∀ payload ∈ payloads, OkxSilent payload) ∧ net = none ∨
        ∃ before payload after s, payloads = before ++ payload :: after ∧
          (∀ payload ∈ before, OkxSilent payload) ∧ TellsNet payload s ∧ net = some s := by
  induction payloads with
  | nil =>
    constructor
    · intro success
      exact .inl ⟨by simp, by simpa [okxSwap] using success.symm⟩
    · rintro (⟨_, rfl⟩ | ⟨before, payload, after, s, split, _⟩)
      · rfl
      · simp at split
  | cons payload rest inductionHypothesis =>
    by_cases isSilent : OkxSilent payload
    · have skipped : okxSwap (payload :: rest) = okxSwap rest := by
        rw [okxSwap]
        rcases isSilent with short | unknown
        · rw [if_pos short]
        · rw [okxEventOf_none _ unknown]
          exact ite_self _
      rw [skipped, inductionHypothesis]
      constructor
      · rintro (⟨all, rfl⟩ | ⟨before, event, after, s, rfl, silent, tells, rfl⟩)
        · exact .inl ⟨List.forall_mem_cons.mpr ⟨isSilent, all⟩, rfl⟩
        · exact .inr ⟨payload :: before, event, after, s, rfl,
            List.forall_mem_cons.mpr ⟨isSilent, silent⟩, tells, rfl⟩
      · rintro (⟨all, rfl⟩ | ⟨before, event, after, s, split, silent, tells, rfl⟩)
        · exact .inl ⟨(List.forall_mem_cons.mp all).2, rfl⟩
        · cases before with
          | nil =>
            obtain ⟨rfl, rfl⟩ := List.cons.inj split
            exact absurd isSilent (not_silent_of_tells payload s tells)
          | cons head before =>
            obtain ⟨rfl, rfl⟩ := List.cons.inj split
            exact .inr ⟨before, event, after, s, rfl, (List.forall_mem_cons.mp silent).2, tells,
              rfl⟩
    · obtain ⟨long, announced⟩ := not_or.mp isSilent
      push Not at announced
      obtain ⟨kind, known, disc⟩ := announced
      rw [okxSwap, if_neg long, disc, okxEventOf_known kind known]
      simp only [Outcome.exceptBind_ok_iff, deserialize_net payload _ kind known disc]
      constructor
      · rintro ⟨s, tells, same⟩
        exact .inr ⟨[], payload, rest, s, rfl, by simp, tells, (Except.ok.inj same).symm⟩
      · rintro (⟨all, rfl⟩ | ⟨before, event, after, s, split, silent, tells, rfl⟩)
        · exact absurd (all payload List.mem_cons_self) isSilent
        · cases before with
          | nil =>
            obtain ⟨rfl, rfl⟩ := List.cons.inj split
            exact ⟨s, tells, rfl⟩
          | cons head before =>
            obtain ⟨rfl, rfl⟩ := List.cons.inj split
            exact absurd (silent payload List.mem_cons_self) isSilent

end Aggregator

end Graced
