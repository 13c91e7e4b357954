import Graced.Routes

/-!
# The sides of a leg

A route entry stands for an executed swap: it was decoded as this swap, or its transfers add
up to its two amounts. An entry that was not decoded shows both sides of the swap if both
mints are among its transfers, without telling which of them went in. Otherwise it shows too
little, and the whole route fails.
-/

namespace Graced

/-- What the transfers move of one mint. -/
def mintTotal (transfers : List TokenTransfer) (mint : Pubkey) : Nat :=
  ((transfers.filter (fun transfer => transfer.mint = some mint)).map
    (fun transfer => transfer.amount.toNat)).sum

/-- The route entry stands for the executed swap: it was decoded as this swap, or its
transfers all name one of the two mints and add up to the two amounts. -/
def Shows (leg : Swap) : Route → Prop
  | .decoded dex => dex.swap = leg
  | .undecoded _ _ transfers =>
    (∀ transfer ∈ transfers,
      transfer.mint = some leg.inputMint ∨ transfer.mint = some leg.outputMint) ∧
    mintTotal transfers leg.inputMint = leg.inputAmount.toNat ∧
    mintTotal transfers leg.outputMint = leg.outputAmount.toNat

/-- Both mints of an undecoded leg are among its transfers. -/
def Involves (leg : Swap) : Route → Prop
  | .decoded _ => True
  | .undecoded _ _ transfers =>
    (∃ transfer ∈ transfers, transfer.mint = some leg.inputMint) ∧
      ∃ transfer ∈ transfers, transfer.mint = some leg.outputMint

namespace Swap

/-- What goes in. -/
def inputSide (leg : Swap) : MintAmount := ⟨leg.inputMint, leg.inputAmount⟩

/-- What comes out. -/
def outputSide (leg : Swap) : MintAmount := ⟨leg.outputMint, leg.outputAmount⟩

/-- The leg read in the other direction. -/
def reversed (leg : Swap) : Swap :=
  ⟨leg.outputAmount, leg.inputAmount, leg.outputMint, leg.inputMint⟩

end Swap

namespace Routes

/-! ## The totals of the transfers -/

@[simp] theorem mintTotal_nil (mint : Pubkey) : mintTotal [] mint = 0 := rfl

/-- A transfer adds its amount to the total of its own mint. -/
theorem mintTotal_cons (transfer : TokenTransfer) (rest : List TokenTransfer) (mint : Pubkey) :
    mintTotal (transfer :: rest) mint =
      (if transfer.mint = some mint then transfer.amount.toNat else 0) + mintTotal rest mint := by
  by_cases same : transfer.mint = some mint <;> simp [mintTotal, same]

/-- While every total fits, the sums are the totals of the transfers, and only mints of
transfers are added. -/
theorem totals_exact (profile : Profile) (sums : AssocMap Pubkey UInt64)
    (transfers : List TokenTransfer) (named : ∀ transfer ∈ transfers, transfer.mint ≠ none)
    (fits : ∀ mint, ((sums.get mint).getD 0).toNat + mintTotal transfers mint < 2 ^ 64) :
    ∃ final, totals profile sums transfers = .ok final ∧
      (∀ mint, ((final.get mint).getD 0).toNat =
        ((sums.get mint).getD 0).toNat + mintTotal transfers mint) ∧
      (∀ mint, final.get mint ≠ none →
        sums.get mint ≠ none ∨ ∃ transfer ∈ transfers, transfer.mint = some mint) := by
  induction transfers generalizing sums with
  | nil => exact ⟨sums, rfl, fun _ => rfl, fun _ present => .inl present⟩
  | cons transfer rest inductionHypothesis =>
    obtain ⟨mint, known⟩ := Option.ne_none_iff_exists'.mp (named transfer List.mem_cons_self)
    have whole := fits mint
    rw [mintTotal_cons, if_pos known] at whole
    obtain ⟨total, added, sum⟩ := add64_fits (ε := RouteError) profile
      ((sums.get mint).getD 0) transfer.amount (by omega)
    have restFits (other : Pubkey) :
        (((sums.insert mint total).get other).getD 0).toNat + mintTotal rest other < 2 ^ 64 := by
      have atOther := fits other
      rw [mintTotal_cons] at atOther
      by_cases same : mint = other
      · subst same
        simp only [AssocMap.get_insert, if_pos, Option.getD_some, sum]
        omega
      · simp only [AssocMap.get_insert, if_neg same]
        omega
    obtain ⟨final, walked, sumsExact, keys⟩ := inductionHypothesis (sums.insert mint total)
      (fun later member => named later (List.mem_cons_of_mem _ member)) restFits
    refine ⟨final, by simp [totals, known, added, walked], ?_, ?_⟩
    · intro other
      rw [sumsExact other, mintTotal_cons, known, AssocMap.get_insert]
      by_cases same : mint = other
      · subst same
        simp only [if_pos, Option.getD_some, sum]
        omega
      · simp [same]
    · intro other present
      rcases keys other present with inSums | ⟨later, member, names⟩
      · by_cases same : mint = other
        · exact .inr ⟨transfer, List.mem_cons_self, by rw [known, same]⟩
        · rw [AssocMap.get_insert, if_neg same] at inSums
          exact .inl inSums
      · exact .inr ⟨later, List.mem_cons_of_mem _ member, names⟩

/-- The entries of the sums are sides of the leg, of mints that are transferred. -/
theorem totals_sides (profile : Profile) (leg : Swap) (transfers : List TokenTransfer)
    (ofLeg : ∀ transfer ∈ transfers,
      transfer.mint = some leg.inputMint ∨ transfer.mint = some leg.outputMint)
    (inTotal : mintTotal transfers leg.inputMint = leg.inputAmount.toNat)
    (outTotal : mintTotal transfers leg.outputMint = leg.outputAmount.toNat) :
    ∃ sums, totals profile .empty transfers = .ok sums ∧
      ∀ entry ∈ sums.entries, ((⟨entry.1, entry.2⟩ : MintAmount) = leg.inputSide ∨
        (⟨entry.1, entry.2⟩ : MintAmount) = leg.outputSide) ∧
          ∃ transfer ∈ transfers, transfer.mint = some entry.1 := by
  have named : ∀ transfer ∈ transfers, transfer.mint ≠ none := by
    intro transfer member
    rcases ofLeg transfer member with known | known <;> simp [known]
  have absent (mint : Pubkey) (notIn : mint ≠ leg.inputMint) (notOut : mint ≠ leg.outputMint) :
      mintTotal transfers mint = 0 := by
    have nothing : transfers.filter (fun transfer => transfer.mint = some mint) = [] := by
      rw [List.filter_eq_nil_iff]
      intro transfer member
      rcases ofLeg transfer member with known | known
      · simpa [known] using fun same => notIn same.symm
      · simpa [known] using fun same => notOut same.symm
    simp [mintTotal, nothing]
  have fits (mint : Pubkey) : mintTotal transfers mint < 2 ^ 64 := by
    by_cases isIn : mint = leg.inputMint
    · rw [isIn, inTotal]
      exact leg.inputAmount.toNat_lt
    · by_cases isOut : mint = leg.outputMint
      · rw [isOut, outTotal]
        exact leg.outputAmount.toNat_lt
      · rw [absent mint isIn isOut]
        omega
  obtain ⟨sums, walked, sumsExact, keys⟩ := totals_exact profile .empty transfers named
    (fun mint => by simpa using fits mint)
  refine ⟨sums, walked, ?_⟩
  rintro ⟨mint, amount⟩ member
  have found := (sums.mem_entries mint amount).mp member
  have value : amount.toNat = mintTotal transfers mint := by simpa [found] using sumsExact mint
  rcases keys mint (by simp [found]) with impossible | ⟨transfer, inTransfers, names⟩
  · simp at impossible
  · refine ⟨?_, transfer, inTransfers, names⟩
    rcases ofLeg transfer inTransfers with known | known
    · obtain rfl : mint = leg.inputMint := by simpa [names] using known
      left
      rw [Swap.inputSide, UInt64.toNat_inj.mp (value.trans inTotal)]
    · obtain rfl : mint = leg.outputMint := by simpa [names] using known
      right
      rw [Swap.outputSide, UInt64.toNat_inj.mp (value.trans outTotal)]

/-- The shape of a leg by itself is the leg if it was decoded, and its two sides in some
order if it was not. -/
inductive ShapeOf (leg : Swap) : Route → LegShape → Prop where
  | known (dex : DexSwap) : ShapeOf leg (.decoded dex) (.known leg)
  | sides (program : Program) (path : Path) (transfers : List TokenTransfer) :
      ShapeOf leg (.undecoded program path transfers) (.candidates leg.inputSide leg.outputSide)
  | crossed (program : Program) (path : Path) (transfers : List TokenTransfer) :
      ShapeOf leg (.undecoded program path transfers) (.candidates leg.outputSide leg.inputSide)

/-- However the totals are walked over, an entry that stands for a leg either fails or
has the shape of that leg, both mints of which are involved. -/
theorem shapeOf_shows (profile : Profile) (order : IterationOrder Pubkey UInt64) (leg : Swap)
    (route : Route) (shows : Shows leg route) :
    (∃ error, shapeOf profile order route = .err error) ∨
      ∃ shape, shapeOf profile order route = .ok shape ∧ ShapeOf leg route shape ∧
        Involves leg route := by
  cases route with
  | decoded dex =>
    obtain rfl : dex.swap = leg := shows
    exact .inr ⟨_, rfl, .known dex, trivial⟩
  | undecoded program path transfers =>
    obtain ⟨ofLeg, inTotal, outTotal⟩ := shows
    obtain ⟨sums, walked, sides⟩ := totals_sides profile leg transfers ofLeg inTotal outTotal
    have permuted : (sorted (order.arrange sums.entries)).Perm sums.entries :=
      (List.perm_insertionSort _ _).trans (order.complete _)
    have keys : ((sorted (order.arrange sums.entries)).map Prod.fst).Nodup :=
      (permuted.map Prod.fst).nodup_iff.mpr sums.distinct
    simp only [shapeOf, candidatesFromTransfers, walked, Outcome.ok_bind]
    match listed : sorted (order.arrange sums.entries) with
    | [] | [_] => exact .inl ⟨_, rfl⟩
    | (m1, a1) :: (m2, a2) :: rest =>
      rw [listed] at permuted keys
      have different : m1 ≠ m2 := by
        simp only [List.map_cons, List.nodup_cons, List.mem_cons, not_or] at keys
        exact keys.1.1
      obtain ⟨first, firstMoved⟩ := sides (m1, a1) (permuted.mem_iff.mp (by simp))
      obtain ⟨second, secondMoved⟩ := sides (m2, a2) (permuted.mem_iff.mp (by simp))
      refine .inr ⟨_, rfl, ?_⟩
      rcases first with first | first <;> rcases second with second | second
      · exact absurd (congrArg MintAmount.mint (first.trans second.symm)) different
      · have inputMint : m1 = leg.inputMint := congrArg MintAmount.mint first
        have outputMint : m2 = leg.outputMint := congrArg MintAmount.mint second
        rw [first, second]
        exact ⟨.sides program path transfers, inputMint ▸ firstMoved, outputMint ▸ secondMoved⟩
      · have outputMint : m1 = leg.outputMint := congrArg MintAmount.mint first
        have inputMint : m2 = leg.inputMint := congrArg MintAmount.mint second
        rw [first, second]
        exact ⟨.crossed program path transfers, inputMint ▸ secondMoved, outputMint ▸ firstMoved⟩
      · exact absurd (congrArg MintAmount.mint (first.trans second.symm)) different

/-- A mint that is transferred has a total, and one that has a total keeps it. -/
theorem totals_keys (profile : Profile) (sums final : AssocMap Pubkey UInt64)
    (transfers : List TokenTransfer) (walked : totals profile sums transfers = .ok final)
    (mint : Pubkey) (present : sums.get mint ≠ none ∨
      ∃ transfer ∈ transfers, transfer.mint = some mint) :
    final.get mint ≠ none := by
  induction transfers generalizing sums with
  | nil =>
    obtain rfl : sums = final := Outcome.ok.inj walked
    simpa using present
  | cons transfer rest inductionHypothesis =>
    cases named : transfer.mint with
    | none => simp [totals, named] at walked
    | some moved =>
      simp only [totals, named] at walked
      obtain ⟨total, _, later⟩ := (Outcome.bind_ok_iff _ _ _).mp walked
      apply inductionHypothesis _ later
      by_cases same : moved = mint
      · simp [same]
      · rcases present with inSums | ⟨of, member, names⟩
        · exact .inl (by simpa [same] using inSums)
        · rcases List.mem_cons.mp member with rfl | inRest
          · exact absurd (Option.some.inj (named.symm.trans names)) same
          · exact .inr ⟨of, inRest, names⟩

/-- A list with two different members has two entries at its front. -/
theorem two_of_mem {α : Type} (entries : List α) (first second : α) (inFirst : first ∈ entries)
    (inSecond : second ∈ entries) (different : first ≠ second) :
    ∃ head next rest, entries = head :: next :: rest := by
  match entries with
  | [] => simp at inFirst
  | [only] =>
    rw [List.mem_singleton] at inFirst inSecond
    exact absurd (inFirst.trans inSecond.symm) different
  | head :: next :: rest => exact ⟨head, next, rest, rfl⟩

/-- Transfers of both mints of a leg, with its amounts as totals, give it two sides. -/
theorem shapeOf_involves (profile : Profile) (order : IterationOrder Pubkey UInt64) (leg : Swap)
    (route : Route) (shows : Shows leg route) (involves : Involves leg route)
    (distinct : leg.inputMint ≠ leg.outputMint) :
    ∃ shape, shapeOf profile order route = .ok shape := by
  cases route with
  | decoded dex => exact ⟨_, rfl⟩
  | undecoded program path transfers =>
    obtain ⟨ofLeg, inTotal, outTotal⟩ := shows
    obtain ⟨sums, walked, _⟩ := totals_sides profile leg transfers ofLeg inTotal outTotal
    obtain ⟨input, atInput⟩ := Option.ne_none_iff_exists'.mp
      (totals_keys profile .empty sums transfers walked leg.inputMint (.inr involves.1))
    obtain ⟨output, atOutput⟩ := Option.ne_none_iff_exists'.mp
      (totals_keys profile .empty sums transfers walked leg.outputMint (.inr involves.2))
    have permuted : (sorted (order.arrange sums.entries)).Perm sums.entries :=
      (List.perm_insertionSort _ _).trans (order.complete _)
    obtain ⟨⟨m1, a1⟩, ⟨m2, a2⟩, rest, listed⟩ := two_of_mem (sorted (order.arrange sums.entries))
      (leg.inputMint, input) (leg.outputMint, output)
      (permuted.mem_iff.mpr ((sums.mem_entries _ _).mpr atInput))
      (permuted.mem_iff.mpr ((sums.mem_entries _ _).mpr atOutput))
      (fun same => distinct (congrArg Prod.fst same))
    refine ⟨.candidates ⟨m1, a1⟩ ⟨m2, a2⟩, ?_⟩
    simp [shapeOf, candidatesFromTransfers, walked, listed]

end Routes

end Graced
