import Graced.Printing

/-!
# What is fetched is what is printed

The mints that are collected from the swaps of a transaction are all that printing asks for.
So the report is the one that knows, of each mint, exactly what its own accounts say, in
whatever order the mints were collected. One mint with unreadable extensions leaves all
amounts raw, and one account that is too short ends the program.
-/

namespace Graced.PrintedMints

open Printing MintInfos

/-- The mints of a swap. -/
def swapMints (swap : Swap) : List Pubkey := [swap.inputMint, swap.outputMint]

/-- The mints of a leg, as far as they are known. -/
def routeMints : Route → List Pubkey
  | .decoded dex => swapMints dex.swap
  | .undecoded _ _ transfers => transfers.filterMap TokenTransfer.mint

/-- The mints of a parsed swap. -/
def parsedMints : Parsed → List Pubkey
  | .dex dex => swapMints dex.swap
  | .aggregator agg => agg.swap.toList.flatMap swapMints ++ agg.routes.flatMap routeMints

/-- The mints that a report mentions. -/
def mentioned (swaps : List Parsed) : List Pubkey := swaps.flatMap parsedMints

/-! ## Collecting -/

/-- A set has a mint. -/
def Has (set : MintSet) (mint : Pubkey) : Prop := (set.get mint).isSome

/-- A step of the collection adds the mints of an item and takes nothing away. -/
def Adds {A : Type} (add : MintSet → A → MintSet) (mints : A → List Pubkey) : Prop :=
  ∀ set item mint, Has (add set item) mint ↔ Has set mint ∨ mint ∈ mints item

theorem has_insert (set : MintSet) (other mint : Pubkey) :
    Has (set.insert other ()) mint ↔ Has set mint ∨ mint = other := by
  unfold Has
  rw [AssocMap.get_insert]
  by_cases same : other = mint
  · simp [same]
  · have different : ¬ mint = other := fun equal => same equal.symm
    simp [same, different]

/-- A loop adds the mints of all items. -/
theorem has_foldl {A : Type} (add : MintSet → A → MintSet) (mints : A → List Pubkey)
    (adds : Adds add mints) (set : MintSet) (items : List A) (mint : Pubkey) :
    Has (items.foldl add set) mint ↔ Has set mint ∨ mint ∈ items.flatMap mints := by
  induction items generalizing set with
  | nil => simp
  | cons item rest inductionHypothesis =>
    rw [List.foldl_cons, inductionHypothesis, adds, List.flatMap_cons, List.mem_append, or_assoc]

/-- Adding a swap adds its two mints. -/
theorem adds_swap : Adds addSwap swapMints := by
  intro set swap mint
  rw [addSwap, has_insert, has_insert, or_assoc]
  simp [swapMints]

/-- Adding a transfer adds its mint, where it is known. -/
theorem adds_transfer : Adds addTransfer (fun transfer => transfer.mint.toList) := by
  intro set transfer mint
  cases known : transfer.mint with
  | none => simp [addTransfer, known]
  | some other => simp [addTransfer, known, has_insert]

/-- Adding a leg adds its mints. -/
theorem adds_route : Adds addRoute routeMints := by
  intro set route mint
  cases route with
  | decoded dex => exact adds_swap set dex.swap mint
  | undecoded program path transfers =>
    rw [addRoute, has_foldl addTransfer _ adds_transfer, routeMints]
    simp

/-- Adding what is reported adds the mints of its swap and of its legs. -/
theorem adds_parsed : Adds addParsed parsedMints := by
  intro set parsed mint
  cases parsed with
  | dex dex => exact adds_swap set dex.swap mint
  | aggregator agg =>
    rw [addParsed, has_foldl addRoute _ adds_route, parsedMints, List.mem_append, ← or_assoc]
    cases agg.swap with
    | none => simp
    | some swap => simp [adds_swap set swap mint]

/-- What is collected is what is mentioned. -/
theorem mem_collectMints (order : IterationOrder Pubkey Unit) (swaps : List Parsed)
    (mint : Pubkey) : mint ∈ collectMints order swaps ↔ mint ∈ mentioned swaps := by
  have keys := ((order.complete (swaps.foldl addParsed .empty).entries).map Prod.fst).mem_iff
    (a := mint)
  rw [collectMints, keys, AssocMap.mem_keys]
  have added := has_foldl addParsed _ adds_parsed .empty swaps mint
  simpa [Has, mentioned] using added

/-- No mint is collected twice. -/
theorem collectMints_nodup (order : IterationOrder Pubkey Unit) (swaps : List Parsed) :
    (collectMints order swaps).Nodup :=
  ((order.complete _).map Prod.fst).nodup_iff.mpr (swaps.foldl addParsed .empty).distinct

/-! ## Printing -/

section Printed

variable (printer : Printer) {first second : MintMap}

/-- The lookups have the same for some mints. -/
def AgreeOn (first second : MintMap) (mints : List Pubkey) : Prop :=
  ∀ mint ∈ mints, first mint = second mint

/-- The text of one amount. -/
theorem amountForMint_agree (raw : UInt64) (mint : Pubkey) (same : first mint = second mint) :
    amountForMint first raw mint = amountForMint second raw mint := by
  rw [amountForMint, amountForMint, same]

/-- The name of one mint. -/
theorem mintLabel_agree (mint : Pubkey) (same : first mint = second mint) :
    mintLabel printer first mint = mintLabel printer second mint := by
  rw [mintLabel, mintLabel, same]

/-- The text of a swap. -/
theorem formatSwap_agree (swap : Swap) (agree : AgreeOn first second (swapMints swap)) :
    formatSwap printer first swap = formatSwap printer second swap := by
  have input := agree swap.inputMint (by simp [swapMints])
  have output := agree swap.outputMint (by simp [swapMints])
  rw [formatSwap, formatSwap, amountForMint_agree _ _ input, amountForMint_agree _ _ output,
    mintLabel_agree printer _ input, mintLabel_agree printer _ output]

/-- The text of a net swap. -/
theorem netText_agree (swap : Option Swap) (missing : String)
    (agree : AgreeOn first second (swap.toList.flatMap swapMints)) :
    swap.elim missing (formatSwap printer first) =
      swap.elim missing (formatSwap printer second) := by
  cases swap with
  | none => rfl
  | some swap => exact formatSwap_agree printer swap (by simpa using agree)

/-- The lines of a dex swap. -/
theorem printDexTree_agree (dex : DexSwap) (branch indent : String)
    (agree : AgreeOn first second (swapMints dex.swap)) :
    printDexTree printer first dex branch indent =
      printDexTree printer second dex branch indent := by
  rw [printDexTree, printDexTree, formatSwap_agree printer dex.swap agree]

/-- The line of a transfer. -/
theorem transferText_agree (transfer : TokenTransfer)
    (agree : AgreeOn first second transfer.mint.toList) :
    transferText printer first transfer = transferText printer second transfer := by
  unfold transferText
  cases known : transfer.mint with
  | none => rfl
  | some mint =>
    have same := agree mint (by simp [known])
    simp only [amountForMint_agree _ _ same, mintLabel_agree printer _ same]

/-- The lines of a leg that was not decoded. -/
theorem printUndecodedTree_agree (program : Program) (path : Path)
    (transfers : List TokenTransfer) (i : Nat) (branch indent : String)
    (agree : AgreeOn first second (transfers.filterMap TokenTransfer.mint)) :
    printUndecodedTree printer first program path transfers i branch indent =
      printUndecodedTree printer second program path transfers i branch indent := by
  have each : ∀ entry ∈ transfers.zipIdx,
      transferText printer first entry.1 = transferText printer second entry.1 := by
    intro entry member
    have listed := List.fst_mem_of_mem_zipIdx member
    refine transferText_agree printer entry.1 fun mint known => agree mint ?_
    exact List.mem_filterMap.mpr ⟨entry.1, listed, Option.mem_toList.mp known⟩
  simp only [printUndecodedTree]
  split
  · rfl
  · congr 1
    exact List.map_congr_left fun entry member => by rw [each entry member]

/-- The lines of a leg. -/
theorem printRouteTree_agree (i : Nat) (rb ri : String) (route : Route)
    (agree : AgreeOn first second (routeMints route)) :
    printRouteTree printer first i rb ri route = printRouteTree printer second i rb ri route := by
  cases route with
  | decoded dex => exact printDexTree_agree printer dex _ ri agree
  | undecoded program path transfers =>
    exact printUndecodedTree_agree printer program path transfers i rb ri agree

/-- The mints of an aggregator swap are those of its net swap and those of its legs. -/
theorem agreeOn_aggregator (agg : AggregatorSwap)
    (agree : AgreeOn first second (parsedMints (.aggregator agg))) :
    AgreeOn first second (agg.swap.toList.flatMap swapMints) ∧
      ∀ entry ∈ agg.routes.zipIdx, AgreeOn first second (routeMints entry.1) := by
  refine ⟨fun mint member => agree mint (List.mem_append_left _ member), ?_⟩
  intro entry listed mint member
  refine agree mint (List.mem_append_right _ ?_)
  exact List.mem_flatMap.mpr ⟨entry.1, List.fst_mem_of_mem_zipIdx listed, member⟩

/-- The lines of an aggregator swap. -/
theorem printAggregatorTree_agree (agg : AggregatorSwap) (branch indent : String)
    (detail : Detail) (agree : AgreeOn first second (parsedMints (.aggregator agg))) :
    printAggregatorTree printer first agg branch indent detail =
      printAggregatorTree printer second agg branch indent detail := by
  obtain ⟨net, legs⟩ := agreeOn_aggregator agg agree
  unfold printAggregatorTree
  simp only [netText_agree printer agg.swap _ net]
  congr 2
  exact List.flatMap_congr fun entry listed =>
    printRouteTree_agree printer entry.2 _ _ entry.1 (legs entry listed)

/-- The line of a leg in the compact style. -/
theorem compactRoute_agree (i : Nat) (route : Route)
    (agree : AgreeOn first second (routeMints route)) :
    compactRoute printer first i route = compactRoute printer second i route := by
  cases route with
  | decoded dex =>
    unfold compactRoute
    simp only [formatSwap_agree printer dex.swap agree]
  | undecoded program path transfers => rfl

/-- The cell of an amount. -/
theorem amountText_agree (raw : UInt64) (mint : Pubkey) (same : first mint = second mint) :
    amountText printer first raw mint = amountText printer second raw mint := by
  rw [amountText, amountText, amountForMint_agree _ _ same, mintLabel_agree printer _ same]

/-- The row of a dex swap. -/
theorem dexRow_agree (kind : Cell) (dex : DexSwap)
    (agree : AgreeOn first second (swapMints dex.swap)) :
    dexRow printer first kind dex = dexRow printer second kind dex := by
  have input := agree dex.swap.inputMint (by simp [swapMints])
  have output := agree dex.swap.outputMint (by simp [swapMints])
  rw [dexRow, dexRow, amountText_agree printer _ _ input, amountText_agree printer _ _ output]

/-- The row of a leg. -/
theorem routeRow_agree (i : Nat) (route : Route)
    (agree : AgreeOn first second (routeMints route)) :
    routeRow printer first i route = routeRow printer second i route := by
  cases route with
  | decoded dex => exact dexRow_agree printer _ dex agree
  | undecoded program path transfers => rfl

/-- The lines of a parsed swap. -/
theorem printParsedTree_agree (branch : String) (detail : Detail) (parsed : Parsed)
    (agree : AgreeOn first second (parsedMints parsed)) :
    printParsedTree printer first branch detail parsed =
      printParsedTree printer second branch detail parsed := by
  cases parsed with
  | dex dex => exact printDexTree_agree printer dex branch "  " agree
  | aggregator agg => exact printAggregatorTree_agree printer agg branch "  " detail agree

/-- The lines of a parsed swap in the compact style. -/
theorem compactParsed_agree (detail : Detail) (parsed : Parsed)
    (agree : AgreeOn first second (parsedMints parsed)) :
    compactParsed printer first detail parsed = compactParsed printer second detail parsed := by
  cases parsed with
  | dex dex =>
    unfold compactParsed
    simp only [formatSwap_agree printer dex.swap agree]
  | aggregator agg =>
    obtain ⟨net, legs⟩ := agreeOn_aggregator agg agree
    have lines := List.map_congr_left fun entry listed =>
      compactRoute_agree printer entry.2 entry.1 (legs entry listed)
    unfold compactParsed
    simp only [netText_agree printer agg.swap _ net, lines]

/-- The rows of a parsed swap. -/
theorem parsedRows_agree (detail : Detail) (parsed : Parsed)
    (agree : AgreeOn first second (parsedMints parsed)) :
    parsedRows printer first detail parsed = parsedRows printer second detail parsed := by
  cases parsed with
  | dex dex => rw [parsedRows, parsedRows, dexRow_agree printer _ dex agree]
  | aggregator agg =>
    obtain ⟨net, legs⟩ := agreeOn_aggregator agg agree
    have lines := List.map_congr_left fun entry listed =>
      routeRow_agree printer entry.2 entry.1 (legs entry listed)
    have amounts (amount : Swap → UInt64) (mint : Swap → Pubkey)
        (own : ∀ swap, mint swap ∈ swapMints swap) :
        agg.swap.elim "unknown" (fun s => amountText printer first (amount s) (mint s)) =
          agg.swap.elim "unknown" (fun s => amountText printer second (amount s) (mint s)) := by
      cases known : agg.swap with
      | none => rfl
      | some swap =>
        exact amountText_agree printer _ _ (net _ (by simpa [known] using own swap))
    simp only [parsedRows, lines, amounts Swap.inputAmount Swap.inputMint (by simp [swapMints]),
      amounts Swap.outputAmount Swap.outputMint (by simp [swapMints])]

/-- Each parsed swap finds its own mints among those mentioned. -/
theorem agreeOn_parsed (swaps : List Parsed) (agree : AgreeOn first second (mentioned swaps))
    (parsed : Parsed) (listed : parsed ∈ swaps) : AgreeOn first second (parsedMints parsed) :=
  fun mint member => agree mint (List.mem_flatMap.mpr ⟨parsed, listed, member⟩)

/-- What is printed depends only on what the map has for the mints that are mentioned. -/
theorem printSwaps_agree (style : Style) (swaps : List Parsed) (detail : Detail)
    (agree : AgreeOn first second (mentioned swaps)) :
    printSwaps printer first style swaps detail = printSwaps printer second style swaps detail := by
  have own := agreeOn_parsed swaps agree
  cases style with
  | tree =>
    exact List.flatMap_congr fun entry listed =>
      printParsedTree_agree printer _ detail entry.1
        (own entry.1 (List.fst_mem_of_mem_zipIdx listed))
  | compact =>
    exact List.flatMap_congr fun parsed listed =>
      compactParsed_agree printer detail parsed (own parsed listed)
  | table =>
    have rows := List.flatMap_congr fun parsed listed =>
      parsedRows_agree printer detail parsed (own parsed listed)
    simp only [printSwaps, printTable, rows]

end Printed

/-! ## The report -/

section Report

variable (printer : Printer) (debugAssertions : Bool) (codecs : MintCodecs)

/-- Whatever the order in which the mints are collected: if the accounts of all mentioned mints
are readable, the report is printed with what each mint's own accounts say; if one is too
short, the program ends; and if all are long enough but the extensions of one are not
readable, the report is printed without any infos, below a line about the failure. -/
theorem report_told (client : RpcClient) (order : IterationOrder Pubkey Unit) (style : Style)
    (detail : Detail) (swaps : List Parsed) (any : swaps ≠ []) (lookupOf : Pubkey → Lookup)
    (about : ∀ mint, (lookupOf mint).mint = mint)
    (answers : Answers codecs client ((collectMints order swaps).map lookupOf)) :
    ((∀ mint ∈ mentioned swaps, Readable codecs (lookupOf mint)) →
      report printer debugAssertions codecs client order style detail swaps =
        .ok (printSwaps printer (fun mint => entry codecs (lookupOf mint)) style swaps detail)) ∧
    ((∃ mint ∈ mentioned swaps, ¬ Sized (lookupOf mint)) →
      report printer debugAssertions codecs client order style detail swaps = .panic) ∧
    ((∀ mint ∈ mentioned swaps, Sized (lookupOf mint)) →
      (∃ mint ∈ mentioned swaps, ¬ Labelled codecs (lookupOf mint)) → ∃ error,
        report printer debugAssertions codecs client order style detail swaps =
          .ok (errorLine printer ("failed to fetch mint info: " ++ error) ::
            printSwaps printer (fun _ => none) style swaps detail)) := by
  have asked : mintsOf ((collectMints order swaps).map lookupOf) = collectMints order swaps := by
    simp [mintsOf, List.map_map, Function.comp_def, about]
  have listed (property : Lookup → Prop) :
      (∀ lookup ∈ (collectMints order swaps).map lookupOf, property lookup) ↔
        ∀ mint ∈ mentioned swaps, property (lookupOf mint) := by
    simp [mem_collectMints]
  have listedSome (property : Lookup → Prop) :
      (∃ lookup ∈ (collectMints order swaps).map lookupOf, property lookup) ↔
        ∃ mint ∈ mentioned swaps, property (lookupOf mint) := by
    simp [mem_collectMints]
  have opened : report printer debugAssertions codecs client order style detail swaps =
      (do
        let map ← fetchMintsFor debugAssertions codecs client (collectMints order swaps)
        pure (fetchErrors printer debugAssertions codecs client (collectMints order swaps) ++
          printSwaps printer map.get style swaps detail)) := by
    rw [report, if_neg (by simpa using any)]
  have mentionedSome (property : Pubkey → Prop) (found : ∃ mint ∈ mentioned swaps, property mint) :
      collectMints order swaps ≠ [] := by
    obtain ⟨mint, member, _⟩ := found
    exact List.ne_nil_of_mem ((mem_collectMints order swaps mint).mpr member)
  have ends := fetchMintInfos_ends debugAssertions codecs client _ answers
  rw [asked, listed, listed, listedSome, listedSome] at ends
  refine ⟨fun readable => ?_, fun short => ?_, fun sized unlabelled => ?_⟩
  · have distinct : (mintsOf ((collectMints order swaps).map lookupOf)).Nodup := by
      rw [asked]
      exact collectMints_nodup order swaps
    obtain ⟨map, fetched, finds⟩ := fetchMintsFor_finds debugAssertions codecs client _ answers
      distinct ((listed _).mpr readable)
    rw [asked] at fetched
    have quiet : fetchErrors printer debugAssertions codecs client (collectMints order swaps) =
        [] := by
      rcases ends with ⟨_, returned⟩ | ⟨⟨mint, member, notSized⟩, _⟩ |
        ⟨⟨_, mint, member, notLabelled⟩, _⟩
      · simp [fetchErrors, returned]
      · exact absurd (readable mint member).sized notSized
      · exact absurd (readable mint member).labelled notLabelled
    have agree : AgreeOn map.get (fun mint => entry codecs (lookupOf mint)) (mentioned swaps) := by
      intro mint member
      have found := (listed fun lookup => map.get lookup.mint = entry codecs lookup).mp finds mint
        member
      rwa [about] at found
    rw [opened, fetched, Outcome.ok_bind, quiet,
      printSwaps_agree printer style swaps detail agree]
    rfl
  · have asks := mentionedSome _ short
    rcases ends with ⟨readable, _⟩ | ⟨_, panics⟩ | ⟨⟨sized, _⟩, _⟩
    · obtain ⟨mint, member, notSized⟩ := short
      exact absurd (readable mint member).sized notSized
    · rw [opened, fetchMintsFor, if_neg asks, panics]
      rfl
    · obtain ⟨mint, member, notSized⟩ := short
      exact absurd (sized mint member) notSized
  · have asks := mentionedSome _ unlabelled
    rcases ends with ⟨readable, _⟩ | ⟨⟨mint, member, notSized⟩, _⟩ | ⟨_, error, fails⟩
    · obtain ⟨mint, member, notLabelled⟩ := unlabelled
      exact absurd (readable mint member).labelled notLabelled
    · exact absurd (sized mint member) notSized
    · refine ⟨error, ?_⟩
      rw [opened, fetchMintsFor, if_neg asks, fails, fetchErrors, if_neg asks, fails]
      rfl

end Report

/-- A printer without colors. -/
def plainPrinter : Printer where
  keyText key := toString key.raw.toNat
  bold := id
  dimmed := id
  green := id
  yellow := id
  red := id
  cyan := id
  magenta := id
  table _ _ := ""

/-- Every mint is one of the older token program, with the same data. -/
def plainLookup (mint : Pubkey) : Lookup := ⟨mint, some ⟨Ids.splToken, mintData⟩, none⟩

/-- A swap of a dex between two such mints. -/
def plainSwaps : List Parsed := [.dex ⟨⟨0x3⟩, ⟨0x4⟩, .orca, ⟨1500000, 20, ⟨0x1⟩, ⟨0x2⟩⟩⟩]

/-- The report on this swap adjusts both amounts. -/
theorem report_told_of_dex :
    report plainPrinter true plainCodecs
        (clientOf ((collectMints default plainSwaps).map plainLookup)) default .compact .full
        plainSwaps =
      .ok (printSwaps plainPrinter (fun mint => entry plainCodecs (plainLookup mint)) .compact
        plainSwaps .full) := by
  refine (report_told plainPrinter true plainCodecs _ default .compact .full plainSwaps
    (by simp [plainSwaps]) plainLookup (fun _ => rfl) (clientOf_answers plainCodecs _)).1 ?_
  intro mint _
  refine ⟨?_, ?_⟩
  · rintro _ ⟨⟩
    exact (by decide : mintLen ≤ mintData.length)
  · rintro _ _ ⟨⟩ _ _ newer
    exact absurd newer (by decide)

end Graced.PrintedMints
