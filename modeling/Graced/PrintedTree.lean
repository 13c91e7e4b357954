import Graced.PrintedLines
import Graced.PrintedMints

/-!
# The printed tree is a tree

The tree style prints an outline of the report: below a swap its parties and its amounts, below
an aggregator swap also its legs, and below a leg that was not decoded its transfers. What is
printed is a drawn forest. Unless a mint is called by a text with a line break, a reader who
counts the columns of every line and takes off the branches gets the outline back, although
below the last of the legs that were decoded the bar goes on as if another leg came.
-/

namespace Graced.PrintedTree

open PrintedLines Printing

/-- What an entry of the tree says: of a leg it also gives the number, before the branch. -/
inductive Entry where
  | plain (text : String)
  | leg (index : Nat) (decoded : Bool) (text : String)
deriving DecidableEq, Repr

/-- The branch to the last of some siblings, or to another one. -/
def branchTo (last : Bool) : String := if last then "\\-" else "|-"

/-- The column below the last of some siblings, or below another one. -/
def columnBelow (last : Bool) : String := if last then "   " else "|  "

/-- How the entries are drawn. Below a leg that was decoded the bar always goes on. -/
def drawing : Forest.Drawing Entry where
  head last
    | .plain text => branchTo last ++ text
    | .leg index _ text => "[" ++ toString index ++ "] " ++ branchTo last ++ text
  column last
    | .plain _ => columnBelow last
    | .leg _ decoded _ => if decoded then "|  " else columnBelow last

/-- The text of an entry without its branch. -/
def Entry.text : Entry → String
  | plain text => text
  | leg index _ text => "[" ++ toString index ++ "] " ++ text

/-! ## The outline -/

section Outline

variable (printer : Printer) (mints : MintMap)

/-- An entry with nothing below it. -/
def leaf (text : String) : Entry × Forest Entry := (.plain text, .nil)

/-- What stands below a swap of a dex. -/
def dexDetails (dex : DexSwap) : Forest Entry :=
  .ofTrees [leaf (" user   " ++ printer.yellow (short printer dex.user)),
    leaf (" market " ++ printer.yellow (short printer dex.market)),
    leaf (" swap   " ++ formatSwap printer mints dex.swap)]

/-- The title of a swap of a dex. -/
def dexTitle (dex : DexSwap) : String :=
  " " ++ printer.cyan "*" ++ " " ++
    printer.bold ("DEX SWAP via " ++ programText printer dex.program)

/-- The transfers below a leg that was not decoded. -/
def transfersTree (transfers : List TokenTransfer) : Entry × Forest Entry :=
  if transfers.isEmpty then leaf " transfers: none"
  else (.plain (" transfers (" ++ toString transfers.length ++ ")"),
    .ofTrees (transfers.map (fun transfer => leaf (" " ++ transferText printer mints transfer))))

/-- A leg. -/
def routeTree (i : Nat) : Route → Entry × Forest Entry
  | .decoded dex => (.leg i true (dexTitle printer dex), dexDetails printer mints dex)
  | .undecoded program path transfers =>
    (.leg i false (" " ++ printer.red "o" ++ " " ++
      printer.bold ("UNDECODED via " ++ programText printer program)),
    .ofTrees [leaf (" path " ++ pathText path), transfersTree printer mints transfers])

/-- The legs of an aggregator swap, if they are shown and there are any. -/
def routesTree (detail : Detail) (routes : List Route) : List (Entry × Forest Entry) :=
  if detail = .full ∧ ¬ routes.isEmpty then
    [(.plain (" routes (" ++ toString routes.length ++ ")"),
      .ofTrees (routes.zipIdx.map (fun entry => routeTree printer mints entry.2 entry.1)))]
  else []

/-- A parsed swap. -/
def parsedTree (detail : Detail) : Parsed → Entry × Forest Entry
  | .dex dex => (.plain (dexTitle printer dex), dexDetails printer mints dex)
  | .aggregator agg =>
    (.plain (" " ++ printer.magenta "#" ++ " " ++
      printer.bold ("AGGREGATOR SWAP via " ++ programText printer agg.program)),
    .ofTrees (leaf (" user " ++ printer.yellow (short printer agg.user)) ::
      leaf (" net   " ++ agg.swap.elim (printer.dimmed "unknown") (formatSwap printer mints)) ::
      routesTree printer mints detail agg.routes))

/-- The outline of a report. -/
def outline (detail : Detail) (swaps : List Parsed) : Forest Entry :=
  .ofTrees (swaps.map (parsedTree printer mints detail))

end Outline

/-! ## Drawing -/

section Drawn

variable (printer : Printer) (mints : MintMap)

/-- Below a branch its column goes on. -/
theorem childIndent_branchTo (indent : String) (last : Bool) :
    childIndent indent (branchTo last) = indent ++ columnBelow last := by
  cases last <;> rfl

/-- Below a branch with a number the bar goes on. -/
theorem childIndent_leg (indent : String) (i : Nat) (last : Bool) :
    childIndent indent ("[" ++ toString i ++ "] " ++ branchTo last) = indent ++ "|  " := by
  simp [childIndent]

/-- Leaves are drawn one below the other. -/
theorem draw_leaves (indent : String) (texts : List String) :
    Forest.draw drawing indent (.ofTrees (texts.map leaf)) =
      texts.zipIdx.map (fun entry =>
        indent ++ (branchTo (entry.2 = texts.length - 1) ++ entry.1)) := by
  rw [Forest.draw_ofTrees, List.length_map, List.zipIdx_map, List.flatMap_map,
    List.map_eq_flatMap]
  rfl

/-- Two siblings, of which only the last one has anything below it. -/
theorem draw_pair (indent first : String) (second : Entry × Forest Entry) :
    Forest.draw drawing indent (.ofTrees [leaf first, second]) =
      (indent ++ ("|-" ++ first)) :: (indent ++ drawing.head true second.1) ::
        Forest.draw drawing (indent ++ drawing.column true second.1) second.2 := by
  simp [Forest.ofTrees, Forest.draw, Forest.isNil, leaf, drawing, branchTo]

/-- Three siblings, of which only the last one has anything below it. -/
theorem draw_triple (indent first second : String) (third : Entry × Forest Entry) :
    Forest.draw drawing indent (.ofTrees [leaf first, leaf second, third]) =
      (indent ++ ("|-" ++ first)) :: (indent ++ ("|-" ++ second)) ::
        (indent ++ drawing.head true third.1) ::
          Forest.draw drawing (indent ++ drawing.column true third.1) third.2 := by
  simp [Forest.ofTrees, Forest.draw, Forest.isNil, leaf, drawing, branchTo]

/-- A branch is written together with the first words of its entry. -/
theorem words_after_branch (branch words line text : String) (together : branch ++ words = line) :
    branch ++ (words ++ text) = line ++ text := by
  rw [← String.append_assoc, together]

/-- The entries of a swap of a dex. -/
theorem printDexTree_draws (dex : DexSwap) (branch indent : String) :
    printDexTree printer mints dex branch indent =
      (indent ++ (branch ++ dexTitle printer dex)) ::
        Forest.draw drawing (childIndent indent branch) (dexDetails printer mints dex) := by
  have details : dexDetails printer mints dex = .ofTrees
    ([" user   " ++ printer.yellow (short printer dex.user),
      " market " ++ printer.yellow (short printer dex.market),
      " swap   " ++ formatSwap printer mints dex.swap].map leaf) := rfl
  rw [details, draw_leaves]
  have user := words_after_branch "|-" " user   " "|- user   "
    (printer.yellow (short printer dex.user)) rfl
  have market := words_after_branch "|-" " market " "|- market "
    (printer.yellow (short printer dex.market)) rfl
  have swap := words_after_branch "\\-" " swap   " "\\- swap   "
    (formatSwap printer mints dex.swap) rfl
  simp [printDexTree, dexTitle, branchTo, String.append_assoc, user, market, swap]

/-- The entries of the transfers below a leg. -/
theorem transfers_draw (transfers : List TokenTransfer) (any : ¬ transfers.isEmpty)
    (indent : String) :
    Forest.draw drawing indent (transfersTree printer mints transfers).2 =
      transfers.zipIdx.map (fun entry =>
        indent ++ (branchTo (entry.2 = transfers.length - 1) ++
          (" " ++ transferText printer mints entry.1))) := by
  have leaves : transfers.map (fun transfer => leaf (" " ++ transferText printer mints transfer)) =
      (transfers.map (fun transfer => " " ++ transferText printer mints transfer)).map leaf := by
    simp
  rw [transfersTree, if_neg any, leaves, draw_leaves, List.length_map, List.zipIdx_map,
    List.map_map]
  rfl

/-- The entries of a leg that was not decoded. -/
theorem printUndecodedTree_draws (program : Program) (path : Path)
    (transfers : List TokenTransfer) (i : Nat) (last : Bool) (indent : String) :
    printUndecodedTree printer mints program path transfers i (branchTo last) indent =
      (indent ++ drawing.head last
        (routeTree printer mints i (.undecoded program path transfers)).1) ::
        Forest.draw drawing (indent ++ columnBelow last)
          (routeTree printer mints i (.undecoded program path transfers)).2 := by
  have path := words_after_branch "|-" " path " "|- path " (pathText path) rfl
  rw [routeTree, draw_pair, printUndecodedTree, childIndent_branchTo]
  by_cases empty : transfers.isEmpty
  · rw [if_pos empty, transfersTree, if_pos empty]
    simp [leaf, Forest.draw, drawing, branchTo, path, String.append_assoc]
  · rw [if_neg empty, transfers_draw printer mints transfers empty, transfersTree, if_neg empty]
    have title (text : String) := words_after_branch "\\-" " transfers (" "\\- transfers (" text rfl
    simp [drawing, branchTo, columnBelow, path, title, String.append_assoc]

/-- The entries of a leg. -/
theorem route_draws (i : Nat) (last : Bool) (indent : String) (route : Route) :
    printRouteTree printer mints i (branchTo last) indent route =
      (indent ++ drawing.head last (routeTree printer mints i route).1) ::
        Forest.draw drawing (indent ++ drawing.column last (routeTree printer mints i route).1)
          (routeTree printer mints i route).2 := by
  cases route with
  | decoded dex =>
    rw [printRouteTree, printDexTree_draws, childIndent_leg]
    rfl
  | undecoded program path transfers =>
    exact printUndecodedTree_draws printer mints program path transfers i last indent

/-- The entries of the legs of an aggregator swap. -/
theorem routes_draw (routes : List Route) (indent : String) :
    Forest.draw drawing indent
        (.ofTrees (routes.zipIdx.map (fun entry => routeTree printer mints entry.2 entry.1))) =
      routes.zipIdx.flatMap (fun entry =>
        printRouteTree printer mints entry.2
          (if entry.2 = routes.length - 1 then "\\-" else "|-") indent entry.1) := by
  rw [Forest.draw_numbered drawing indent routes (routeTree printer mints)]
  refine List.flatMap_congr fun entry _ => ?_
  have branch : (if entry.2 = routes.length - 1 then "\\-" else "|-") =
      branchTo (decide (entry.2 = routes.length - 1)) := by
    simp [branchTo]
  rw [branch]
  exact (route_draws printer mints entry.2 _ indent entry.1).symm

/-- The entries of an aggregator swap. -/
theorem printAggregatorTree_draws (agg : AggregatorSwap) (last : Bool) (indent : String)
    (detail : Detail) :
    printAggregatorTree printer mints agg (branchTo last) indent detail =
      (indent ++ drawing.head last (parsedTree printer mints detail (.aggregator agg)).1) ::
        Forest.draw drawing
          (indent ++ drawing.column last (parsedTree printer mints detail (.aggregator agg)).1)
          (parsedTree printer mints detail (.aggregator agg)).2 := by
  have user := words_after_branch "|-" " user " "|- user "
    (printer.yellow (short printer agg.user)) rfl
  by_cases shown : detail = .full ∧ ¬ agg.routes.isEmpty
  · have net (text : String) := words_after_branch "|-" " net   " "|- net   " text rfl
    have title (text : String) := words_after_branch "\\-" " routes (" "\\- routes (" text rfl
    rw [parsedTree, routesTree, if_pos shown, draw_triple, routes_draw]
    simp only [printAggregatorTree, if_pos shown, childIndent_branchTo]
    simp [drawing, branchTo, columnBelow, user, net, title, String.append_assoc]
  · have net (text : String) := words_after_branch "\\-" " net   " "\\- net   " text rfl
    rw [parsedTree, routesTree, if_neg shown, draw_pair]
    simp only [printAggregatorTree, if_neg shown, childIndent_branchTo]
    simp [leaf, Forest.draw, drawing, branchTo, user, net, String.append_assoc]

/-- The entries of the tree are those of the drawn outline. -/
theorem printTree_draws (detail : Detail) (swaps : List Parsed) :
    printTree printer mints swaps detail =
      Forest.draw drawing "  " (outline printer mints detail swaps) := by
  have unnumbered : swaps.map (parsedTree printer mints detail) =
      swaps.zipIdx.map (fun entry => parsedTree printer mints detail entry.1) := by
    conv_lhs => rw [← List.zipIdx_map_fst 0 swaps, List.map_map]
    rfl
  rw [outline, unnumbered, Forest.draw_numbered drawing "  " swaps
    (fun _ parsed => parsedTree printer mints detail parsed), printTree]
  refine List.flatMap_congr fun entry _ => ?_
  have branch : (if entry.2 = swaps.length - 1 then "\\-" else "|-") =
      branchTo (decide (entry.2 = swaps.length - 1)) := by
    simp [branchTo]
  rw [branch]
  cases entry.1 with
  | dex dex =>
    rw [printParsedTree, printDexTree_draws, childIndent_branchTo]
    rfl
  | aggregator agg => exact printAggregatorTree_draws printer mints agg _ "  " detail

end Drawn

/-! ## Reading -/

/-- The columns at the beginning of a text, and what comes after them. -/
def columns : List Char → Nat × List Char
  | '|' :: ' ' :: ' ' :: rest => ((columns rest).1 + 1, (columns rest).2)
  | ' ' :: ' ' :: ' ' :: rest => ((columns rest).1 + 1, (columns rest).2)
  | rest => (0, rest)

/-- The text behind a branch. The number of a leg stands before it. -/
def withoutBranch : List Char → List Char
  | '[' :: rest =>
    '[' :: rest.takeWhile (· ≠ ' ') ++ ' ' :: (rest.dropWhile (· ≠ ' ')).drop 3
  | line => line.drop 2

/-- A line without the columns and the branch, with the number of columns. -/
def readColumns (line : List Char) : Nat × List Char :=
  ((columns line).1, withoutBranch (columns line).2)

/-- A line of the tree, which is indented by two. -/
def readLine (line : List Char) : Nat × List Char := readColumns (line.drop 2)

/-- The text behind a branch to the last of some siblings, or to another one. -/
theorem withoutBranch_branchTo (last : Bool) (text : List Char) :
    columns ((branchTo last).toList ++ text) = (0, (branchTo last).toList ++ text) ∧
      withoutBranch ((branchTo last).toList ++ text) = text := by
  cases last <;> exact ⟨rfl, rfl⟩

/-- The number of a leg has no spaces in it. -/
theorem number_dense (index : Nat) : ∀ c ∈ (toString index).toList ++ [']'], c ≠ ' ' := by
  intro c member
  rw [Nat.toString_eq_repr, Nat.toList_repr] at member
  rcases List.mem_append.mp member with digit | bracket
  · rintro rfl
    exact absurd (Numerals.toDigits_isDigit index ' ' digit) (by decide)
  · rintro rfl
    simp at bracket

/-- The text behind the branch of a leg, with the number of the leg. -/
theorem withoutBranch_leg (last : Bool) (index : Nat) (text : List Char) :
    withoutBranch ('[' :: ((toString index).toList ++ [']'] ++
        ' ' :: ((branchTo last).toList ++ text))) =
      '[' :: ((toString index).toList ++ [']'] ++ ' ' :: text) := by
  have dense : ∀ c ∈ (toString index).toList ++ [']'], decide (c ≠ ' ') = true :=
    fun c member => decide_eq_true (number_dense index c member)
  rw [withoutBranch, List.takeWhile_append_of_pos dense, List.dropWhile_append_of_pos dense]
  cases last <;> simp [branchTo]

/-- The entries of the tree can be read. -/
theorem legible : Forest.Legible drawing readColumns (fun entry => entry.text.toList) := by
  constructor
  · intro last entry rest
    have bar : readColumns ("|  ".toList ++ rest) =
        ((readColumns rest).1 + 1, (readColumns rest).2) := rfl
    have blank : readColumns ("   ".toList ++ rest) =
        ((readColumns rest).1 + 1, (readColumns rest).2) := rfl
    cases entry with
    | plain text =>
      cases last
      · exact bar
      · exact blank
    | leg index decoded text =>
      cases decoded
      · cases last
        · exact bar
        · exact blank
      · exact bar
  · intro last entry
    cases entry with
    | plain text =>
      have split : (drawing.head last (.plain text)).toList =
          (branchTo last).toList ++ text.toList := String.toList_append
      obtain ⟨noColumn, read⟩ := withoutBranch_branchTo last text.toList
      rw [split, readColumns, noColumn, read]
      rfl
    | leg index decoded text =>
      have split : (drawing.head last (.leg index decoded text)).toList =
          '[' :: ((toString index).toList ++ [']'] ++
            ' ' :: ((branchTo last).toList ++ text.toList)) := by
        simp [drawing]
      have noColumn (rest : List Char) : columns ('[' :: rest) = (0, '[' :: rest) := rfl
      rw [split, readColumns, noColumn, withoutBranch_leg]
      simp [Entry.text]

/-- Whatever is printed in the tree style, if no label has a line break: counting the columns of
the lines and nesting them by that gives the outline of the report. -/
theorem tree_read_back (printer : Printer) (keeps : KeepsLines printer) (mints : MintMap)
    (labels : SingleLineLabels mints) (detail : Detail) (swaps : List Parsed) :
    (Forest.nest Forest.deeper
        ((linesOf (printed (printTree printer mints swaps detail)).toList).map readLine)).map
          Prod.snd =
      (outline printer mints detail swaps).map (fun entry => entry.text.toList) := by
  rw [linesOf_printed _ (single_tree keeps labels swaps detail), List.map_map, printTree_draws]
  exact Forest.nest_draw drawing readColumns (fun entry => entry.text.toList) legible readLine
    (outline printer mints detail swaps) "  " (fun _ => rfl)

/-- A swap of a dex between two mints of which nothing is known. -/
theorem tree_read_back_of_dex :
    (Forest.nest Forest.deeper
        ((linesOf (printed (printTree PrintedMints.plainPrinter (fun _ => none)
          PrintedMints.plainSwaps .full)).toList).map readLine)).map Prod.snd =
      (outline PrintedMints.plainPrinter (fun _ => none) .full PrintedMints.plainSwaps).map
        (fun entry => entry.text.toList) :=
  tree_read_back PrintedMints.plainPrinter
    ⟨fun key => single_repr key.raw.toNat, fun _ => id, fun _ => id, fun _ => id, fun _ => id,
      fun _ => id, fun _ => id, fun _ => id⟩
    (fun _ => none) (fun _ _ _ known => by cases known) .full PrintedMints.plainSwaps

end Graced.PrintedTree
