import Graced.Printing

/-!
# Entries and lines

Every entry of a report ends a line. An entry is one line only if no text in it breaks the line,
and nothing keeps the symbol or the name of a mint from doing so. Where they do not, the tree
style prints one line for every entry.
-/

namespace Graced.PrintedLines

open Printing Numerals

/-- No line breaks. -/
def SingleLine (text : String) : Prop := '\n' ∉ text.toList

instance (text : String) : Decidable (SingleLine text) := inferInstanceAs (Decidable (_ ∉ _))

/-- The lines of a text whose last line is ended. -/
def linesOf (text : List Char) : List (List Char) := (text.splitOn '\n').dropLast

/-- The libraries for keys and emphasis add no line breaks. -/
structure KeepsLines (printer : Printer) : Prop where
  keyText : ∀ key, SingleLine (printer.keyText key)
  bold : ∀ text, SingleLine text → SingleLine (printer.bold text)
  dimmed : ∀ text, SingleLine text → SingleLine (printer.dimmed text)
  green : ∀ text, SingleLine text → SingleLine (printer.green text)
  yellow : ∀ text, SingleLine text → SingleLine (printer.yellow text)
  red : ∀ text, SingleLine text → SingleLine (printer.red text)
  cyan : ∀ text, SingleLine text → SingleLine (printer.cyan text)
  magenta : ∀ text, SingleLine text → SingleLine (printer.magenta text)

/-- No mint is called by a text with a line break. -/
def SingleLineLabels (mints : MintMap) : Prop :=
  ∀ mint info label, mints mint = some info → info.symbol.or info.name = some label →
    SingleLine label

/-- Entries without line breaks are the lines of what is printed. -/
theorem linesOf_printed (entries : List String) (single : ∀ entry ∈ entries, SingleLine entry) :
    linesOf (printed entries).toList = entries.map String.toList := by
  rw [linesOf, printed, String.toList_join, List.flatMap_map]
  induction entries with
  | nil => rfl
  | cons entry rest inductionHypothesis =>
    have unbroken : ∀ c ∈ entry.toList, (c == '\n') = false := by
      intro c member
      rw [beq_eq_false_iff_ne]
      rintro rfl
      exact single entry List.mem_cons_self member
    rw [List.flatMap_cons, String.toList_append, List.append_assoc]
    change (List.splitOn '\n' (entry.toList ++ '\n' ::
      rest.flatMap fun other => (other ++ "\n").toList)).dropLast = _
    rw [List.splitOn_eq_splitOnP, List.splitOnP_append_cons_of_forall_mem unbroken _ (by rfl),
      ← List.splitOn_eq_splitOnP, List.dropLast_cons_of_ne_nil (List.splitOn_ne_nil _ _),
      inductionHypothesis fun other among => single other (List.mem_cons_of_mem entry among)]
    rfl

/-! ## Texts -/

@[simp] theorem single_append (first second : String) :
    SingleLine (first ++ second) ↔ SingleLine first ∧ SingleLine second := by
  simp [SingleLine, not_or]

theorem single_ofList (text : List Char) (unbroken : '\n' ∉ text) :
    SingleLine (String.ofList text) := by
  rwa [SingleLine, String.toList_ofList]

/-- Digits do not break a line. -/
theorem digits_unbroken (value : Nat) : '\n' ∉ Nat.toDigits 10 value := by
  intro member
  exact absurd (toDigits_isDigit value '\n' member) (by decide)

@[simp] theorem single_repr (value : Nat) : SingleLine value.repr := by
  rw [SingleLine, Nat.toList_repr]
  exact digits_unbroken value

/-- Nothing but commas is inserted. -/
theorem mem_insertCommas (i : Nat) (text : List Char) (c : Char)
    (member : c ∈ insertCommas i text) : c = ',' ∨ c ∈ text := by
  induction text generalizing i with
  | nil => simp [insertCommas] at member
  | cons first rest inductionHypothesis =>
    rw [insertCommas] at member
    rcases List.mem_append.mp member with here | later
    · split at here
      · rcases List.mem_pair.mp here with rfl | rfl
        · exact .inl rfl
        · exact .inr List.mem_cons_self
      · exact .inr (List.mem_singleton.mp here ▸ List.mem_cons_self)
    · exact (inductionHypothesis (i + 1) later).imp_right (List.mem_cons_of_mem first)

@[simp] theorem single_commas (n : UInt64) : SingleLine (commas n) := by
  apply single_ofList
  rw [Nat.toString_eq_repr, Nat.toList_repr, List.mem_reverse]
  intro member
  rcases mem_insertCommas 0 _ '\n' member with comma | digit
  · exact absurd comma (by decide)
  · exact digits_unbroken n.toNat (List.mem_reverse.mp digit)

@[simp] theorem single_formatAmount (raw : UInt64) (decimals : UInt8) :
    SingleLine (formatAmount raw decimals) := by
  unfold formatAmount
  split
  · exact single_commas raw
  · split
    · exact single_commas raw
    · rename_i divisor _
      simp only
      split
      · exact single_commas _
      · have point : SingleLine "." := by decide
        simp only [single_append, single_commas, point, and_self, true_and]
        apply single_ofList
        intro member
        have padded := (List.rdropWhile_prefix _ _).subset member
        rw [Nat.toString_eq_repr, Nat.toList_repr, List.leftpad, List.mem_append] at padded
        rcases padded with zero | digit
        · exact absurd (List.eq_of_mem_replicate zero) (by decide)
        · exact digits_unbroken _ digit

@[simp] theorem single_debugName (program : Program) : SingleLine program.debugName := by
  cases program with
  | unknown key =>
    change SingleLine "Unknown"
    decide
  | _ => decide

/-- A text put together from texts and separators has their characters. -/
theorem single_intercalate (separator : String) (texts : List String)
    (between : SingleLine separator) (each : ∀ text ∈ texts, SingleLine text) :
    SingleLine (separator.intercalate texts) := by
  rw [SingleLine, String.toList_intercalate]
  induction texts with
  | nil => simp
  | cons text rest inductionHypothesis =>
    have here := each text List.mem_cons_self
    have later := inductionHypothesis fun other among => each other (List.mem_cons_of_mem _ among)
    cases rest with
    | nil => simpa [SingleLine] using here
    | cons next others =>
      rw [List.map_cons, List.map_cons, List.intercalate_cons_cons, List.mem_append,
        List.mem_append, ← List.map_cons]
      rintro ((first | point) | after)
      · exact here first
      · exact between point
      · exact later after

@[simp] theorem single_pathText (path : Path) : SingleLine (pathText path) := by
  apply single_intercalate "." _ (by decide)
  intro text member
  obtain ⟨position, _, rfl⟩ := List.mem_map.mp member
  exact single_repr position.toNat

/-! ## Entries -/

section Entries

variable {printer : Printer} {mints : MintMap}

theorem single_programText (keeps : KeepsLines printer) (program : Program) :
    SingleLine (programText printer program) := by
  unfold programText
  split
  · exact keeps.keyText _
  · exact single_debugName program

theorem single_short (keeps : KeepsLines printer) (key : Pubkey) :
    SingleLine (short printer key) := by
  have unbroken := keeps.keyText key
  have dots : SingleLine ".." := by decide
  unfold short
  simp only
  split
  · exact single_ofList _ unbroken
  · rw [single_append, single_append]
    exact ⟨⟨single_ofList _ fun member => unbroken (List.mem_of_mem_take member), dots⟩,
      single_ofList _ fun member => unbroken (List.mem_of_mem_drop member)⟩

theorem single_amountForMint (raw : UInt64) (mint : Pubkey) :
    SingleLine (amountForMint mints raw mint) := by
  have unit : SingleLine " (raw)" := by decide
  unfold amountForMint
  split
  · exact single_formatAmount raw _
  · exact (single_append _ _).mpr ⟨single_commas raw, unit⟩

theorem single_mintLabel (keeps : KeepsLines printer) (labels : SingleLineLabels mints)
    (mint : Pubkey) : SingleLine (mintLabel printer mints mint) := by
  unfold mintLabel
  split
  · rename_i info known
    cases called : info.symbol.or info.name with
    | none => exact single_short keeps mint
    | some label => exact labels mint info label known called
  · exact single_short keeps mint

theorem single_formatSwap (keeps : KeepsLines printer) (labels : SingleLineLabels mints)
    (swap : Swap) : SingleLine (formatSwap printer mints swap) := by
  have space : SingleLine " " := by decide
  have arrow : SingleLine "->" := by decide
  have amount (raw : UInt64) (mint : Pubkey) :
      SingleLine (printer.green (amountForMint mints raw mint)) :=
    keeps.green _ (single_amountForMint raw mint)
  have label (mint : Pubkey) := keeps.dimmed _ (single_mintLabel keeps labels mint)
  simp only [formatSwap, single_append]
  exact ⟨⟨⟨⟨⟨⟨⟨⟨amount _ _, space⟩, label _⟩, space⟩, keeps.bold _ arrow⟩, space⟩, amount _ _⟩,
    space⟩, label _⟩

theorem single_transferText (keeps : KeepsLines printer) (labels : SingleLineLabels mints)
    (transfer : TokenTransfer) : SingleLine (transferText printer mints transfer) := by
  have token22 : SingleLine (if transfer.token22 then ", token-2022" else "") := by
    split <;> decide
  have raw := keeps.green (commas transfer.amount ++ " (raw)") (by simp +decide)
  have amount (mint : Pubkey) :
      SingleLine (printer.green (amountForMint mints transfer.amount mint)) :=
    keeps.green _ (single_amountForMint transfer.amount mint)
  have unknown := keeps.dimmed "unknown mint" (by decide)
  have label (mint : Pubkey) := keeps.dimmed _ (single_mintLabel keeps labels mint)
  cases known : transfer.mint <;>
    simp +decide [transferText, known, raw, amount, unknown, label, single_short keeps, token22]

theorem single_childIndent (indent branch : String) (single : SingleLine indent) :
    SingleLine (childIndent indent branch) := by
  have column : SingleLine (if branch.toList.head? = some '\\' then "   " else "|  ") := by
    split <;> decide
  exact (single_append _ _).mpr ⟨single, column⟩

/-- The branch to an entry. -/
theorem single_branch (last : Prop) [Decidable last] :
    SingleLine (if last then "\\-" else "|-") := by
  split <;> decide

/-- The entries of a swap of a dex. -/
theorem single_dexTree (keeps : KeepsLines printer) (labels : SingleLineLabels mints)
    (dex : DexSwap) (branch indent : String) (branchSingle : SingleLine branch)
    (indentSingle : SingleLine indent) :
    ∀ entry ∈ printDexTree printer mints dex branch indent, SingleLine entry := by
  have title : SingleLine ("DEX SWAP via " ++ programText printer dex.program) :=
    (single_append _ _).mpr ⟨by decide, single_programText keeps dex.program⟩
  have star : SingleLine (printer.cyan "*") := keeps.cyan _ (by decide)
  have below := single_childIndent indent branch indentSingle
  have party (key : Pubkey) := keeps.yellow _ (single_short keeps key)
  have amounts := single_formatSwap keeps labels dex.swap
  simp +decide [printDexTree, indentSingle, branchSingle, star, keeps.bold _ title, below, party,
    amounts]

/-- The entries of a leg that was not decoded. -/
theorem single_undecodedTree (keeps : KeepsLines printer) (labels : SingleLineLabels mints)
    (program : Program) (path : Path) (transfers : List TokenTransfer) (i : Nat)
    (branch indent : String) (branchSingle : SingleLine branch)
    (indentSingle : SingleLine indent) :
    ∀ entry ∈ printUndecodedTree printer mints program path transfers i branch indent,
      SingleLine entry := by
  have title : SingleLine ("UNDECODED via " ++ programText printer program) :=
    (single_append _ _).mpr ⟨by decide, single_programText keeps program⟩
  have circle : SingleLine (printer.red "o") := keeps.red _ (by decide)
  have below := single_childIndent indent branch indentSingle
  have head : ∀ entry ∈ [indent ++ "[" ++ toString i ++ "] " ++ branch ++ " " ++
      printer.red "o" ++ " " ++ printer.bold ("UNDECODED via " ++ programText printer program),
      childIndent indent branch ++ "|- path " ++ pathText path], SingleLine entry := by
    simp +decide [indentSingle, branchSingle, circle, keeps.bold _ title, below]
  unfold printUndecodedTree
  simp only
  split
  · intro entry member
    rcases List.mem_append.mp member with above | last
    · exact head entry above
    · obtain rfl := List.mem_singleton.mp last
      simp +decide [below]
  · intro entry member
    rcases List.mem_append.mp member with above | listed
    · rcases List.mem_append.mp above with above | count
      · exact head entry above
      · obtain rfl := List.mem_singleton.mp count
        simp +decide [below]
    · obtain ⟨transfer, _, rfl⟩ := List.mem_map.mp listed
      simp +decide [below, single_branch, single_transferText keeps labels]

/-- The entries of a leg. -/
theorem single_routeTree (keeps : KeepsLines printer) (labels : SingleLineLabels mints)
    (i : Nat) (branch indent : String) (branchSingle : SingleLine branch)
    (indentSingle : SingleLine indent) (route : Route) :
    ∀ entry ∈ printRouteTree printer mints i branch indent route, SingleLine entry := by
  cases route with
  | decoded dex =>
    apply single_dexTree keeps labels dex _ indent _ indentSingle
    simp +decide [branchSingle]
  | undecoded program path transfers =>
    exact single_undecodedTree keeps labels program path transfers i branch indent branchSingle
      indentSingle

/-- The entries of an aggregator swap. -/
theorem single_aggregatorTree (keeps : KeepsLines printer) (labels : SingleLineLabels mints)
    (agg : AggregatorSwap) (branch indent : String) (detail : Detail)
    (branchSingle : SingleLine branch) (indentSingle : SingleLine indent) :
    ∀ entry ∈ printAggregatorTree printer mints agg branch indent detail, SingleLine entry := by
  have title : SingleLine ("AGGREGATOR SWAP via " ++ programText printer agg.program) :=
    (single_append _ _).mpr ⟨by decide, single_programText keeps agg.program⟩
  have hash : SingleLine (printer.magenta "#") := keeps.magenta _ (by decide)
  have below := single_childIndent indent branch indentSingle
  have user := keeps.yellow _ (single_short keeps agg.user)
  have net : SingleLine (agg.swap.elim (printer.dimmed "unknown") (formatSwap printer mints)) := by
    cases agg.swap with
    | none => exact keeps.dimmed _ (by decide)
    | some swap => exact single_formatSwap keeps labels swap
  have head (netBranch : String) (netSingle : SingleLine netBranch) :
      ∀ entry ∈ [indent ++ branch ++ " " ++ printer.magenta "#" ++ " " ++
        printer.bold ("AGGREGATOR SWAP via " ++ programText printer agg.program),
        childIndent indent branch ++ "|- user " ++ printer.yellow (short printer agg.user),
        childIndent indent branch ++ netBranch ++ " net   " ++
          agg.swap.elim (printer.dimmed "unknown") (formatSwap printer mints)],
        SingleLine entry := by
    simp +decide [indentSingle, branchSingle, hash, keeps.bold _ title, below, user, netSingle, net]
  unfold printAggregatorTree
  by_cases shown : detail = .full ∧ ¬ agg.routes.isEmpty
  · simp only [if_pos shown]
    intro entry member
    rcases List.mem_append.mp member with above | listed
    · rcases List.mem_append.mp above with above | count
      · exact head "|-" (by decide) entry above
      · obtain rfl := List.mem_singleton.mp count
        simp +decide [below]
    · obtain ⟨route, _, printed⟩ := List.mem_flatMap.mp listed
      refine single_routeTree keeps labels route.2 _ _ (single_branch _) ?_ route.1 entry printed
      exact (single_append _ _).mpr ⟨below, by decide⟩
  · simp only [if_neg shown]
    exact head "\\-" (by decide)

/-- Where no label breaks a line, no entry of the tree does. -/
theorem single_tree (keeps : KeepsLines printer) (labels : SingleLineLabels mints)
    (swaps : List Parsed) (detail : Detail) :
    ∀ entry ∈ printTree printer mints swaps detail, SingleLine entry := by
  intro entry member
  obtain ⟨parsed, _, printed⟩ := List.mem_flatMap.mp member
  have indent : SingleLine "  " := by decide
  cases swap : parsed.1 with
  | dex dex =>
    rw [swap] at printed
    exact single_dexTree keeps labels dex _ _ (single_branch _) indent entry printed
  | aggregator agg =>
    rw [swap] at printed
    exact single_aggregatorTree keeps labels agg _ _ detail (single_branch _) indent entry printed

end Entries

end Graced.PrintedLines
