import Graced.Dispatch

/-!
# The label of a decoded swap

Every dex parser writes the program into the swaps that it finds. Three of them write
the program of another dex. The dispatch table is right about everything else, so that
a label tells which program ran unless it was one of the three.
-/

namespace Graced.Dex

variable {T : Type} [SolanaInstruction T]

/-- The label that the parser of a program writes. -/
def labelOf : Program → Program
  | .raydiumCpSwap => .raydiumV4
  | .sarosAmm => .sarosDLMM
  | .meteoraDBC => .byreal
  | program => program

/-- A label differs from the program for exactly three programs. -/
theorem labelOf_eq_iff (program : Program) :
    labelOf program = program ↔
      program ∉ [Program.raydiumCpSwap, .sarosAmm, .meteoraDBC] := by
  cases program <;> simp [labelOf]

/-- The label that was written is the one that comes out. -/
theorem found_label (written swap : DexSwap)
    (found : (.ok (some written) : Outcome ParseError (Option DexSwap)) = .ok (some swap)) :
    swap.program = written.program := by
  obtain rfl := Option.some.inj (Outcome.ok.inj found)
  rfl

theorem Format.decode_label (format : Format) (env : Env) (view : IxView T)
    (accs : InstructionAccounts) (layout : Layout) (swap : DexSwap)
    (decoded : format.decode env view accs layout = .ok (some swap)) :
    swap.program = format.program := by
  simp only [Format.decode, Outcome.bind_ok_iff] at decoded
  obtain ⟨accounts, _, info, _, rest⟩ := decoded
  cases info with
  | some info => exact found_label _ swap rest
  | none => cases required : format.required <;> simp [required] at rest

/-- A format writes its own program. -/
theorem Format.parse_label (format : Format) (env : Env) (view : IxView T) (swap : DexSwap)
    (parsed : format.parse env view = .ok (some swap)) : swap.program = format.program := by
  rw [Format.parse] at parsed
  split at parsed
  · simp only [Outcome.bind_ok_iff] at parsed
    obtain ⟨accs, _, data, _, rest⟩ := parsed
    split at rest
    · simp at rest
    · exact Format.decode_label format env view accs _ swap rest
  · obtain ⟨data, _, rest⟩ := (Outcome.bind_ok_iff _ _ _).mp parsed
    split at rest
    · obtain ⟨accs, _, found⟩ := (Outcome.bind_ok_iff _ _ _).mp rest
      split at found
      · simp at found
      · exact Format.decode_label format env view accs _ swap found
    · simp at rest

theorem humidifi_label (env : Env) (view : IxView T) (swap : DexSwap)
    (parsed : humidifi env view = .ok (some swap)) : swap.program = .humidiFi := by
  simp only [humidifi, Outcome.bind_ok_iff] at parsed
  obtain ⟨_, _, _, _, info, _, rest⟩ := parsed
  cases info with
  | some info => exact found_label _ swap rest
  | none => simp at rest

/-- A parser that reads a layout writes the label it was given. -/
theorem parseLayout_label (view : IxView T) (label : Program) (choose : Bytes → Option Layout)
    (find : SwapAccounts → Outcome ParseError Swap) (swap : DexSwap)
    (parsed : parseLayout view label choose find = .ok (some swap)) : swap.program = label := by
  simp only [parseLayout, Outcome.bind_ok_iff] at parsed
  obtain ⟨data, _, accs, _, rest⟩ := parsed
  split at rest
  · simp at rest
  · simp only [Outcome.bind_ok_iff] at rest
    obtain ⟨_, _, _, _, same⟩ := rest
    exact found_label _ swap same

theorem RaydiumV4.parse_label (env : Env) (view : IxView T) (swap : DexSwap)
    (parsed : RaydiumV4.parse env view = .ok (some swap)) : swap.program = .raydiumV4 := by
  obtain ⟨data, _, rest⟩ := (Outcome.bind_ok_iff _ _ _).mp parsed
  split at rest
  · simp at rest
  · obtain ⟨accs, _, rest⟩ := (Outcome.bind_ok_iff _ _ _).mp rest
    split at rest
    · simp at rest
    · simp only [Outcome.bind_ok_iff] at rest
      obtain ⟨_, _, _, _, same⟩ := rest
      exact found_label _ swap same

theorem Pump.parse_label (env : Env) (view : IxView T) (swap : DexSwap)
    (parsed : Pump.parse env view = .ok (some swap)) : swap.program = .pump := by
  simp only [Pump.parse, Outcome.bind_ok_iff] at parsed
  obtain ⟨data, _, accs, _, rest⟩ := parsed
  split at rest
  · simp only [Outcome.bind_ok_iff] at rest
    obtain ⟨_, _, _, _, _, _, _, _, _, _, _, _, _, _, same⟩ := rest
    exact found_label _ swap same
  · simp at rest

/-- A wrapper writes its own label over that of the parser it wraps. -/
theorem relabel_program (program : Program) (parsed : Option DexSwap) (swap : DexSwap)
    (relabelled : relabel program parsed = some swap) : swap.program = program := by
  cases parsed with
  | none => simp [relabel] at relabelled
  | some original => exact (congrArg DexSwap.program (Option.some.inj relabelled)).symm

/-- The formats write the labels of their parsers. -/
theorem formatOf_program (program : Program) (format : Format)
    (known : formatOf program = some format) : format.program = labelOf program := by
  cases program <;> cases known <;> rfl

/-- Whatever the dispatch table finds carries the label of the parser it went to. -/
theorem parse_label (env : Env) (view : IxView T) (program : Program) (swap : DexSwap)
    (parsed : Dex.parse env view program = .ok (some swap)) :
    swap.program = labelOf program := by
  cases known : formatOf program with
  | some format =>
    rw [parse_formatOf env view program format known] at parsed
    rw [Format.parse_label format env view swap parsed, formatOf_program program format known]
  | none =>
    cases program
    case humidiFi => exact humidifi_label env view swap parsed
    case raydiumV4 => exact RaydiumV4.parse_label env view swap parsed
    case raydiumCpSwap => exact parseLayout_label view _ _ _ swap parsed
    case raydiumClmm => exact parseLayout_label view _ _ _ swap parsed
    case pump => exact Pump.parse_label env view swap parsed
    case stabbleStable => exact parseLayout_label view _ _ _ swap parsed
    case pancakeSwap =>
      obtain ⟨found, _, same⟩ := (Outcome.bind_ok_iff _ _ _).mp parsed
      exact relabel_program _ found swap (Outcome.ok.inj same)
    case stabbleWeighted =>
      obtain ⟨found, _, same⟩ := (Outcome.bind_ok_iff _ _ _).mp parsed
      exact relabel_program _ found swap (Outcome.ok.inj same)
    all_goals first | cases parsed | cases known

/-- A swap carries the label of the program it was dispatched on unless that program is
one of three, on its own and wherever the result of a transaction names it. -/
theorem label_of_program_iff (env : Env) :
    (∀ (T : Type) [SolanaInstruction T] (view : IxView T) (program : Program) (swap : DexSwap),
      Dex.parse env view program = .ok (some swap) →
        (swap.program = program ↔
          program ∉ [Program.raydiumCpSwap, .sarosAmm, .meteoraDBC])) ∧
    (∀ (tx : SolanaTx) (result : List Parsed) (swap : DexSwap),
      parseTransaction env tx = .ok result → Reported swap result →
        ∃ view program, Dispatched env tx view ∧ view.program = .ok program ∧
          Dex.parse env view program = .ok (some swap) ∧
          (swap.program = program ↔
            program ∉ [Program.raydiumCpSwap, .sarosAmm, .meteoraDBC])) := by
  have each (T : Type) [SolanaInstruction T] (view : IxView T) (program : Program)
      (swap : DexSwap) (parsed : Dex.parse env view program = .ok (some swap)) :
      swap.program = program ↔ program ∉ [Program.raydiumCpSwap, .sarosAmm, .meteoraDBC] := by
    rw [parse_label env view program swap parsed]
    exact labelOf_eq_iff program
  constructor
  · exact each
  · intro tx result swap ok reported
    obtain ⟨view, program, dispatched, known, parsed⟩ :=
      reported_dispatched env tx result ok swap reported
    exact ⟨view, program, dispatched, known, parsed, each _ view program swap parsed⟩

/-- A swap of an Orca pool carries the label of Orca. -/
theorem label_of_orca_pool :
    (⟨⟨2⟩, ⟨3⟩, .orca, ⟨100, 50, ⟨8⟩, ⟨9⟩⟩⟩ : DexSwap).program = Program.orca ∧
    ∃ view program, Dispatched poolLibraries (poolTx .orca [2, 0, 3, 2, 4, 2, 5] swapDisc) view ∧
      view.program = .ok program ∧
      Dex.parse poolLibraries view program = .ok (some ⟨⟨2⟩, ⟨3⟩, .orca, ⟨100, 50, ⟨8⟩, ⟨9⟩⟩⟩) ∧
      (Program.orca = program ↔
        program ∉ [Program.raydiumCpSwap, .sarosAmm, .meteoraDBC]) :=
  ⟨((label_of_program_iff poolLibraries).1 StackIx
      ((poolTx .orca [2, 0, 3, 2, 4, 2, 5] swapDisc).view
        (poolTree [0] [2, 0, 3, 2, 4, 2, 5] swapDisc)) .orca
      ⟨⟨2⟩, ⟨3⟩, .orca, ⟨100, 50, ⟨8⟩, ⟨9⟩⟩⟩ rfl).mpr (by decide),
    (label_of_program_iff poolLibraries).2 (poolTx .orca [2, 0, 3, 2, 4, 2, 5] swapDisc)
      [.dex ⟨⟨2⟩, ⟨3⟩, .orca, ⟨100, 50, ⟨8⟩, ⟨9⟩⟩⟩] ⟨⟨2⟩, ⟨3⟩, .orca, ⟨100, 50, ⟨8⟩, ⟨9⟩⟩⟩ rfl
      (.inl List.mem_cons_self)⟩

/-- A swap of a Saros AMM pool carries the label of Saros DLMM. -/
theorem label_of_saros_pool :
    Dex.parse poolLibraries
      ((poolTx .sarosAmm [2, 2, 3, 2, 4, 5, 2, 2, 2, 0] [1]).view
        (poolTree [0] [2, 2, 3, 2, 4, 5, 2, 2, 2, 0] [1])) .sarosAmm =
      .ok (some ⟨⟨2⟩, ⟨3⟩, .sarosDLMM, ⟨100, 50, ⟨8⟩, ⟨9⟩⟩⟩) ∧
    parseTransaction poolLibraries (poolTx .sarosAmm [2, 2, 3, 2, 4, 5, 2, 2, 2, 0] [1]) =
      .ok [.dex ⟨⟨2⟩, ⟨3⟩, .sarosDLMM, ⟨100, 50, ⟨8⟩, ⟨9⟩⟩⟩] ∧
    Program.sarosDLMM ≠ .sarosAmm :=
  ⟨rfl, rfl, by decide⟩

end Graced.Dex
