import Graced.Logs
import Graced.OnceCell
import Graced.Outcome
import Mathlib.Algebra.Order.BigOperators.Group.Finset
import Mathlib.Algebra.Order.Ring.Nat
import Mathlib.Data.Fintype.Basic

/-!
# Clients of one parse of the logs

All instructions of a transaction share one parse of its logs. Whoever asks looks whether
the logs are loaded, and if they are not has them parsed into a cell, unless somebody else
does; then it reads its answer off the cell. A parse that fails is not kept: its client is
told, and whoever comes next tries again.

The parsers are verified against logs that are parsed anew for every question. Here the
shared logs are run as they are, on any lawful cell, by any number of clients whose steps come
in any order.
-/

namespace Graced

/-- The parsed logs, next to the metadata they were parsed from. -/
structure ParsedLogs where
  owner : TxMetadata
  dependent : Forest InstructionCall

/-- What is asked of the logs. -/
inductive LogRequest where
  | programLogs (path : Path)
  | stack
deriving DecidableEq, Repr

/-- What the logs answer. -/
inductive LogAnswer where
  | lines (lines : List String)
  | calls (calls : Forest InstructionCall)

/-- How far a client has got with its question. -/
inductive LogPhase where
  | idle
  /-- It has not looked at the cell yet. -/
  | asked (request : LogRequest)
  /-- It has found the logs not loaded, and has them parsed unless another client does. -/
  | loading (request : LogRequest)
  /-- It parses the logs. -/
  | parsing (request : LogRequest)
  /-- Its `load_logs` has returned. -/
  | loaded (request : LogRequest)

/-- What goes between a client and the logs. -/
inductive LogEvent (Client : Type) where
  | asked (client : Client) (request : LogRequest)
  | told (client : Client) (request : LogRequest) (answer : Outcome TxLogsError LogAnswer)

/-- The kinds of steps. -/
inductive LogStep where
  | ask
  | find
  | miss
  | enter
  | publish
  | fail
  | answer
deriving DecidableEq, Repr

namespace TxLogs

/-- What fills the cell: the calls of the logs. -/
def parseLogs (parser : LogParser) (logs : TxLogs) : Except TxLogsError ParsedLogs :=
  (logs.loadLogs parser).map fun calls => ⟨logs.metadata, calls⟩

/-- `instructions` -/
def instructions (parsed : Option ParsedLogs) : Option (Forest InstructionCall) :=
  parsed.map ParsedLogs.dependent

/-- `get`: the lines of the call at a path. Logs that are not loaded are a panic. -/
def get (parser : LogParser) (parsed : Option ParsedLogs) (path : Path) :
    Outcome TxLogsError (List String) :=
  match parsed with
  | none => .panic
  | some cell =>
    match traceIxCall cell.dependent path with
    | some target => .ok (parser.programLogs target cell.owner.logMessages)
    | none => .err (.failedIxTrace path)

/-- What a client does once `load_logs` has returned. -/
def answer (parser : LogParser) (parsed : Option ParsedLogs) :
    LogRequest → Outcome TxLogsError LogAnswer
  | .programLogs path => LogAnswer.lines <$> get parser parsed path
  | .stack =>
    match instructions parsed with
    | some calls => .ok (.calls calls)
    | none => .panic

/-- `stack` -/
def stack (parser : LogParser) (logs : TxLogs) :
    Except TxLogsError (Forest InstructionCall) := logs.loadLogs parser

/-- The answer of logs that nobody else uses. -/
def ask (parser : LogParser) (logs : TxLogs) : LogRequest → Except TxLogsError LogAnswer
  | .programLogs path => (logs.programLogs parser path).map .lines
  | .stack => (logs.stack parser).map .calls

/-- Off a cell that holds the parsed logs, the answer is the one of logs parsed anew. -/
theorem answer_parsed (parser : LogParser) (logs : TxLogs) (parsed : ParsedLogs)
    (parses : logs.parseLogs parser = .ok parsed) (request : LogRequest) :
    answer parser (some parsed) request = .ofExcept (logs.ask parser request) := by
  cases loaded : logs.loadLogs parser with
  | error error => simp [parseLogs, loaded, Except.map] at parses
  | ok calls =>
    obtain rfl : (⟨logs.metadata, calls⟩ : ParsedLogs) = parsed := by
      simpa [parseLogs, loaded, Except.map] using parses
    cases request with
    | programLogs path =>
      cases found : traceIxCall calls path <;>
        simp [answer, get, ask, programLogs, callAt, loaded, found, bind, Except.bind, pure,
          Except.pure, Except.map, Outcome.ofExcept, Functor.map, Outcome.bind]
    | stack => simp [answer, instructions, ask, stack, loaded, Except.map]

/-- Where parsing fails, logs parsed anew fail alike, whatever the question. -/
theorem ask_unparsed (parser : LogParser) (logs : TxLogs) (error : TxLogsError)
    (fails : logs.parseLogs parser = .error error) (request : LogRequest) :
    logs.ask parser request = .error error := by
  cases loaded : logs.loadLogs parser with
  | ok calls => simp [parseLogs, loaded, Except.map] at fails
  | error other =>
    obtain rfl : other = error := by simpa [parseLogs, loaded, Except.map] using fails
    cases request <;>
      simp [ask, programLogs, stack, callAt, loaded, bind, Except.bind, Except.map]

end TxLogs

/-- What is left to do for a client, counted in steps. -/
def LogPhase.work : LogPhase → Nat
  | idle => 0
  | loaded _ => 1
  | parsing _ => 2
  | loading _ => 3
  | asked _ => 4

/-- The question that a client has not been answered yet. -/
def LogPhase.pending : LogPhase → List LogRequest
  | idle => []
  | asked request => [request]
  | loading request => [request]
  | parsing request => [request]
  | loaded request => [request]

namespace LogClients

variable {Client : Type} [DecidableEq Client]
variable {cell : OnceCell Client ParsedLogs TxLogsError}

/-- The cell, and what each client is doing. -/
structure State (cell : OnceCell Client ParsedLogs TxLogsError) where
  parsed : cell.State
  phase : Client → LogPhase

/-- The logs as they are created: a new cell, and nobody has asked for anything. -/
def State.start (cell : OnceCell Client ParsedLogs TxLogsError) : State cell :=
  ⟨cell.new, fun _ => .idle⟩

/-- One client goes on to another phase. -/
def State.move (s : State cell) (client : Client) (phase : LogPhase) : State cell :=
  { s with phase := Function.update s.phase client phase }

@[simp] theorem move_parsed (s : State cell) (client : Client) (phase : LogPhase) :
    (s.move client phase).parsed = s.parsed := rfl

@[simp] theorem move_phase (s : State cell) (client other : Client) (phase : LogPhase) :
    (s.move client phase).phase other = if other = client then phase else s.phase other :=
  Function.update_apply s.phase client phase other

/-- One step of one client, with what it asks or is told. `load_logs` returns at once if the
cell is full, and otherwise hands its parse to the cell, which calls it unless the cell has
been filled meanwhile. -/
inductive Step (parser : LogParser) (logs : TxLogs) : State cell → LogStep →
    List (LogEvent Client) → State cell → Prop where
  | ask (s : State cell) (client : Client) (request : LogRequest)
      (idle : s.phase client = .idle) :
      Step parser logs s .ask [.asked client request] (s.move client (.asked request))
  | find (s : State cell) (client : Client) (request : LogRequest) (parsed : ParsedLogs)
      (looks : s.phase client = .asked request ∨ s.phase client = .loading request)
      (full : cell.get s.parsed = some parsed) :
      Step parser logs s .find [] (s.move client (.loaded request))
  | miss (s : State cell) (client : Client) (request : LogRequest)
      (looks : s.phase client = .asked request) (empty : cell.get s.parsed = none) :
      Step parser logs s .miss [] (s.move client (.loading request))
  | enter (s : State cell) (client : Client) (request : LogRequest) (parsed : cell.State)
      (waits : s.phase client = .loading request)
      (begins : cell.Begins s.parsed client parsed) :
      Step parser logs s .enter [] { s.move client (.parsing request) with parsed := parsed }
  | publish (s : State cell) (client : Client) (request : LogRequest) (value : ParsedLogs)
      (parsed : cell.State) (runs : s.phase client = .parsing request)
      (parses : logs.parseLogs parser = .ok value)
      (ends : cell.Ends s.parsed client (.ok value) parsed) :
      Step parser logs s .publish [] { s.move client (.loaded request) with parsed := parsed }
  | fail (s : State cell) (client : Client) (request : LogRequest) (error : TxLogsError)
      (parsed : cell.State) (runs : s.phase client = .parsing request)
      (fails : logs.parseLogs parser = .error error)
      (ends : cell.Ends s.parsed client (.error error) parsed) :
      Step parser logs s .fail [.told client request (.err error)]
        { s.move client .idle with parsed := parsed }
  | answer (s : State cell) (client : Client) (request : LogRequest)
      (loaded : s.phase client = .loaded request) :
      Step parser logs s .answer
        [.told client request (TxLogs.answer parser (cell.get s.parsed) request)]
        (s.move client .idle)

/-- Steps one after another, with everything that is asked and told on the way. -/
inductive Run (parser : LogParser) (logs : TxLogs) : State cell → List LogStep →
    List (LogEvent Client) → State cell → Prop where
  | nil (s : State cell) : Run parser logs s [] [] s
  | cons (s next final : State cell) (kind : LogStep) (kinds : List LogStep)
      (events later : List (LogEvent Client)) (first : Step parser logs s kind events next)
      (rest : Run parser logs next kinds later final) :
      Run parser logs s (kind :: kinds) (events ++ later) final

/-- The phase of a client fits the cell: a loaded client has a full cell, and the client whose
function runs is the one that parses, as long as the cell is empty. -/
def Fits (cell : OnceCell Client ParsedLogs TxLogsError) (parsed : cell.State) (client : Client) :
    LogPhase → Prop
  | .parsing _ => cell.get parsed = none ∧ cell.running parsed = some client
  | .loaded _ => cell.get parsed ≠ none ∧ cell.running parsed ≠ some client
  | _ => cell.running parsed ≠ some client

/-- A full cell holds the parsed logs, and every client's phase fits the cell. -/
structure Sound (parser : LogParser) (logs : TxLogs) (s : State cell) : Prop where
  published : ∀ value, cell.get s.parsed = some value → logs.parseLogs parser = .ok value
  fits : ∀ client, Fits cell s.parsed client (s.phase client)

/-! ## What the cell holds -/

omit [DecidableEq Client] in
theorem start_sound (lawful : cell.Lawful) (parser : LogParser) (logs : TxLogs) :
    Sound parser logs (State.start cell) where
  published := by simp [State.start, lawful.new_empty]
  fits := by simp [State.start, Fits, lawful.new_free]

/-- A step of one client keeps the state sound if its own phase fits what the step leaves in
the cell, and the phases of the others still do. -/
theorem sound_of_step (parser : LogParser) (logs : TxLogs) (s next : State cell)
    (client : Client) (phase : LogPhase) (sound : Sound parser logs s)
    (moved : next.phase = Function.update s.phase client phase)
    (published : ∀ value, cell.get next.parsed = some value → logs.parseLogs parser = .ok value)
    (own : Fits cell next.parsed client phase)
    (others : ∀ other, other ≠ client → Fits cell s.parsed other (s.phase other) →
      Fits cell next.parsed other (s.phase other)) : Sound parser logs next := by
  refine ⟨published, ?_⟩
  intro other
  by_cases same : other = client
  · subst same
    rw [moved, Function.update_self]
    exact own
  · rw [moved, Function.update_of_ne same]
    exact others other same (sound.fits other)

omit [DecidableEq Client] in
/-- The client that parses has the cell to itself. -/
theorem parsing_alone (parser : LogParser) (logs : TxLogs) (s : State cell)
    (client : Client) (request : LogRequest) (sound : Sound parser logs s)
    (runs : s.phase client = .parsing request) :
    cell.get s.parsed = none ∧ cell.running s.parsed = some client := by
  have fits := sound.fits client
  rwa [runs] at fits

/-- Every step keeps the state sound. The cell changes when a parse begins and when it ends;
meanwhile no other client parses. -/
theorem step_sound (lawful : cell.Lawful) (parser : LogParser) (logs : TxLogs)
    (s next : State cell) (kind : LogStep) (events : List (LogEvent Client))
    (sound : Sound parser logs s) (step : Step parser logs s kind events next) :
    Sound parser logs next := by
  cases step with
  | ask client request idle =>
    have fits := sound.fits client
    rw [idle] at fits
    exact sound_of_step parser logs s _ client _ sound rfl sound.published fits (fun _ _ => id)
  | find client request parsed looks full =>
    have fits := sound.fits client
    have free : cell.running s.parsed ≠ some client := by
      rcases looks with asked | waits
      · rwa [asked] at fits
      · rwa [waits] at fits
    have held : cell.get s.parsed ≠ none := by simp [full]
    exact sound_of_step parser logs s _ client _ sound rfl sound.published ⟨held, free⟩
      (fun _ _ => id)
  | miss client request looks empty =>
    have fits := sound.fits client
    rw [looks] at fits
    exact sound_of_step parser logs s _ client _ sound rfl sound.published fits (fun _ _ => id)
  | enter client request parsed waits begins =>
    obtain ⟨empty, free⟩ := lawful.begins_free s.parsed client parsed begins
    obtain ⟨stays, runs⟩ := lawful.begins_running s.parsed client parsed begins
    refine sound_of_step parser logs s _ client _ sound rfl (by simp [stays]) ⟨stays, runs⟩ ?_
    intro other different fits
    cases phase : s.phase other <;> simp_all [Fits, Ne.symm different]
  | publish client request value parsed runs parses ends =>
    obtain ⟨empty, mine⟩ := parsing_alone parser logs s client request sound runs
    obtain ⟨full, free⟩ := lawful.publishes s.parsed client value parsed mine ends
    refine sound_of_step parser logs s _ client _ sound rfl ?_
      ⟨by simp [full], by simp [free]⟩ ?_
    · intro held same
      obtain rfl : value = held := by simpa [full] using same
      exact parses
    · intro other different fits
      cases phase : s.phase other <;> simp_all [Fits, Ne.symm different]
  | fail client request error parsed runs fails ends =>
    obtain ⟨empty, mine⟩ := parsing_alone parser logs s client request sound runs
    obtain ⟨stays, free⟩ := lawful.fails s.parsed client error parsed mine ends
    refine sound_of_step parser logs s _ client _ sound rfl (by simp [stays])
      (by simp [Fits, free]) ?_
    intro other different fits
    cases phase : s.phase other <;> simp_all [Fits, Ne.symm different]
  | answer client request loaded =>
    have fits := sound.fits client
    rw [loaded] at fits
    exact sound_of_step parser logs s _ client _ sound rfl sound.published fits.2
      (fun _ _ => id)

theorem run_sound (lawful : cell.Lawful) (parser : LogParser) (logs : TxLogs)
    (s final : State cell) (kinds : List LogStep)
    (events : List (LogEvent Client)) (sound : Sound parser logs s)
    (run : Run parser logs s kinds events final) : Sound parser logs final := by
  induction run with
  | nil s => exact sound
  | cons s next final kind kinds events later first rest inductionHypothesis =>
    exact inductionHypothesis (step_sound lawful parser logs s next kind events sound first)

/-! ## Who parses -/

/-- Full logs stay as they are, and nobody parses any more. -/
theorem step_full (lawful : cell.Lawful) (parser : LogParser) (logs : TxLogs)
    (s next : State cell) (kind : LogStep) (events : List (LogEvent Client))
    (sound : Sound parser logs s) (step : Step parser logs s kind events next)
    (full : cell.get s.parsed ≠ none) :
    cell.get next.parsed = cell.get s.parsed ∧ kind ≠ .enter ∧ kind ≠ .publish ∧
      kind ≠ .fail := by
  cases step with
  | enter client request parsed waits begins =>
    exact absurd (lawful.begins_free s.parsed client parsed begins).1 full
  | publish client request value parsed runs parses ends =>
    exact absurd (parsing_alone parser logs s client request sound runs).1 full
  | fail client request error parsed runs fails ends =>
    exact absurd (parsing_alone parser logs s client request sound runs).1 full
  | _ => simp

theorem run_full (lawful : cell.Lawful) (parser : LogParser) (logs : TxLogs)
    (s final : State cell) (kinds : List LogStep)
    (events : List (LogEvent Client)) (sound : Sound parser logs s)
    (run : Run parser logs s kinds events final) (full : cell.get s.parsed ≠ none) :
    cell.get final.parsed = cell.get s.parsed ∧ .enter ∉ kinds ∧ .publish ∉ kinds ∧
      .fail ∉ kinds := by
  induction run with
  | nil s => simp
  | cons s next final kind kinds events later first rest inductionHypothesis =>
    obtain ⟨kept, noEnter, noPublish, noFail⟩ :=
      step_full lawful parser logs s next kind events sound first full
    obtain ⟨same, later⟩ := inductionHypothesis
      (step_sound lawful parser logs s next kind events sound first) (kept ▸ full)
    simp only [List.mem_cons, not_or]
    exact ⟨same.trans kept, ⟨Ne.symm noEnter, later.1⟩, ⟨Ne.symm noPublish, later.2.1⟩,
      ⟨Ne.symm noFail, later.2.2⟩⟩

/-- Where the cell is still empty, no parse has succeeded. -/
theorem run_never_published (lawful : cell.Lawful) (parser : LogParser) (logs : TxLogs)
    (s final : State cell) (kinds : List LogStep) (events : List (LogEvent Client))
    (sound : Sound parser logs s) (run : Run parser logs s kinds events final)
    (empty : cell.get final.parsed = none) : .publish ∉ kinds := by
  induction run with
  | nil s => simp
  | cons s next final kind kinds events later first rest inductionHypothesis =>
    have soundNext : Sound parser logs next :=
      step_sound lawful parser logs s next kind events sound first
    have goes : kind ≠ .publish := by
      rintro rfl
      cases first with
      | publish client request value parsed runs parses ends =>
        have mine := (parsing_alone parser logs s client request sound runs).2
        have full := (lawful.publishes s.parsed client value parsed mine ends).1
        have kept := (run_full lawful parser logs _ final kinds later soundNext rest
          (by simp [full])).1
        simp [kept, full] at empty
    simp only [List.mem_cons, not_or]
    exact ⟨Ne.symm goes, inductionHypothesis soundNext empty⟩

/-- A run can be cut anywhere. -/
theorem run_append (parser : LogParser) (logs : TxLogs) (s final : State cell)
    (before after : List LogStep) (events : List (LogEvent Client))
    (run : Run parser logs s (before ++ after) events final) :
    ∃ middle early late, Run parser logs s before early middle ∧
      Run parser logs middle after late final ∧ events = early ++ late := by
  induction before generalizing s events with
  | nil => exact ⟨s, [], events, .nil s, run, rfl⟩
  | cons kind rest inductionHypothesis =>
    cases run with
    | cons _ next _ _ _ first later step run =>
      obtain ⟨middle, early, late, front, back, rfl⟩ := inductionHypothesis next later run
      exact ⟨middle, first ++ early, late, .cons _ _ _ _ _ _ _ step front, back,
        (List.append_assoc _ _ _).symm⟩

/-- Whether somebody parses. -/
def parses (s : State cell) : Nat := (cell.running s.parsed).elim 0 fun _ => 1

/-- A parse begins where none runs, and the one that ends is the one that runs. -/
theorem step_parses (lawful : cell.Lawful) (parser : LogParser) (logs : TxLogs)
    (s next : State cell) (kind : LogStep) (events : List (LogEvent Client))
    (sound : Sound parser logs s) (step : Step parser logs s kind events next) :
    parses s + [kind].count .enter =
      parses next + ([kind].count .publish + [kind].count .fail) := by
  cases step with
  | enter client request parsed waits begins =>
    have free := (lawful.begins_free s.parsed client parsed begins).2
    have runs := (lawful.begins_running s.parsed client parsed begins).2
    simp [parses, free, runs]
  | publish client request value parsed runs parsesLogs ends =>
    have mine := (parsing_alone parser logs s client request sound runs).2
    have free := (lawful.publishes s.parsed client value parsed mine ends).2
    simp [parses, mine, free]
  | fail client request error parsed runs fails ends =>
    have mine := (parsing_alone parser logs s client request sound runs).2
    have free := (lawful.fails s.parsed client error parsed mine ends).2
    simp [parses, mine, free]
  | _ => simp [parses]

/-- As many parses have ended as have begun, but for the one that still runs. -/
theorem run_parses (lawful : cell.Lawful) (parser : LogParser) (logs : TxLogs)
    (s final : State cell) (kinds : List LogStep) (events : List (LogEvent Client))
    (sound : Sound parser logs s) (run : Run parser logs s kinds events final) :
    parses s + kinds.count .enter =
      parses final + (kinds.count .publish + kinds.count .fail) := by
  induction run with
  | nil s => simp
  | cons s next final kind kinds events later first rest inductionHypothesis =>
    have now := step_parses lawful parser logs s next kind events sound first
    have afterwards := inductionHypothesis
      (step_sound lawful parser logs s next kind events sound first)
    have split (other : LogStep) :
        (kind :: kinds).count other = [kind].count other + kinds.count other := by
      rw [← List.count_append]
      rfl
    rw [split, split, split]
    omega

/-- Logs that can be parsed never fail to be. -/
theorem run_never_fails (parser : LogParser) (logs : TxLogs) (s final : State cell)
    (kinds : List LogStep) (events : List (LogEvent Client)) (value : ParsedLogs)
    (succeeds : logs.parseLogs parser = .ok value)
    (run : Run parser logs s kinds events final) : .fail ∉ kinds := by
  induction run with
  | nil s => simp
  | cons s next final kind kinds events later first rest inductionHypothesis =>
    have goes : kind ≠ .fail := by
      rintro rfl
      cases first with
      | fail client request error parsed runs fails ends => simp [succeeds] at fails
    simp only [List.mem_cons, not_or]
    exact ⟨Ne.symm goes, inductionHypothesis⟩

/-! ## What the clients are told -/

/-- What a client asked for, in order. -/
def asked (client : Client) (events : List (LogEvent Client)) : List LogRequest :=
  events.filterMap fun event =>
    match event with
    | .asked who request => if who = client then some request else none
    | .told _ _ _ => none

/-- What a client was told, in order, and for which question. -/
def told (client : Client) (events : List (LogEvent Client)) :
    List (LogRequest × Outcome TxLogsError LogAnswer) :=
  events.filterMap fun event =>
    match event with
    | .asked _ _ => none
    | .told who request answer => if who = client then some (request, answer) else none

/-- The answers to some questions, each by logs of its own. -/
def answers (parser : LogParser) (logs : TxLogs) (requests : List LogRequest) :
    List (LogRequest × Outcome TxLogsError LogAnswer) :=
  requests.map fun request => (request, .ofExcept (logs.ask parser request))

omit [DecidableEq Client] in
/-- What a loaded client reads is what it would have been told alone. -/
theorem answer_loaded (parser : LogParser) (logs : TxLogs) (s : State cell) (client : Client)
    (request : LogRequest) (sound : Sound parser logs s)
    (loaded : s.phase client = .loaded request) :
    TxLogs.answer parser (cell.get s.parsed) request = .ofExcept (logs.ask parser request) := by
  have fits := sound.fits client
  rw [loaded] at fits
  obtain ⟨parsed, full⟩ := Option.ne_none_iff_exists'.mp fits.1
  rw [full]
  exact logs.answer_parsed parser parsed (sound.published parsed full) request

/-- A step keeps the balance of a client: what it waits for and asks is what it is told and
goes on waiting for, and what it is told is what it would have been told alone. -/
theorem step_answers (parser : LogParser) (logs : TxLogs) (s next : State cell)
    (kind : LogStep) (events : List (LogEvent Client)) (sound : Sound parser logs s)
    (step : Step parser logs s kind events next) (client : Client) :
    answers parser logs ((s.phase client).pending ++ asked client events) =
      told client events ++ answers parser logs (next.phase client).pending := by
  cases step with
  | ask mover request idle =>
    by_cases same : mover = client
    · subst same
      simp [asked, told, idle, LogPhase.pending]
    · simp [asked, told, same, Ne.symm same]
  | find mover request parsed looks full =>
    by_cases same : mover = client
    · subst same
      rcases looks with looks | looks <;> simp [asked, told, looks, LogPhase.pending]
    · simp [asked, told, Ne.symm same]
  | miss mover request looks empty =>
    by_cases same : mover = client
    · subst same
      simp [asked, told, looks, LogPhase.pending]
    · simp [asked, told, Ne.symm same]
  | enter mover request parsed waits begins =>
    by_cases same : mover = client
    · subst same
      simp [asked, told, waits, LogPhase.pending]
    · simp [asked, told, Ne.symm same]
  | publish mover request value parsed runs parses ends =>
    by_cases same : mover = client
    · subst same
      simp [asked, told, runs, LogPhase.pending]
    · simp [asked, told, Ne.symm same]
  | fail mover request error parsed runs fails ends =>
    by_cases same : mover = client
    · subst same
      simp [asked, told, runs, LogPhase.pending, answers,
        logs.ask_unparsed parser error fails request]
    · simp [asked, told, same, Ne.symm same]
  | answer mover request loaded =>
    by_cases same : mover = client
    · subst same
      simp [asked, told, loaded, LogPhase.pending, answers,
        answer_loaded parser logs s mover request sound loaded]
    · simp [asked, told, same, Ne.symm same]

/-- Over a whole run a client is told, in order, the answers it would have got alone, up to at
most one question that it still waits for. -/
theorem run_answers (lawful : cell.Lawful) (parser : LogParser) (logs : TxLogs)
    (s final : State cell) (kinds : List LogStep) (events : List (LogEvent Client))
    (sound : Sound parser logs s) (run : Run parser logs s kinds events final)
    (client : Client) :
    answers parser logs ((s.phase client).pending ++ asked client events) =
      told client events ++ answers parser logs (final.phase client).pending := by
  induction run with
  | nil s => simp [asked, told]
  | cons s next final kind kinds events later first rest inductionHypothesis =>
    have now := step_answers parser logs s next kind events sound first client
    have afterwards := inductionHypothesis
      (step_sound lawful parser logs s next kind events sound first)
    have split : asked client (events ++ later) = asked client events ++ asked client later :=
      List.filterMap_append
    have splitTold : told client (events ++ later) = told client events ++ told client later :=
      List.filterMap_append
    rw [split, splitTold, ← List.append_assoc, answers, List.map_append]
    rw [answers, List.map_append] at afterwards
    rw [← answers, now, List.append_assoc, List.append_assoc, ← afterwards]
    rfl

/-! ## Nobody waits for ever -/

/-- Every step but a new question brings its client nearer to its answer. -/
theorem step_work (parser : LogParser) (logs : TxLogs) (s next : State cell) (kind : LogStep)
    (events : List (LogEvent Client)) (step : Step parser logs s kind events next)
    (goesOn : kind ≠ .ask) :
    (∀ client, (next.phase client).work ≤ (s.phase client).work) ∧
      ∃ client, (next.phase client).work < (s.phase client).work := by
  have onwards (mover : Client) (phase : LogPhase) (less : phase.work < (s.phase mover).work) :
      (∀ client, ((s.move mover phase).phase client).work ≤ (s.phase client).work) ∧
        ∃ client, ((s.move mover phase).phase client).work < (s.phase client).work := by
    refine ⟨?_, mover, by simpa using less⟩
    intro client
    by_cases same : client = mover
    · subst same
      simpa using Nat.le_of_lt less
    · simp [same]
  cases step with
  | ask mover request idle => exact absurd rfl goesOn
  | find mover request parsed looks full =>
    rcases looks with looks | looks <;> exact onwards mover _ (by simp [looks, LogPhase.work])
  | miss mover request looks empty => exact onwards mover _ (by simp [looks, LogPhase.work])
  | enter mover request parsed waits begins =>
    exact onwards mover _ (by simp [waits, LogPhase.work])
  | publish mover request value parsed runs parses ends =>
    exact onwards mover _ (by simp [runs, LogPhase.work])
  | fail mover request error parsed runs fails ends =>
    exact onwards mover _ (by simp [runs, LogPhase.work])
  | answer mover request loaded => exact onwards mover _ (by simp [loaded, LogPhase.work])

/-- A parse that runs can end, with what the logs parse to. -/
theorem parse_ends (lawful : cell.Lawful) (parser : LogParser) (logs : TxLogs) (s : State cell)
    (sound : Sound parser logs s) (client : Client) (request : LogRequest)
    (runs : s.phase client = .parsing request) :
    ∃ kind events next, kind ≠ .ask ∧ Step parser logs s kind events next := by
  obtain ⟨empty, mine⟩ := parsing_alone parser logs s client request sound runs
  obtain ⟨parsed, ends⟩ :=
    lawful.can_end s.parsed client (logs.parseLogs parser) empty mine
  cases result : logs.parseLogs parser with
  | ok value =>
    rw [result] at ends
    exact ⟨_, _, _, by decide, .publish s client request value parsed runs result ends⟩
  | error error =>
    rw [result] at ends
    exact ⟨_, _, _, by decide, .fail s client request error parsed runs result ends⟩

/-- As long as some client waits for its answer, some client has a step. -/
theorem progress (lawful : cell.Lawful) (parser : LogParser) (logs : TxLogs) (s : State cell)
    (sound : Sound parser logs s) (client : Client) (busy : (s.phase client).pending ≠ []) :
    ∃ kind events next, kind ≠ .ask ∧ Step parser logs s kind events next := by
  cases phase : s.phase client with
  | idle => simp [phase, LogPhase.pending] at busy
  | asked request =>
    cases held : cell.get s.parsed with
    | none => exact ⟨_, _, _, by decide, .miss s client request phase held⟩
    | some value => exact ⟨_, _, _, by decide, .find s client request value (.inl phase) held⟩
  | loading request =>
    cases held : cell.get s.parsed with
    | some value => exact ⟨_, _, _, by decide, .find s client request value (.inr phase) held⟩
    | none =>
      cases who : cell.running s.parsed with
      | none =>
        obtain ⟨parsed, begins⟩ := lawful.can_begin s.parsed client held who
        exact ⟨_, _, _, by decide, .enter s client request parsed phase begins⟩
      | some other =>
        -- whoever parses can finish
        have fits := sound.fits other
        cases theirs : s.phase other with
        | parsing request => exact parse_ends lawful parser logs s sound other request theirs
        | _ => simp [theirs, Fits, who] at fits
  | parsing request => exact parse_ends lawful parser logs s sound client request phase
  | loaded request => exact ⟨_, _, _, by decide, .answer s client request phase⟩

section Finite

variable [Fintype Client]

/-- The steps left to do for all clients together. -/
def work (s : State cell) : Nat := ∑ client, (s.phase client).work

/-- Every step but a new question leaves less to do. -/
theorem work_lt (parser : LogParser) (logs : TxLogs) (s next : State cell) (kind : LogStep)
    (events : List (LogEvent Client)) (step : Step parser logs s kind events next)
    (goesOn : kind ≠ .ask) : work next < work s := by
  obtain ⟨nowhereMore, mover, less⟩ := step_work parser logs s next kind events step goesOn
  exact Finset.sum_lt_sum (fun client _ => nowhereMore client) ⟨mover, Finset.mem_univ _, less⟩

/-- A run without new questions is no longer than the work there was. -/
theorem run_length (parser : LogParser) (logs : TxLogs) (s final : State cell)
    (kinds : List LogStep) (events : List (LogEvent Client))
    (run : Run parser logs s kinds events final) (noAsk : .ask ∉ kinds) :
    kinds.length + work final ≤ work s := by
  induction run with
  | nil s => simp
  | cons s next final kind kinds events later first rest inductionHypothesis =>
    simp only [List.mem_cons, not_or] at noAsk
    have shorter : work next < work s :=
      work_lt parser logs s next kind events first (Ne.symm noAsk.1)
    have onwards := inductionHypothesis noAsk.2
    rw [List.length_cons]
    omega

/-- Without new questions every client gets its answer, whichever steps are taken first. -/
theorem drains (lawful : cell.Lawful) (parser : LogParser) (logs : TxLogs) (s : State cell)
    (sound : Sound parser logs s) :
    ∃ kinds events final, Run parser logs s kinds events final ∧ .ask ∉ kinds ∧
      ∀ client, (final.phase client).pending = [] := by
  induction remaining : work s using Nat.strong_induction_on generalizing s with
  | h remaining inductionHypothesis =>
    subst remaining
    by_cases idle : ∀ client, (s.phase client).pending = []
    · exact ⟨[], [], s, .nil s, by simp, idle⟩
    · obtain ⟨client, busy⟩ := not_forall.mp idle
      obtain ⟨kind, events, next, goesOn, step⟩ :=
        progress lawful parser logs s sound client busy
      have shorter : work next < work s := work_lt parser logs s next kind events step goesOn
      obtain ⟨kinds, later, final, run, noAsk, done⟩ :=
        inductionHypothesis (work next) shorter next
          (step_sound lawful parser logs s next kind events sound step) rfl
      exact ⟨kind :: kinds, events ++ later, final, .cons _ _ _ _ _ _ _ step run,
        by simp [noAsk, Ne.symm goesOn], done⟩

end Finite

end LogClients

end Graced
