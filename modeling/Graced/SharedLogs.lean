import Graced.LogClients

/-!
# The logs of a transaction, shared by its instructions

Shared through any lawful cell, by any number of clients whose steps come in any order, the
logs answer each client as if it had parsed them for itself. They are parsed successfully at
most once, and no question stays open for ever.
-/

namespace Graced.TxLogs

open LogClients

variable {Client : Type} [DecidableEq Client]

/-- The logs answer every client, in the order of its questions, as logs of its own would.
Nobody panics, and at most the last question of a client is still open. -/
theorem shared_answers (cell : OnceCell Client ParsedLogs TxLogsError) (lawful : cell.Lawful)
    (parser : LogParser) (logs : TxLogs) (final : State cell) (kinds : List LogStep)
    (events : List (LogEvent Client)) (run : Run parser logs (.start cell) kinds events final)
    (client : Client) :
    (asked client events).map (fun request => (request, .ofExcept (logs.ask parser request))) =
      told client events ++ (final.phase client).pending.map
        (fun request => (request, .ofExcept (logs.ask parser request))) := by
  have balance := run_answers lawful parser logs (.start cell) final kinds events
    (start_sound lawful parser logs) run client
  simpa [answers, State.start, LogPhase.pending] using balance

/-- A parser that finds one call, which logged all there is. -/
def oneCallParser : LogParser where
  parse := fun _ => .ok (.node ⟨0⟩ .nil .nil)
  programLogs := fun _ messages => messages

/-- The logs of a transaction with one message. -/
def oneLineLogs : TxLogs := ⟨⟨[], [], .empty, ["a"], [], []⟩⟩

/-- The question for the lines of the call at the root. -/
def rootLines : LogRequest := .programLogs [0]

/-- Two clients ask at the same time and both find the logs not loaded. One of them parses, and
the other one is answered first. -/
theorem two_clients :
    ∃ events, ∃ final : State (OnceCell.plain : OnceCell Bool _ _),
      Run oneCallParser oneLineLogs (.start _)
        ([.ask, .ask, .miss, .miss, .enter] ++ .publish :: [.find, .answer]) events final ∧
      told true events = [(rootLines, .ok (.lines ["a"]))] :=
  ⟨_, _, .cons _ _ _ _ _ _ _ (.ask _ false LogRequest.stack rfl)
    (.cons _ _ _ _ _ _ _ (.ask _ true rootLines rfl)
    (.cons _ _ _ _ _ _ _ (.miss _ false LogRequest.stack rfl rfl)
    (.cons _ _ _ _ _ _ _ (.miss _ true rootLines rfl rfl)
    (.cons _ _ _ _ _ _ _ (.enter _ false LogRequest.stack _ rfl ⟨rfl, rfl⟩)
    (.cons _ _ _ _ _ _ _ (.publish _ false LogRequest.stack _ _ rfl rfl ⟨rfl, rfl⟩)
    (.cons _ _ _ _ _ _ _ (.find _ true rootLines _ (.inr rfl) rfl)
    (.cons _ _ _ _ _ _ _ (.answer _ true rootLines rfl) (.nil _)))))))), rfl⟩

/-- The other client is told what it would have been told alone. -/
theorem shared_answers_of_two :
    ∃ events, ∃ final : State (OnceCell.plain : OnceCell Bool _ _),
      told true events = [(rootLines, .ok (.lines ["a"]))] ∧
      (asked true events).map
          (fun request => (request, .ofExcept (oneLineLogs.ask oneCallParser request))) =
        told true events ++ (final.phase true).pending.map
          (fun request => (request, .ofExcept (oneLineLogs.ask oneCallParser request))) := by
  obtain ⟨events, final, run, isTold⟩ := two_clients
  exact ⟨events, final, isTold, shared_answers _ OnceCell.plain_lawful oneCallParser oneLineLogs
    final _ events run true⟩

/-- If somebody has parsed the logs, then they have been parsed once and are never parsed again:
one parse began before that one returned, none failed, and what it gave stays. -/
theorem parsed_once (cell : OnceCell Client ParsedLogs TxLogsError) (lawful : cell.Lawful)
    (parser : LogParser) (logs : TxLogs) (final : State cell) (before after : List LogStep)
    (events : List (LogEvent Client))
    (run : Run parser logs (.start cell) (before ++ .publish :: after) events final) :
    (∃ parsed, logs.parseLogs parser = .ok parsed ∧ cell.get final.parsed = some parsed) ∧
      (before.count .enter = 1 ∧ .publish ∉ before ∧ .fail ∉ before) ∧
      (.enter ∉ after ∧ .publish ∉ after ∧ .fail ∉ after) := by
  obtain ⟨middle, _, _, front, back, _⟩ := run_append parser logs _ final before _ events run
  have sound : Sound parser logs (.start cell) := start_sound lawful parser logs
  have soundMiddle : Sound parser logs middle :=
    run_sound lawful parser logs _ middle before _ sound front
  cases back with
  | cons _ next _ _ _ _ _ step rest =>
    have soundNext : Sound parser logs next :=
      step_sound lawful parser logs middle next _ _ soundMiddle step
    cases step with
    | publish client request value parsed runs succeeds ends =>
      obtain ⟨empty, mine⟩ := parsing_alone parser logs middle client request soundMiddle runs
      have full := (lawful.publishes middle.parsed client value parsed mine ends).1
      obtain ⟨kept, others⟩ :=
        run_full lawful parser logs _ final after _ soundNext rest (by simp [full])
      have noFail : .fail ∉ before :=
        run_never_fails parser logs _ middle before _ value succeeds front
      have noPublish : .publish ∉ before := run_never_published lawful parser logs _ middle before
        _ sound front empty
      -- the parse that returns here is the only one that has begun
      have begun := run_parses lawful parser logs _ middle before _ sound front
      rw [List.count_eq_zero.mpr noFail, List.count_eq_zero.mpr noPublish] at begun
      have once : before.count .enter = 1 := by
        simpa [parses, State.start, lawful.new_free, mine] using begun
      exact ⟨⟨value, succeeds, kept.trans full⟩, ⟨once, noPublish, noFail⟩, others⟩

/-- Of two clients one parses, and nobody parses behind it. -/
theorem parsed_once_of_two :
    ∃ final : State (OnceCell.plain : OnceCell Bool _ _),
      (∃ parsed, oneLineLogs.parseLogs oneCallParser = .ok parsed ∧
        OnceCell.plain.get final.parsed = some parsed) ∧
      ([LogStep.ask, .ask, .miss, .miss, .enter].count .enter = 1 ∧
        LogStep.publish ∉ [LogStep.ask, .ask, .miss, .miss, .enter] ∧
        LogStep.fail ∉ [LogStep.ask, .ask, .miss, .miss, .enter]) ∧
      (LogStep.enter ∉ [LogStep.find, .answer] ∧ LogStep.publish ∉ [LogStep.find, .answer] ∧
        LogStep.fail ∉ [LogStep.find, .answer]) := by
  obtain ⟨events, final, run, _⟩ := two_clients
  exact ⟨final, parsed_once _ OnceCell.plain_lawful oneCallParser oneLineLogs final
    [.ask, .ask, .miss, .miss, .enter] [.find, .answer] events run⟩

/-- Whatever has happened, every open question is answered after a bounded number of steps
unless new ones are asked, and none of these steps can lead where some question stays open
for ever. -/
theorem never_stuck [Fintype Client] (cell : OnceCell Client ParsedLogs TxLogsError)
    (lawful : cell.Lawful) (parser : LogParser) (logs : TxLogs) (s : State cell)
    (kinds : List LogStep) (events : List (LogEvent Client))
    (run : Run parser logs (.start cell) kinds events s)
    (final : State cell) (more : List LogStep) (later : List (LogEvent Client))
    (goesOn : Run parser logs s more later final) (noAsk : .ask ∉ more) :
    more.length + work final ≤ work s ∧
      ∃ rest answers done, Run parser logs final rest answers done ∧ .ask ∉ rest ∧
        ∀ client, (done.phase client).pending = [] := by
  have sound : Sound parser logs s :=
    run_sound lawful parser logs _ s kinds events (start_sound lawful parser logs) run
  exact ⟨run_length parser logs s final more later goesOn noAsk,
    drains lawful parser logs final
      (run_sound lawful parser logs s final more later sound goesOn)⟩

/-- The client that parsed is answered in the end as well. -/
theorem never_stuck_of_two :
    ∃ s : State (OnceCell.plain : OnceCell Bool _ _),
      ([] : List LogStep).length + work s ≤ work s ∧
      ∃ rest answers done, Run oneCallParser oneLineLogs s rest answers done ∧
        .ask ∉ rest ∧ ∀ client, (done.phase client).pending = [] := by
  obtain ⟨events, s, run, _⟩ := two_clients
  exact ⟨s, never_stuck _ OnceCell.plain_lawful oneCallParser oneLineLogs s _ events run s [] []
    (.nil s) (by simp)⟩

end Graced.TxLogs
