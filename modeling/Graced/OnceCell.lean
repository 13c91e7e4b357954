import Mathlib.Logic.Function.Basic

/-!
# A cell that is filled once

Clients share a cell that one of them fills while the others wait. The cell is the work of
others, so it is not defined here: it is whatever has states that can be looked at, and in
which a client's function begins and ends. What is known of it are its laws. One function runs
at a time, and only in an empty cell; a function that returns a value fills the cell, and one
that fails leaves it empty; nobody is kept out of an empty cell in which no function runs.
-/

namespace Graced

universe u v w

/-- A cell shared by clients. -/
structure OnceCell (Client : Type u) (Value : Type v) (Error : Type w) where
  State : Type (max u v)
  new : State
  /-- What the cell holds. Looking never waits. -/
  get : State → Option Value
  /-- The client whose function fills the cell. -/
  running : State → Option Client
  /-- The function of a client is called. -/
  Begins : State → Client → State → Prop
  /-- The function of a client returns. -/
  Ends : State → Client → Except Error Value → State → Prop

namespace OnceCell

variable {Client : Type u} {Value : Type v} {Error : Type w}

/-- The laws of the cell. -/
structure Lawful (cell : OnceCell Client Value Error) : Prop where
  new_empty : cell.get cell.new = none
  new_free : cell.running cell.new = none
  /-- No function is called in a full cell, nor while another one runs. -/
  begins_free : ∀ s client next, cell.Begins s client next →
    cell.get s = none ∧ cell.running s = none
  /-- The cell is empty as long as the function runs. -/
  begins_running : ∀ s client next, cell.Begins s client next →
    cell.get next = none ∧ cell.running next = some client
  /-- A value fills the cell. -/
  publishes : ∀ s client value next, cell.running s = some client →
    cell.Ends s client (.ok value) next → cell.get next = some value ∧ cell.running next = none
  /-- A failure leaves it empty. -/
  fails : ∀ s client error next, cell.running s = some client →
    cell.Ends s client (.error error) next → cell.get next = none ∧ cell.running next = none
  /-- Whoever waits can go on once no function runs. -/
  can_begin : ∀ s client, cell.get s = none → cell.running s = none →
    ∃ next, cell.Begins s client next
  can_end : ∀ s client result, cell.get s = none → cell.running s = some client →
    ∃ next, cell.Ends s client result next

/-- A cell as one would write it down: what it holds, and whose function runs. -/
def plain : OnceCell Client Value Error where
  State := Option Value × Option Client
  new := (none, none)
  get := Prod.fst
  running := Prod.snd
  Begins := fun s client next => s = (none, none) ∧ next = (none, some client)
  Ends := fun s client result next => s = (none, some client) ∧ next = (result.toOption, none)

theorem plain_lawful : (plain : OnceCell Client Value Error).Lawful where
  new_empty := rfl
  new_free := rfl
  begins_free := by
    rintro s client next ⟨rfl, rfl⟩
    exact ⟨rfl, rfl⟩
  begins_running := by
    rintro s client next ⟨rfl, rfl⟩
    exact ⟨rfl, rfl⟩
  publishes := by
    rintro s client value next _ ⟨rfl, rfl⟩
    exact ⟨rfl, rfl⟩
  fails := by
    rintro s client error next _ ⟨rfl, rfl⟩
    exact ⟨rfl, rfl⟩
  can_begin := by
    intro s client empty free
    exact ⟨_, Prod.ext empty free, rfl⟩
  can_end := by
    intro s client result empty runs
    exact ⟨_, Prod.ext empty runs, rfl⟩

end OnceCell

end Graced
