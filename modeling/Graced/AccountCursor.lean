import Graced.Accounts
import Mathlib.Logic.Function.Iterate

/-!
# The account cursor over a run

Every parser reads its accounts through a cursor that five operations share: four move it,
and `peek` looks ahead. What is left to read is the rest of the list, resolved against the
table, and every operation takes a prefix of it; so the cursor stays within the list, and
the slots taken and the slots left are always all slots.

Looking ahead adds the offset to the cursor on machine words. A sum beyond them panics or
comes back at an account that was read already.
-/

namespace Graced.AccountCursor

open InstructionAccounts

/-- What reading one account gives. -/
abbrev Slot := Except KeyError Pubkey

/-- What is left to read. -/
def unread (accounts : InstructionAccounts) : List Slot :=
  (accounts.indices.drop accounts.cursor).map accounts.resolve

/-- An operation of the cursor. -/
inductive Call where
  | next
  | nextAddress
  | nextOptionalAccount
  | remainingAccounts
  | peek (offset : UInt64)

/-- The accounts after a call. -/
def Call.after (accounts : InstructionAccounts) : Call → InstructionAccounts
  | .next => accounts.next.2
  | .nextAddress => accounts.nextAddress.2
  | .nextOptionalAccount => accounts.nextOptionalAccount.2
  | .remainingAccounts => accounts.remainingAccounts.2
  | .peek _ => accounts

/-- The slots that a call takes. -/
def Call.taken (accounts : InstructionAccounts) : Call → List Slot
  | .next | .nextAddress | .nextOptionalAccount => accounts.next.1.toList
  | .remainingAccounts => accounts.drain.1
  | .peek _ => []

/-- The accounts after a run. -/
def run (accounts : InstructionAccounts) (calls : List Call) : InstructionAccounts :=
  calls.foldl Call.after accounts

/-- The slots that a run takes, in order. -/
def history (accounts : InstructionAccounts) : List Call → List Slot
  | [] => []
  | call :: rest => call.taken accounts ++ history (call.after accounts) rest

/-- What `next` yields after that many more calls of it. -/
def following (accounts : InstructionAccounts) (count : Nat) : Option Slot :=
  ((fun rest : InstructionAccounts => rest.next.2)^[count] accounts).next.1

/-- The cursor is in the list, and what remains is the length without the slots consumed. -/
structure Sound (profile : Profile) (accounts : InstructionAccounts) (consumed : Nat) : Prop where
  within : accounts.cursor ≤ accounts.len
  remaining : ∃ left, (accounts.remainingLen profile : Outcome KeyError UInt64) = .ok left ∧
    left.toNat + consumed = accounts.len

/-- A look ahead changes nothing and tells what reading on would come to. -/
structure PeekAgrees (profile : Profile) (accounts : InstructionAccounts)
    (offset : UInt64) : Prop where
  unchanged : (Call.peek offset).after accounts = accounts
  found : ∀ key, accounts.peekUsize profile offset = .ok key ↔
    following accounts offset.toNat = some (.ok key)
  exhausted : ∀ declared, accounts.peekUsize profile offset = .err (.accountsExhausted declared) ↔
    declared = accounts.len ∧ following accounts offset.toNat = none
  outOfRange : ∀ index tableLen,
    accounts.peekUsize profile offset = .err (.accountIndexOutOfRange index tableLen) ↔
      following accounts offset.toNat = some (.error (.accountIndexOutOfRange index tableLen))

/-- All of this at every point of a run. -/
structure CursorSound (profile : Profile) (start : InstructionAccounts)
    (calls : List Call) : Prop where
  states : ∀ before after, calls = before ++ after →
    Sound profile (run start before) (history start before).length
  peeks : ∀ before offset after, calls = before ++ .peek offset :: after →
    PeekAgrees profile (run start before) offset

/-- Every look ahead adds up to a machine word. -/
def PeeksFit (start : InstructionAccounts) (calls : List Call) : Prop :=
  ∀ before offset after, calls = before ++ .peek offset :: after →
    (run start before).cursor + offset.toNat < 2 ^ 64

/-! ## One call -/

theorem advance_advance (accounts : InstructionAccounts) (first second : Nat) :
    (accounts.advance first).advance second = accounts.advance (first + second) := by
  simp only [advance, Nat.add_assoc]

/-- Moving on drops what was passed. -/
theorem unread_advance (accounts : InstructionAccounts) (count : Nat) :
    unread (accounts.advance count) = (unread accounts).drop count := by
  have sameTable : (accounts.advance count).resolve = accounts.resolve := rfl
  rw [unread, unread, sameTable, advance, ← List.map_drop, List.drop_drop]

/-- `next` takes the first unread slot. -/
theorem next_eq_head (accounts : InstructionAccounts) :
    accounts.next.1 = (unread accounts).head? := by
  rw [unread, List.head?_map, List.head?_drop, InstructionAccounts.next]
  cases accounts.indices[accounts.cursor]? <;> rfl

/-- `next` moves past the slot that it yields. -/
theorem next_moves (accounts : InstructionAccounts) :
    accounts.next.2 = accounts.advance accounts.next.1.toList.length := by
  rw [InstructionAccounts.next]
  cases accounts.indices[accounts.cursor]? <;> rfl

theorem next_prefix (accounts : InstructionAccounts) :
    accounts.next.1.toList <+: unread accounts := by
  rw [next_eq_head]
  cases unread accounts with
  | nil => exact List.nil_prefix
  | cons slot rest => exact ⟨rest, rfl⟩

/-- A list with an entry at the cursor has its resolution as the first unread slot. -/
theorem unread_of_entry (accounts : InstructionAccounts) (tableIdx : UInt8)
    (entry : accounts.indices[accounts.cursor]? = some tableIdx) :
    unread accounts = accounts.resolve tableIdx :: unread (accounts.advance 1) := by
  obtain ⟨inside, rfl⟩ := List.getElem?_eq_some_iff.mp entry
  rw [unread_advance, unread, List.drop_eq_getElem_cons inside]
  rfl

/-- Collecting takes unread slots from the front and moves past them. -/
theorem drain_takes (accounts : InstructionAccounts) :
    accounts.drain.2 = accounts.advance accounts.drain.1.length ∧
      accounts.drain.1 <+: unread accounts := by
  fun_induction InstructionAccounts.drain accounts with
  | case1 accounts ended => exact ⟨rfl, List.nil_prefix⟩
  | case2 accounts tableIdx entry error failed =>
    rw [unread_of_entry accounts tableIdx entry, failed]
    exact ⟨rfl, List.prefix_cons_inj _ |>.mpr List.nil_prefix⟩
  | case3 accounts tableIdx entry key found slots rest collected inductionHypothesis =>
    rw [collected] at inductionHypothesis
    obtain ⟨moved, taken⟩ := inductionHypothesis
    rw [unread_of_entry accounts tableIdx entry, found]
    refine ⟨?_, (List.prefix_cons_inj _).mpr taken⟩
    rw [moved, advance_advance, List.length_cons, Nat.add_comm]

/-- Every call moves past what it takes. -/
theorem after_eq_advance (accounts : InstructionAccounts) (call : Call) :
    call.after accounts = accounts.advance (call.taken accounts).length := by
  cases call with
  | next => exact next_moves accounts
  | nextAddress => exact next_moves accounts
  | nextOptionalAccount => exact next_moves accounts
  | remainingAccounts => exact (drain_takes accounts).1
  | peek offset => rfl

/-- Every call takes unread slots from the front. -/
theorem taken_prefix (accounts : InstructionAccounts) (call : Call) :
    call.taken accounts <+: unread accounts := by
  cases call with
  | next => exact next_prefix accounts
  | nextAddress => exact next_prefix accounts
  | nextOptionalAccount => exact next_prefix accounts
  | remainingAccounts => exact (drain_takes accounts).2
  | peek offset => exact List.nil_prefix

/-! ## A run -/

/-- A run moves past what it takes, which is the front of what was unread. -/
theorem run_takes (accounts : InstructionAccounts) (calls : List Call) :
    run accounts calls = accounts.advance (history accounts calls).length ∧
      history accounts calls <+: unread accounts := by
  induction calls generalizing accounts with
  | nil => exact ⟨rfl, List.nil_prefix⟩
  | cons call rest inductionHypothesis =>
    obtain ⟨moved, taken⟩ := inductionHypothesis (call.after accounts)
    rw [after_eq_advance, unread_advance] at taken
    rw [run, List.foldl_cons, history, List.length_append]
    refine ⟨?_, ?_⟩
    · rw [← advance_advance, ← after_eq_advance]
      exact moved
    · obtain ⟨left, atFront⟩ := taken_prefix accounts call
      rw [after_eq_advance, ← atFront]
      rw [← atFront, List.drop_left] at taken
      exact (List.prefix_append_right_inj _).mpr taken

/-- What is left after a run, and the number of slots consumed. -/
theorem run_cursor (start : InstructionAccounts) (atFirst : start.cursor = 0)
    (calls : List Call) :
    (run start calls).indices = start.indices ∧
      (run start calls).cursor = (history start calls).length ∧
      (history start calls).length ≤ start.indices.length := by
  obtain ⟨moved, taken⟩ := run_takes start calls
  refine ⟨by rw [moved]; rfl, by rw [moved, advance, atFirst, Nat.zero_add], ?_⟩
  have bounded := taken.length_le
  rw [unread, List.length_map, atFirst, List.drop_zero] at bounded
  exact bounded

/-- What remains within the list is subtracted without underflow. -/
theorem remainingLen_exact (profile : Profile) (accounts : InstructionAccounts)
    (within : accounts.cursor ≤ accounts.len) (words : accounts.indices.length < 2 ^ 64) :
    ∃ left, (accounts.remainingLen profile : Outcome KeyError UInt64) = .ok left ∧
      left.toNat + accounts.cursor = accounts.len := by
  rw [len] at within ⊢
  have lengthWord : (UInt64.ofNat accounts.indices.length).toNat = accounts.indices.length :=
    UInt64.toNat_ofNat_of_lt' words
  have cursorWord : (UInt64.ofNat accounts.cursor).toNat = accounts.cursor :=
    UInt64.toNat_ofNat_of_lt' (Nat.lt_of_le_of_lt within words)
  refine ⟨_, if_neg ?_, ?_⟩
  · rw [lengthWord, cursorWord]
    omega
  · rw [UInt64.toNat_sub_of_le _ _ (UInt64.le_iff_toNat_le.mpr (by omega)), lengthWord, cursorWord]
    omega

/-! ## Looking ahead -/

/-- Reading on comes to the unread slots in order. -/
theorem following_eq (accounts : InstructionAccounts) (count : Nat) :
    following accounts count = (unread accounts)[count]? := by
  induction count generalizing accounts with
  | zero => exact (next_eq_head accounts).trans (List.head?_eq_getElem? ..)
  | succ count inductionHypothesis =>
    rw [following, Function.iterate_succ_apply, ← following, inductionHypothesis, next_moves,
      unread_advance, List.getElem?_drop, next_eq_head]
    cases unread accounts with
    | nil => simp
    | cons slot rest => simp [Nat.add_comm]

/-- A table never reports that the list is too short. -/
theorem resolve_ne_exhausted (accounts : InstructionAccounts) (tableIdx : UInt8) (declared : Nat) :
    accounts.resolve tableIdx ≠ .error (.accountsExhausted declared) := by
  rw [resolve]
  cases accounts.keys.get tableIdx.toNat <;> simp

/-- A sum that is a machine word is the position. -/
theorem peekUsize_fits (profile : Profile) (accounts : InstructionAccounts) (offset : UInt64)
    (fits : accounts.cursor + offset.toNat < 2 ^ 64) :
    accounts.peekUsize profile offset =
      match (unread accounts)[offset.toNat]? with
      | none => .err (.accountsExhausted accounts.len)
      | some slot => Outcome.ofExcept slot := by
  have cursorWord : (UInt64.ofNat accounts.cursor).toNat = accounts.cursor :=
    UInt64.toNat_ofNat_of_lt' (by simp only [UInt64.size]; omega)
  obtain ⟨pos, added, value⟩ := add64_fits (ε := KeyError) profile (UInt64.ofNat accounts.cursor)
    offset (by rwa [cursorWord])
  rw [cursorWord] at value
  rw [peekUsize, added, Outcome.ok_bind, value, unread, List.getElem?_map, List.getElem?_drop]
  cases accounts.indices[accounts.cursor + offset.toNat]? <;> rfl

/-- A sum that is too large panics, or comes back to a position before the cursor. -/
theorem peekUsize_overflow (profile : Profile) (accounts : InstructionAccounts) (offset : UInt64)
    (within : accounts.cursor ≤ accounts.len) (words : accounts.indices.length < 2 ^ 64)
    (overflows : 2 ^ 64 ≤ accounts.cursor + offset.toNat) (declared : Nat) :
    accounts.peekUsize profile offset ≠ .err (.accountsExhausted declared) := by
  have bounded := offset.toNat_lt
  rw [len] at within
  have cursorWord : (UInt64.ofNat accounts.cursor).toNat = accounts.cursor :=
    UInt64.toNat_ofNat_of_lt' (Nat.lt_of_le_of_lt within words)
  unfold peekUsize Profile.add64
  split
  · simp
  · have back : (UInt64.ofNat accounts.cursor + offset).toNat < accounts.indices.length := by
      rw [UInt64.toNat_add, cursorWord]
      omega
    rw [Outcome.ok_bind, List.getElem?_eq_getElem back]
    intro failed
    exact resolve_ne_exhausted accounts _ declared ((Outcome.ofExcept_eq_err _ _).mp failed)

/-- Within the list, looking ahead agrees with reading on exactly where the sum of cursor and
offset is a machine word. -/
theorem peekAgrees_iff (profile : Profile) (accounts : InstructionAccounts) (offset : UInt64)
    (within : accounts.cursor ≤ accounts.len) (words : accounts.indices.length < 2 ^ 64) :
    PeekAgrees profile accounts offset ↔ accounts.cursor + offset.toNat < 2 ^ 64 := by
  constructor
  · intro agrees
    by_contra overflows
    have beyond : following accounts offset.toNat = none := by
      rw [following_eq, unread, List.getElem?_eq_none_iff, List.length_map, List.length_drop]
      omega
    exact peekUsize_overflow profile accounts offset within words (Nat.not_lt.mp overflows)
      accounts.len ((agrees.exhausted accounts.len).mpr ⟨rfl, beyond⟩)
  · intro fits
    have looked := peekUsize_fits profile accounts offset fits
    rw [← following_eq] at looked
    cases ahead : following accounts offset.toNat with
    | none =>
      simp only [ahead] at looked
      exact ⟨rfl, by simp [looked, ahead], by simp [looked, ahead, eq_comm],
        by simp [looked, ahead]⟩
    | some slot =>
      simp only [ahead] at looked
      have notExhausted : ∀ declared, slot ≠ .error (.accountsExhausted declared) := by
        rw [following_eq] at ahead
        obtain ⟨tableIdx, _, rfl⟩ := List.mem_map.mp (List.mem_of_getElem? ahead)
        exact resolve_ne_exhausted accounts tableIdx
      exact ⟨rfl, by simp [looked, ahead], by simp [looked, ahead, notExhausted],
        by simp [looked, ahead]⟩

/-- The cursor keeps its promises over a run exactly if every look ahead adds up to a machine
word. -/
theorem cursor_sound_iff (profile : Profile) (keys : AccountKeys) (indices : List UInt8)
    (programIdIdx : UInt8) (start : InstructionAccounts)
    (created : InstructionAccounts.new keys indices programIdIdx = .ok start)
    (words : indices.length < 2 ^ 64) (calls : List Call) :
    CursorSound profile start calls ↔ PeeksFit start calls := by
  have started : start.cursor = 0 ∧ start.indices = indices := by
    unfold InstructionAccounts.new at created
    split at created
    · simp at created
    · obtain rfl := Except.ok.inj created
      exact ⟨rfl, rfl⟩
  obtain ⟨atFirst, rfl⟩ := started
  have within : ∀ before, (run start before).cursor ≤ (run start before).len ∧
      (run start before).indices.length < 2 ^ 64 := by
    intro before
    obtain ⟨sameList, cursor, bounded⟩ := run_cursor start atFirst before
    rw [len, cursor, sameList]
    exact ⟨bounded, words⟩
  constructor
  · intro sound before offset after split
    obtain ⟨inList, short⟩ := within before
    exact (peekAgrees_iff profile _ offset inList short).mp (sound.peeks before offset after split)
  · intro fits
    refine ⟨fun before after split => ⟨(within before).1, ?_⟩,
      fun before offset after split => ?_⟩
    · rw [← (run_cursor start atFirst before).2.1]
      exact remainingLen_exact profile _ (within before).1 (within before).2
    · obtain ⟨inList, short⟩ := within before
      exact (peekAgrees_iff profile _ offset inList short).mpr (fits before offset after split)

/-- A table of one key, and a list that names it, a key that is not there, and it again. -/
def shortTable : InstructionAccounts := ⟨⟨[⟨1⟩], [], []⟩, [0, 7, 0], 0, ⟨1⟩⟩

/-- Reading past an entry that does not resolve, and looking ahead of it and of the end. -/
theorem cursor_sound_of_short_offsets :
    CursorSound ⟨true⟩ shortTable [.peek 1, .next, .remainingAccounts, .next, .peek 0] := by
  refine (cursor_sound_iff ⟨true⟩ ⟨[⟨1⟩], [], []⟩ [0, 7, 0] 0 shortTable rfl (by decide)
    [.peek 1, .next, .remainingAccounts, .next, .peek 0]).mpr fun before offset after split => ?_
  obtain ⟨_, cursor, bounded⟩ := run_cursor shortTable rfl before
  have asked : Call.peek offset ∈
      [Call.peek 1, .next, .remainingAccounts, .next, .peek 0] := by
    rw [split]
    exact List.mem_append_right _ List.mem_cons_self
  have near : offset.toNat ≤ 1 := by
    simp only [List.mem_cons, Call.peek.injEq, reduceCtorEq, List.not_mem_nil, or_false,
      false_or] at asked
    rcases asked with rfl | rfl <;> decide
  have short : shortTable.indices.length = 3 := rfl
  omega

/-- After one account, looking as far ahead as an offset can say is neither found nor
exhausted: it panics, or finds the account before the cursor, where reading on ends. -/
theorem far_peek_comes_back :
    InstructionAccounts.new ⟨[⟨1⟩], [], []⟩ [0, 7, 0] 0 = .ok shortTable ∧
      (run shortTable [.next]).peekUsize ⟨true⟩ 18446744073709551615 = .panic ∧
      (run shortTable [.next]).peekUsize ⟨false⟩ 18446744073709551615 = .ok ⟨1⟩ ∧
      following (run shortTable [.next]) 18446744073709551615 = none ∧
      ∀ profile, ¬ CursorSound profile shortTable [.next, .peek 18446744073709551615] := by
  refine ⟨rfl, by decide, by decide, ?_, fun profile sound => ?_⟩
  · rw [following_eq]
    rfl
  · have agrees := sound.peeks [.next] 18446744073709551615 [] rfl
    exact absurd ((peekAgrees_iff profile _ _ (by decide) (by decide)).mp agrees) (by decide)

end Graced.AccountCursor
