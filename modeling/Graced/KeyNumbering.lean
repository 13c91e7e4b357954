import Graced.Balances
import Mathlib.Order.Bounds.Basic

/-!
# One numbering of the accounts

An instruction names an account by an index that is looked up in three segments, each of
which reduces the index by its length. A balance is looked up by numbering the flattened
segments and taking the first match. Both numberings are positions in the flattened table,
so a balance found by key is the one found by the least index at which the table has that
key.
-/

namespace Graced

namespace AccountKeys

/-- Reducing the index segment by segment reads the flattened segments. -/
theorem getIn_eq_flatten (segments : List (List Pubkey)) (index : Nat) :
    getIn segments index = segments.flatten[index]? := by
  induction segments generalizing index with
  | nil => rfl
  | cons segment rest inductionHypothesis =>
    rw [getIn, List.flatten_cons]
    by_cases inside : index < segment.length
    · rw [List.getElem?_append_left inside, List.getElem?_eq_getElem inside]
    · have beyond : segment.length ≤ index := Nat.not_lt.mp inside
      rw [List.getElem?_append_right beyond, List.getElem?_eq_none beyond]
      exact inductionHypothesis (index - segment.length)

theorem get_eq_iter (keys : AccountKeys) (index : Nat) : keys.get index = keys.iter[index]? :=
  getIn_eq_flatten keys.keySegments index

theorem len_eq_iter (keys : AccountKeys) : keys.len = keys.iter.length :=
  List.length_flatten.symm

end AccountKeys

namespace TxBalance

/-- The index found for a key is the least at which the table has it. -/
theorem findIndexForWallet_eq_some_iff (balance : TxBalance) (key : Pubkey) (index : Nat) :
    balance.findIndexForWallet key = some index ↔
      IsLeast {i | balance.keys.get i = some key} index := by
  have found : ∀ i, balance.keys.get i = some key ↔
      ∃ inside : i < balance.keys.iter.length, balance.keys.iter[i] = key := by
    intro i
    rw [AccountKeys.get_eq_iter, List.getElem?_eq_some_iff]
  rw [findIndexForWallet, List.findIdx?_eq_some_iff_getElem]
  constructor
  · rintro ⟨inside, same, first⟩
    refine ⟨(found index).mpr ⟨inside, of_decide_eq_true same⟩, fun i atKey => ?_⟩
    obtain ⟨within, equal⟩ := (found i).mp atKey
    exact Nat.not_lt.mp fun before => first i before (decide_eq_true equal)
  · rintro ⟨atKey, least⟩
    obtain ⟨inside, same⟩ := (found index).mp atKey
    refine ⟨inside, decide_eq_true same, fun i before equal => ?_⟩
    have lower := least ((found i).mpr ⟨before.trans inside, of_decide_eq_true equal⟩)
    exact absurd before (Nat.not_lt.mpr lower)

/-- No index is found for a key that the table does not have. -/
theorem findIndexForWallet_eq_none_iff (balance : TxBalance) (key : Pubkey) :
    balance.findIndexForWallet key = none ↔ ∀ i, balance.keys.get i ≠ some key := by
  rw [findIndexForWallet, List.findIdx?_eq_none_iff]
  simp only [decide_eq_false_iff_not, AccountKeys.get_eq_iter, ne_eq]
  constructor
  · intro absent i atKey
    exact absent key (List.mem_of_getElem? atKey) rfl
  · rintro absent key member rfl
    obtain ⟨i, atKey⟩ := List.mem_iff_getElem?.mp member
    exact absent i atKey

/-- One numbering: an index reads the flattened table, and nothing from its length on; and
what is found by a key is what is found by the least index of that key, or nothing if it has
none. -/
theorem one_numbering (balance : TxBalance) :
    (∀ index, balance.keys.get index = balance.keys.iter[index]? ∧
      (balance.keys.get index = none ↔ balance.keys.len ≤ index)) ∧
    ∀ key,
      (∀ least, IsLeast {i | balance.keys.get i = some key} least →
        balance.findNativeBalanceAt (.key key) = balance.findNativeBalanceAt (.index least) ∧
        balance.findTokenAccountBalanceAt (.key key) =
          balance.findTokenAccountBalanceAt (.index least)) ∧
      ((∀ i, balance.keys.get i ≠ some key) →
        balance.findNativeBalanceAt (.key key) = ⟨0, 0⟩ ∧
        balance.findTokenAccountBalanceAt (.key key) = ⟨none, none⟩) := by
  refine ⟨fun index => ⟨AccountKeys.get_eq_iter _ index, ?_⟩, fun key => ⟨?_, ?_⟩⟩
  · rw [AccountKeys.get_eq_iter, AccountKeys.len_eq_iter, List.getElem?_eq_none_iff]
  · intro least isLeast
    have found := (balance.findIndexForWallet_eq_some_iff key least).mpr isLeast
    simp only [findNativeBalanceAt, findNativeBalance, findTokenAccountBalanceAt,
      findTokenAccountBalance, found]
    exact ⟨rfl, rfl⟩
  · intro absent
    have missing := (balance.findIndexForWallet_eq_none_iff key).mpr absent
    simp only [findNativeBalanceAt, findNativeBalance, findTokenAccountBalanceAt,
      findTokenAccountBalance, missing]
    exact ⟨trivial, trivial⟩

/-- A table with an empty segment, and a key on both sides of it. -/
def repeatedKeys : TxBalance where
  keys := ⟨[⟨1⟩], [], [⟨2⟩, ⟨1⟩, ⟨2⟩]⟩
  metadata :=
    { preBalances := [10, 20, 30, 40]
      postBalances := [11, 22, 33]
      innerInstructions := .empty
      logMessages := []
      preTokenBalances :=
        [⟨3, "", ⟨none, 0, "0", "0"⟩, "", ""⟩, ⟨1, "", ⟨none, 6, "0", "0"⟩, "", ""⟩]
      postTokenBalances := [] }

/-- A key that is listed twice has the balance of its first index. -/
theorem one_numbering_of_repeated :
    repeatedKeys.findNativeBalanceAt (.key ⟨2⟩) = ⟨20, 22⟩ ∧
      repeatedKeys.findTokenAccountBalanceAt (.key ⟨2⟩) =
        ⟨some ⟨1, "", ⟨none, 6, "0", "0"⟩, "", ""⟩, none⟩ := by
  have least : IsLeast {i | repeatedKeys.keys.get i = some ⟨2⟩} 1 := by
    refine ⟨by decide, fun i atKey => Nat.one_le_iff_ne_zero.mpr ?_⟩
    rintro rfl
    exact absurd atKey (by decide)
  exact ((one_numbering repeatedKeys).2 ⟨2⟩).1 1 least

end TxBalance

end Graced
