import Graced.Dispatch

/-!
# Two ways to find the decimals of a mint

Printed amounts take the decimals of a mint from a map that is built once, swaps take them
from a search over both snapshots. The search goes by mint. The map is built by account: of
the entries of one account, before or after, only the first is looked at. Where an account
holds another mint afterwards, the map may never meet that mint.
-/

namespace Graced.DecimalsMaps

open TxBalance

/-- The entries of both snapshots, the earlier first. -/
def entries (balance : TxBalance) : List TransactionTokenBalance :=
  balance.metadata.preTokenBalances ++ balance.metadata.postTokenBalances

/-- Every mint can be read and has the same decimals wherever it is recorded, the native one
nine. -/
structure Consistent (env : Env) (balances : List TransactionTokenBalance) : Prop where
  valid : ∀ b ∈ balances, (env.pubkeyFromStr b.mint).isSome
  uniform : ∀ b ∈ balances, ∀ other ∈ balances,
    env.pubkeyFromStr b.mint = env.pubkeyFromStr other.mint →
      b.uiTokenAmount.decimals = other.uiTokenAmount.decimals
  native : ∀ b ∈ balances,
    env.pubkeyFromStr b.mint = some Ids.nativeMint → b.uiTokenAmount.decimals = 9

/-- The map has every recorded mint, with what the search finds for it. -/
def LookupsAgree (env : Env) (balance : TxBalance) : Prop :=
  ∀ b ∈ entries balance, ∀ mint, env.pubkeyFromStr b.mint = some mint →
    ∃ decimals, balance.decimalsMap.get b.mint = some decimals ∧
      balance.findDecimalsForMint env mint = some decimals

/-- An entry is the first of its account. -/
def Leads (balances : List TransactionTokenBalance) (b : TransactionTokenBalance) : Prop :=
  ∃ before after, balances = before ++ b :: after ∧
    ∀ earlier ∈ before, earlier.accountIndex ≠ b.accountIndex

/-- Every recorded mint is that of an entry which is the first of its account. -/
def LedByFirst (balances : List TransactionTokenBalance) : Prop :=
  ∀ b ∈ balances, ∃ first, Leads balances first ∧ first.mint = b.mint

/-! ## The map -/

theorem Leads.mem {balances : List TransactionTokenBalance} {b : TransactionTokenBalance}
    (leads : Leads balances b) : b ∈ balances := by
  obtain ⟨before, after, rfl, _⟩ := leads
  exact List.mem_append_right _ List.mem_cons_self

/-- An entry at the end is the first of its account if no other entry is of that account. -/
theorem leads_concat_iff (balances : List TransactionTokenBalance)
    (last b : TransactionTokenBalance) :
    Leads (balances ++ [last]) b ↔ Leads balances b ∨
      b = last ∧ ∀ earlier ∈ balances, earlier.accountIndex ≠ last.accountIndex := by
  constructor
  · rintro ⟨before, after, split, first⟩
    rcases List.eq_nil_or_concat after with rfl | ⟨rest, final, rfl⟩
    · obtain ⟨rfl, same⟩ := List.append_inj' split rfl
      obtain rfl := (List.cons.inj same).1
      exact .inr ⟨rfl, first⟩
    · rw [List.concat_eq_append, ← List.cons_append, ← List.append_assoc] at split
      obtain ⟨rfl, _⟩ := List.append_inj' split rfl
      exact .inl ⟨before, rest, rfl, first⟩
  · rintro (⟨before, after, rfl, first⟩ | ⟨rfl, first⟩)
    · exact ⟨before, after ++ [last], by simp, first⟩
    · exact ⟨balances, [], rfl, first⟩

/-- What is known of the map after some entries: the accounts met are theirs, it has the mint
of each that is the first of its account, and every value in it is that of such an entry. -/
structure Recorded (balances : List TransactionTokenBalance)
    (state : AssocMap String UInt8 × List UInt8) : Prop where
  seen : ∀ index, index ∈ state.2 ↔ ∃ b ∈ balances, b.accountIndex = index
  kept : ∀ b, Leads balances b → (state.1.get b.mint).isSome
  values : ∀ mint decimals, state.1.get mint = some decimals →
    ∃ b, Leads balances b ∧ b.mint = mint ∧ b.uiTokenAmount.decimals = decimals

/-- One more entry of an account that was met before changes nothing. -/
theorem recorded_known (balances : List TransactionTokenBalance)
    (last : TransactionTokenBalance) (state : AssocMap String UInt8 × List UInt8)
    (recorded : Recorded balances state) (known : last.accountIndex ∈ state.2) :
    Recorded (balances ++ [last]) state := by
  obtain ⟨seen, kept, values⟩ := recorded
  obtain ⟨earlier, atHand, same⟩ := (seen _).mp known
  have notFirst : ¬ ∀ earlier ∈ balances, earlier.accountIndex ≠ last.accountIndex :=
    fun first => first earlier atHand same
  have sameLeads : ∀ b, Leads (balances ++ [last]) b ↔ Leads balances b := by
    intro b
    simp only [leads_concat_iff, notFirst, and_false, or_false]
  refine ⟨fun index => ?_, ?_, ?_⟩
  · rw [seen]
    simp only [List.mem_append, List.mem_singleton, or_and_right, exists_or, exists_eq_left]
    refine (or_iff_left_of_imp ?_).symm
    rintro rfl
    exact ⟨earlier, atHand, same⟩
  · simpa only [sameLeads] using kept
  · simpa only [sameLeads] using values

/-- The first entry of an account is recorded. -/
theorem recorded_new (balances : List TransactionTokenBalance)
    (last : TransactionTokenBalance) (state : AssocMap String UInt8 × List UInt8)
    (recorded : Recorded balances state) (new : last.accountIndex ∉ state.2) :
    Recorded (balances ++ [last])
      (state.1.insert last.mint last.uiTokenAmount.decimals, last.accountIndex :: state.2) := by
  obtain ⟨seen, kept, values⟩ := recorded
  have first : ∀ earlier ∈ balances, earlier.accountIndex ≠ last.accountIndex :=
    fun earlier atHand same => new ((seen _).mpr ⟨earlier, atHand, same⟩)
  refine ⟨fun index => ?_, ?_, ?_⟩ <;> simp only [leads_concat_iff, AssocMap.get_insert]
  · rw [List.mem_cons, seen]
    simp only [List.mem_append, List.mem_singleton, or_and_right, exists_or, exists_eq_left]
    rw [or_comm, eq_comm]
  · rintro b (leads | ⟨rfl, _⟩)
    · split
      · rfl
      · exact kept b leads
    · simp
  · intro mint decimals found
    split at found
    · rename_i same
      exact ⟨last, .inr ⟨rfl, first⟩, same, Option.some.inj found⟩
    · obtain ⟨b, leads, sameMint, sameDecimals⟩ := values mint decimals found
      exact ⟨b, .inl leads, sameMint, sameDecimals⟩

/-- One more entry. -/
theorem recorded_step (balances : List TransactionTokenBalance)
    (last : TransactionTokenBalance) (state : AssocMap String UInt8 × List UInt8)
    (recorded : Recorded balances state) :
    Recorded (balances ++ [last]) (recordDecimals state last) := by
  unfold recordDecimals
  by_cases known : last.accountIndex ∈ state.2
  · rw [if_pos known]
    exact recorded_known balances last state recorded known
  · rw [if_neg known]
    exact recorded_new balances last state recorded known

/-- The whole walk. -/
theorem recorded_all (balances : List TransactionTokenBalance) :
    Recorded balances (balances.foldl recordDecimals (.empty, [])) := by
  induction balances using List.reverseRecOn with
  | nil =>
    refine ⟨by simp, fun b leads => ?_, by simp⟩
    exact absurd leads.mem List.not_mem_nil
  | append_singleton balances last inductionHypothesis =>
    rw [List.foldl_append]
    exact recorded_step balances last _ inductionHypothesis

/-- The map is built over the entries of both snapshots. -/
theorem decimalsMap_eq (balance : TxBalance) :
    balance.decimalsMap = ((entries balance).foldl recordDecimals (.empty, [])).1 := by
  rw [decimalsMap, entries, List.foldl_append]

/-! ## The search -/

/-- What is found for a recorded mint is what its entries say. -/
theorem findDecimalsForMint_of_entry (env : Env) (balance : TxBalance)
    (consistent : Consistent env (entries balance)) (b : TransactionTokenBalance)
    (member : b ∈ entries balance) (mint : Pubkey) (named : env.pubkeyFromStr b.mint = some mint) :
    balance.findDecimalsForMint env mint = some b.uiTokenAmount.decimals := by
  unfold findDecimalsForMint
  split
  · rename_i native
    rw [consistent.native b member (native ▸ named)]
  · rw [← List.findSome?_append]
    change (entries balance).findSome? (decimalsOf env mint) = _
    have own : decimalsOf env mint b = some b.uiTokenAmount.decimals := by simp [decimalsOf, named]
    obtain ⟨decimals, found⟩ := Option.isSome_iff_exists.mp
      (List.findSome?_isSome_iff.mpr ⟨b, member, Option.isSome_of_eq_some own⟩)
    obtain ⟨other, recordedOther, offered⟩ := List.exists_of_findSome?_eq_some found
    have sameMint : env.pubkeyFromStr other.mint = some mint ∧
        other.uiTokenAmount.decimals = decimals := by
      unfold decimalsOf at offered
      split at offered
      · simp at offered
      · rename_i read
        split at offered
        · rename_i same
          exact ⟨same ▸ read, Option.some.inj offered⟩
        · simp at offered
    rw [found, ← sameMint.2,
      consistent.uniform other recordedOther b member (sameMint.1.trans named.symm)]

/-- The lookups agree on consistent snapshots exactly if every recorded mint is that of an
entry which is the first of its account. -/
theorem lookups_agree_iff (env : Env) (balance : TxBalance)
    (consistent : Consistent env (entries balance)) :
    LookupsAgree env balance ↔ LedByFirst (entries balance) := by
  obtain ⟨_, kept, values⟩ := recorded_all (entries balance)
  rw [← decimalsMap_eq] at kept values
  constructor
  · intro agree b member
    obtain ⟨mint, named⟩ := Option.isSome_iff_exists.mp (consistent.valid b member)
    obtain ⟨decimals, stored, _⟩ := agree b member mint named
    obtain ⟨first, leads, sameMint, _⟩ := values b.mint decimals stored
    exact ⟨first, leads, sameMint⟩
  · intro led b member mint named
    obtain ⟨first, leads, sameMint⟩ := led b member
    obtain ⟨decimals, stored⟩ := Option.isSome_iff_exists.mp (kept first leads)
    rw [sameMint] at stored
    obtain ⟨source, sourceLeads, sourceMint, rfl⟩ := values b.mint decimals stored
    refine ⟨_, stored, ?_⟩
    exact findDecimalsForMint_of_entry env balance consistent source sourceLeads.mem mint
      (sourceMint ▸ named)

/-- Libraries that read two mints. -/
def mintLibraries : Env := { poolLibraries with
  pubkeyFromStr := fun text =>
    if text = "11111111111111111111111111111114" then some ⟨3⟩
    else if text = "11111111111111111111111111111115" then some ⟨4⟩
    else none }

/-- An account that may hold one mint before and another after. -/
def reopened (before after : String) (decimals : UInt8) : TxBalance where
  keys := ⟨[⟨1⟩, ⟨2⟩], [], []⟩
  metadata :=
    { preBalances := []
      postBalances := []
      innerInstructions := .empty
      logMessages := []
      preTokenBalances := [⟨1, before, ⟨none, 6, "0", "0"⟩, "", ""⟩]
      postTokenBalances := [⟨1, after, ⟨none, decimals, "0", "0"⟩, "", ""⟩] }

/-- An account that holds one mint throughout. -/
theorem lookups_agree_on_kept : LookupsAgree mintLibraries
    (reopened "11111111111111111111111111111114" "11111111111111111111111111111114" 6) := by
  refine (lookups_agree_iff mintLibraries _ ⟨?_, ?_, ?_⟩).mpr ?_
  · decide
  · decide
  · decide
  · intro b member
    refine ⟨_, ⟨[], _, rfl, by simp⟩, ?_⟩
    rcases List.mem_cons.mp member with rfl | later
    · rfl
    · obtain rfl := List.mem_singleton.mp later
      rfl

/-- An account that was closed and opened again for another mint: the search finds the new
mint, the map does not have it. -/
theorem reopened_mint_missing :
    Consistent mintLibraries (entries (reopened "11111111111111111111111111111114"
        "11111111111111111111111111111115" 9)) ∧
      (reopened "11111111111111111111111111111114"
        "11111111111111111111111111111115" 9).decimalsMap.get
          "11111111111111111111111111111115" = none ∧
      (reopened "11111111111111111111111111111114"
        "11111111111111111111111111111115" 9).findDecimalsForMint mintLibraries ⟨4⟩ = some 9 ∧
      ¬ LookupsAgree mintLibraries (reopened "11111111111111111111111111111114"
        "11111111111111111111111111111115" 9) := by
  have missing : (reopened "11111111111111111111111111111114"
      "11111111111111111111111111111115" 9).decimalsMap.get
        "11111111111111111111111111111115" = none := by decide
  refine ⟨⟨?_, ?_, ?_⟩, missing, by decide, fun agree => ?_⟩
  · decide
  · decide
  · decide
  · obtain ⟨decimals, stored, _⟩ := agree
      ⟨1, "11111111111111111111111111111115", ⟨none, 9, "0", "0"⟩, "", ""⟩
      (List.mem_append_right _ List.mem_cons_self) ⟨4⟩ rfl
    exact absurd (missing.symm.trans stored) (by simp)

end Graced.DecimalsMaps
