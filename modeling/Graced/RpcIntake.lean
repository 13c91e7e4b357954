import Graced.StreamIntake

/-!
# What is accepted from RPC

The conversion of an RPC transaction decodes whatever a node renders as text and looks for a
vote among the root instructions. It fails exactly on what cannot be read. It crashes exactly
on a transaction without signatures, and on one whose programs are not all static keys, up to
the first vote.
-/

namespace Graced.RpcIntake

open Outcome StreamIntake

/-- Everything that is rendered as text can be read. -/
structure Legible (codecs : RpcCodecs) (rendered : UiTransactionStatusMeta) : Prop where
  inner : ∀ record ∈ rendered.innerInstructions.toDefault [], ∀ ix ∈ record.instructions,
    ∃ compiled bytes, ix = .compiled compiled ∧ codecs.decodeBase58 compiled.data = .ok bytes
  loaded : ∀ addresses, rendered.loadedAddresses.toOption = some addresses →
    ∀ text ∈ addresses.writable ++ addresses.readonly, ∃ key, codecs.pubkeyFromStr text = some key
  returned : ∀ data, rendered.returnData.toOption = some data →
    (∃ key, codecs.pubkeyFromStr data.programId = some key) ∧
      ∃ bytes, codecs.decodeBase64 data.data = .ok bytes

/-- An instruction that is a simple vote. -/
def SimpleVote (codecs : RpcCodecs) (staticKeys : List Pubkey) (ix : CompiledInstruction) :
    Prop :=
  staticKeys[ix.programIdIndex.toNat]? = some Rpc.voteProgram ∧ codecs.isSimpleVote ix.data = true

/-- The program of every root instruction is a static key, up to the first simple vote. -/
def Resolvable (codecs : RpcCodecs) (staticKeys : List Pubkey) (ixs : List CompiledInstruction) :
    Prop :=
  ∀ before ix after, ixs = before ++ ix :: after →
    (∃ vote ∈ before, SimpleVote codecs staticKeys vote) ∨
      ∃ program, staticKeys[ix.programIdIndex.toNat]? = some program

/-- The parts of a rendering that is complete. -/
structure Complete (codecs : RpcCodecs) (rpcTx : EncodedTransactionWithStatusMeta)
    (rendered : UiTransactionStatusMeta) (transaction : VersionedTransaction) : Prop where
  recorded : rpcTx.metadata = some rendered
  decoded : codecs.decodeTransaction rpcTx.transaction = some transaction
  legible : Legible codecs rendered

/-- The transaction has what the conversion takes for granted. -/
structure Sound (codecs : RpcCodecs) (transaction : VersionedTransaction) : Prop where
  resolvable : Resolvable codecs transaction.message.staticAccountKeys
    transaction.message.instructions
  signed : transaction.signatures ≠ []

/-! ## The metadata -/

variable (codecs : RpcCodecs)

theorem pubkey_succeeds_iff (text : String) :
    (∃ key, Rpc.pubkey codecs text = .ok key) ↔ ∃ key, codecs.pubkeyFromStr text = some key := by
  unfold Rpc.pubkey
  cases codecs.pubkeyFromStr text <;> simp

/-- An inner instruction is read exactly when it is compiled and its data can be decoded. -/
theorem compiled_succeeds_iff (ix : UiInstruction) :
    (∃ read, Rpc.compiled codecs ix = .ok read) ↔
      ∃ compiled bytes, ix = .compiled compiled ∧
        codecs.decodeBase58 compiled.data = .ok bytes := by
  cases ix with
  | parsed => simp [Rpc.compiled]
  | compiled ix =>
    simp only [Rpc.compiled, exceptBind_succeeds_iff, exceptMapError_ok_iff, exists_ok, and_true]
    constructor
    · rintro ⟨bytes, decoded⟩
      exact ⟨ix, bytes, rfl, decoded⟩
    · rintro ⟨_, bytes, same, decoded⟩
      obtain rfl := UiInstruction.compiled.inj same
      exact ⟨bytes, decoded⟩

/-- The inner instructions of a root instruction are read exactly when each of them is. -/
theorem innerRecord_succeeds_iff (record : UiInnerInstructions) :
    (∃ read, Rpc.innerRecord codecs record = .ok read) ↔
      ∀ ix ∈ record.instructions, ∃ compiled bytes, ix = .compiled compiled ∧
        codecs.decodeBase58 compiled.data = .ok bytes := by
  have each := mapM_succeeds_iff (Rpc.compiled codecs) record.instructions
  simp only [compiled_succeeds_iff] at each
  rw [← each]
  simp only [Rpc.innerRecord, exceptBind_succeeds_iff, exists_ok, and_true]

/-- The loaded addresses are read exactly when each of them can be. -/
theorem loadedAddresses_succeeds_iff (addresses : OptionSerializer UiLoadedAddresses) :
    (∃ read, Rpc.convertUiLoadedAddresses codecs addresses = .ok read) ↔
      ∀ rendered, addresses.toOption = some rendered →
        ∀ text ∈ rendered.writable ++ rendered.readonly,
          ∃ key, codecs.pubkeyFromStr text = some key := by
  unfold Rpc.convertUiLoadedAddresses
  cases addresses.toOption with
  | none => simp
  | some rendered =>
    have writable := mapM_succeeds_iff (Rpc.pubkey codecs) rendered.writable
    have readonly := mapM_succeeds_iff (Rpc.pubkey codecs) rendered.readonly
    simp only [pubkey_succeeds_iff] at writable readonly
    simp only [Option.some.injEq, forall_eq', List.forall_mem_append, ← writable, ← readonly]
    constructor
    · rintro ⟨read, mapped⟩
      cases inner : Rpc.loadedAddresses codecs rendered with
      | error error => rw [inner] at mapped; cases mapped
      | ok loaded =>
        simp only [Rpc.loadedAddresses, exceptBind_ok_iff] at inner
        obtain ⟨first, readFirst, second, readSecond, _⟩ := inner
        exact ⟨⟨first, readFirst⟩, second, readSecond⟩
    · rintro ⟨⟨first, readFirst⟩, second, readSecond⟩
      exact ⟨some ⟨first, second⟩, by simp [Rpc.loadedAddresses, readFirst, readSecond, bind,
        Except.bind, Except.map]⟩

/-- The return data are read exactly when their program and their bytes can be. -/
theorem returnData_succeeds_iff (returned : OptionSerializer UiTransactionReturnData) :
    (∃ read, Rpc.convertReturnData codecs returned = .ok read) ↔
      ∀ data, returned.toOption = some data →
        (∃ key, codecs.pubkeyFromStr data.programId = some key) ∧
          ∃ bytes, codecs.decodeBase64 data.data = .ok bytes := by
  unfold Rpc.convertReturnData
  cases returned.toOption with
  | none => simp
  | some data =>
    simp only [Option.some.injEq, forall_eq', ← pubkey_succeeds_iff]
    constructor
    · rintro ⟨read, mapped⟩
      cases inner : Rpc.returnData codecs data with
      | error error => rw [inner] at mapped; cases mapped
      | ok converted =>
        simp only [Rpc.returnData, exceptBind_ok_iff, exceptMapError_ok_iff] at inner
        obtain ⟨key, readKey, bytes, decoded, _⟩ := inner
        exact ⟨⟨key, readKey⟩, bytes, decoded⟩
    · rintro ⟨⟨key, readKey⟩, bytes, decoded⟩
      exact ⟨some ⟨key, bytes⟩, by simp [Rpc.returnData, readKey, decoded, bind, Except.bind,
        Except.map, Except.mapError]⟩

/-- The metadata are converted exactly when they are legible. -/
theorem metadata_succeeds_iff (rendered : UiTransactionStatusMeta) :
    (∃ read, Rpc.metadata codecs rendered = .ok read) ↔ Legible codecs rendered := by
  have records := mapM_succeeds_iff (Rpc.innerRecord codecs)
    (rendered.innerInstructions.toDefault [])
  simp only [innerRecord_succeeds_iff] at records
  have loaded := loadedAddresses_succeeds_iff codecs rendered.loadedAddresses
  have returned := returnData_succeeds_iff codecs rendered.returnData
  constructor
  · rintro ⟨read, converted⟩
    simp only [Rpc.metadata, exceptBind_ok_iff] at converted
    obtain ⟨inner, readInner, addresses, readLoaded, data, readData, _⟩ := converted
    exact ⟨records.mp ⟨inner, readInner⟩, loaded.mp ⟨addresses, readLoaded⟩,
      returned.mp ⟨data, readData⟩⟩
  · intro legible
    obtain ⟨inner, readInner⟩ := records.mpr legible.inner
    obtain ⟨addresses, readLoaded⟩ := loaded.mpr legible.loaded
    obtain ⟨data, readData⟩ := returned.mpr legible.returned
    exact ⟨_, by simp only [Rpc.metadata, readInner, readLoaded, readData]; rfl⟩

/-! ## The search for a vote -/

/-- Without a simple vote in front, the rest has to resolve on its own. -/
theorem resolvable_cons (staticKeys : List Pubkey) (ix : CompiledInstruction)
    (rest : List CompiledInstruction) (program : Pubkey)
    (resolves : staticKeys[ix.programIdIndex.toNat]? = some program) :
    Resolvable codecs staticKeys (ix :: rest) ↔
      SimpleVote codecs staticKeys ix ∨ Resolvable codecs staticKeys rest := by
  constructor
  · intro resolvable
    by_cases vote : SimpleVote codecs staticKeys ix
    · exact .inl vote
    · right
      rintro before later after rfl
      rcases resolvable (ix :: before) later after rfl with ⟨earlier, member, votes⟩ | found
      · rcases List.mem_cons.mp member with rfl | inBefore
        · exact absurd votes vote
        · exact .inl ⟨earlier, inBefore, votes⟩
      · exact .inr found
  · rintro (vote | resolvable) before later after split
    · cases before with
      | nil =>
        obtain ⟨rfl, _⟩ := List.cons.inj split
        exact .inr ⟨program, resolves⟩
      | cons first others =>
        obtain ⟨rfl, _⟩ := List.cons.inj split
        exact .inl ⟨ix, List.mem_cons_self, vote⟩
    · cases before with
      | nil =>
        obtain ⟨rfl, _⟩ := List.cons.inj split
        exact .inr ⟨program, resolves⟩
      | cons first others =>
        obtain ⟨rfl, same⟩ := List.cons.inj split
        rcases resolvable others later after same with ⟨earlier, member, votes⟩ | found
        · exact .inl ⟨earlier, List.mem_cons_of_mem _ member, votes⟩
        · exact .inr found

/-- The search ends exactly if the programs resolve up to the first vote, and tells whether
there is one. By induction on the instructions. -/
theorem isVoteTxPresent_outcome (staticKeys : List Pubkey) (ixs : List CompiledInstruction) :
    (Resolvable codecs staticKeys ixs → ∃ isVote,
      Rpc.isVoteTxPresent codecs staticKeys ixs = .ok isVote ∧
        (isVote = true ↔ ∃ ix ∈ ixs, SimpleVote codecs staticKeys ix)) ∧
    (¬ Resolvable codecs staticKeys ixs →
      Rpc.isVoteTxPresent codecs staticKeys ixs = .panic) := by
  induction ixs with
  | nil =>
    refine ⟨fun _ => ⟨false, rfl, by simp⟩, fun unresolvable => absurd ?_ unresolvable⟩
    intro before ix after split
    simp at split
  | cons ix rest inductionHypothesis =>
    cases resolves : staticKeys[ix.programIdIndex.toNat]? with
    | none =>
      have unresolvable : ¬ Resolvable codecs staticKeys (ix :: rest) := by
        intro resolvable
        rcases resolvable [] ix rest rfl with ⟨vote, member, _⟩ | ⟨program, found⟩
        · simp at member
        · simp [resolves] at found
      refine ⟨fun resolvable => absurd resolvable unresolvable, fun _ => ?_⟩
      simp [Rpc.isVoteTxPresent, resolves]
    | some program =>
      rw [resolvable_cons codecs staticKeys ix rest program resolves]
      have test : program = Rpc.voteProgram ∧ codecs.isSimpleVote ix.data = true ↔
          SimpleVote codecs staticKeys ix := by
        simp [SimpleVote, resolves]
      by_cases vote : SimpleVote codecs staticKeys ix
      · have stops : Rpc.isVoteTxPresent codecs staticKeys (ix :: rest) = .ok true := by
          simp only [Rpc.isVoteTxPresent, resolves]
          exact if_pos (test.mpr vote)
        exact ⟨fun _ => ⟨true, stops, by simp [vote]⟩, fun neither => absurd (.inl vote) neither⟩
      · have continues : Rpc.isVoteTxPresent codecs staticKeys (ix :: rest) =
            Rpc.isVoteTxPresent codecs staticKeys rest := by
          simp only [Rpc.isVoteTxPresent, resolves]
          exact if_neg fun votes => vote (test.mp votes)
        simp only [continues, vote, false_or, List.mem_cons, or_and_right, exists_or,
          exists_eq_left]
        exact inductionHypothesis

/-! ## The conversion -/

/-- A complete transaction is converted exactly if it is sound, with its vote told; otherwise
the conversion crashes. -/
theorem unifiedTx_complete (rpcTx : EncodedTransactionWithStatusMeta) (slot : UInt64)
    (blockTime : Option Int) (rendered : UiTransactionStatusMeta)
    (transaction : VersionedTransaction) (complete : Complete codecs rpcTx rendered transaction) :
    (Sound codecs transaction → ∃ unified,
      Rpc.unifiedTx codecs rpcTx slot blockTime = .ok unified ∧
        (unified.isVote = true ↔ ∃ ix ∈ unified.instructions,
          SimpleVote codecs unified.message.staticAccountKeys ix)) ∧
    (¬ Sound codecs transaction → Rpc.unifiedTx codecs rpcTx slot blockTime = .panic) := by
  obtain ⟨read, converted⟩ := (metadata_succeeds_iff codecs rendered).mpr complete.legible
  obtain ⟨resolved, crashes⟩ := isVoteTxPresent_outcome codecs
    transaction.message.staticAccountKeys transaction.message.instructions
  simp only [Rpc.unifiedTx, complete.recorded, okOr_some, ok_bind, converted, ofExcept_ok,
    mapError_ok, complete.decoded]
  constructor
  · intro sound
    obtain ⟨isVote, told, votes⟩ := resolved sound.resolvable
    cases signatures : transaction.signatures with
    | nil => exact absurd signatures sound.signed
    | cons signature others =>
      simp only [told, ok_bind, VersionedTransaction.firstSignature, signatures]
      exact ⟨_, rfl, votes⟩
  · intro unsound
    by_cases resolvable : Resolvable codecs transaction.message.staticAccountKeys
        transaction.message.instructions
    · obtain ⟨isVote, told, _⟩ := resolved resolvable
      have unsigned : transaction.signatures = [] := by
        by_contra signed
        exact unsound ⟨resolvable, signed⟩
      simp only [told, ok_bind, VersionedTransaction.firstSignature, unsigned, panic_bind]
    · simp only [crashes resolvable, panic_bind]

/-- An incomplete transaction is an error: the first of missing metadata, illegible metadata
and an undecodable transaction. -/
theorem unifiedTx_incomplete (rpcTx : EncodedTransactionWithStatusMeta) (slot : UInt64)
    (blockTime : Option Int)
    (incomplete : ∀ rendered transaction, ¬ Complete codecs rpcTx rendered transaction) :
    ∃ error, Rpc.unifiedTx codecs rpcTx slot blockTime = .err error ∧
      (error = .missingTxStatusMeta ↔ rpcTx.metadata = none) ∧
      (error = .failedDecode ↔ ∃ rendered, rpcTx.metadata = some rendered ∧
        Legible codecs rendered) := by
  cases recorded : rpcTx.metadata with
  | none => exact ⟨.missingTxStatusMeta, by simp [Rpc.unifiedTx, recorded], by simp, by simp⟩
  | some rendered =>
    cases converted : Rpc.metadata codecs rendered with
    | error error =>
      have illegible : ¬ Legible codecs rendered := by
        rw [← metadata_succeeds_iff, converted]
        simp
      exact ⟨.metaConvert error, by simp [Rpc.unifiedTx, recorded, converted], by simp,
        by simp [illegible]⟩
    | ok read =>
      have legible := (metadata_succeeds_iff codecs rendered).mp ⟨read, converted⟩
      cases decoded : codecs.decodeTransaction rpcTx.transaction with
      | some transaction => exact absurd ⟨recorded, decoded, legible⟩ (incomplete _ transaction)
      | none =>
        exact ⟨.failedDecode, by simp [Rpc.unifiedTx, recorded, converted, decoded], by simp,
          by simp [legible]⟩

/-- The conversion accepts exactly what is complete and sound, crashes exactly on what is
complete and not sound, and otherwise reports the first thing that is missing. -/
theorem intake_iff (rpcTx : EncodedTransactionWithStatusMeta) (slot : UInt64)
    (blockTime : Option Int) :
    ((∃ unified, Rpc.unifiedTx codecs rpcTx slot blockTime = .ok unified) ↔
      ∃ rendered transaction, Complete codecs rpcTx rendered transaction ∧
        Sound codecs transaction) ∧
    (Rpc.unifiedTx codecs rpcTx slot blockTime = .panic ↔
      ∃ rendered transaction, Complete codecs rpcTx rendered transaction ∧
        ¬ Sound codecs transaction) ∧
    (∀ error, Rpc.unifiedTx codecs rpcTx slot blockTime = .err error →
      (error = .missingTxStatusMeta ↔ rpcTx.metadata = none) ∧
      (error = .failedDecode ↔ ∃ rendered, rpcTx.metadata = some rendered ∧
        Legible codecs rendered)) ∧
    ∀ unified, Rpc.unifiedTx codecs rpcTx slot blockTime = .ok unified →
      (unified.isVote = true ↔ ∃ ix ∈ unified.instructions,
        SimpleVote codecs unified.message.staticAccountKeys ix) := by
  by_cases whole : ∃ rendered transaction, Complete codecs rpcTx rendered transaction
  · obtain ⟨rendered, transaction, complete⟩ := whole
    obtain ⟨accepts, crashes⟩ :=
      unifiedTx_complete codecs rpcTx slot blockTime rendered transaction complete
    have only (other : UiTransactionStatusMeta) (otherTransaction : VersionedTransaction)
        (alsoComplete : Complete codecs rpcTx other otherTransaction) :
        otherTransaction = transaction :=
      Option.some.inj (alsoComplete.decoded.symm.trans complete.decoded)
    by_cases sound : Sound codecs transaction
    · obtain ⟨unified, accepted, votes⟩ := accepts sound
      rw [accepted]
      refine ⟨⟨fun _ => ⟨rendered, transaction, complete, sound⟩, fun _ => ⟨unified, rfl⟩⟩,
        ⟨by simp, ?_⟩, by simp, ?_⟩
      · rintro ⟨other, otherTransaction, alsoComplete, unsound⟩
        obtain rfl := only other otherTransaction alsoComplete
        exact absurd sound unsound
      · intro same equal
        obtain rfl := Outcome.ok.inj equal
        exact votes
    · rw [crashes sound]
      refine ⟨⟨by simp, ?_⟩, ⟨fun _ => ⟨rendered, transaction, complete, sound⟩, fun _ => rfl⟩,
        by simp, by simp⟩
      rintro ⟨other, otherTransaction, alsoComplete, alsoSound⟩
      obtain rfl := only other otherTransaction alsoComplete
      exact absurd alsoSound sound
  · obtain ⟨error, refused, missing, undecoded⟩ := unifiedTx_incomplete codecs rpcTx slot blockTime
      (fun rendered transaction complete => whole ⟨rendered, transaction, complete⟩)
    rw [refused]
    refine ⟨⟨by simp, ?_⟩, ⟨by simp, ?_⟩, ?_, by simp⟩
    · rintro ⟨rendered, transaction, complete, _⟩
      exact absurd ⟨rendered, transaction, complete⟩ whole
    · rintro ⟨rendered, transaction, complete, _⟩
      exact absurd ⟨rendered, transaction, complete⟩ whole
    · intro same equal
      obtain rfl := Outcome.err.inj equal
      exact ⟨missing, undecoded⟩

end Graced.RpcIntake
