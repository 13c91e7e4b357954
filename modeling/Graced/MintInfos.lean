import Graced.AssocMap
import Graced.Outcome
import Graced.Program
import Mathlib.Data.List.DropRight
import Mathlib.Data.List.ReduceOption
import Mathlib.Data.List.Zip

/-!
# What is fetched about mints

The decimals and names of mints come from two batched requests, one for the mint accounts and
one for their metadata accounts. The answers are walked through once. A mint whose name is not
in a metadata account gets an empty place in the results, and a second pass fills these places
from the extensions of the mint accounts. Most bad accounts leave their place empty; an account
that is too short or has bad extensions ends the whole call.
-/

namespace Graced.MintInfos

/-- `Account`, as far as it is read. -/
structure Account where
  owner : Pubkey
  data : Bytes
deriving DecidableEq, Repr

/-- `Mint`: what the first bytes of a mint account say. -/
structure MintState where
  mintAuthority : Option Pubkey
  supply : UInt64
  decimals : UInt8
  freezeAuthority : Option Pubkey
deriving DecidableEq, Repr

/-- What either kind of metadata says about a mint. -/
structure Labels where
  name : String
  symbol : String
  uri : String
deriving DecidableEq, Repr

/-- `ExtensionType`. Only one of them is looked for. -/
inductive ExtensionType where
  | tokenMetadata
  | other (kind : Nat)
deriving DecidableEq, Repr

/-- `StateWithExtensions`: the types of the extensions, and the bytes of the one that is looked
for. Either may turn out to be malformed. -/
structure StateWithExtensions where
  getExtensionTypes : Except String (List ExtensionType)
  getExtensionBytes : Except String Bytes

/-- The libraries that derive addresses and read accounts. -/
structure MintCodecs where
  /-- `find_metadata_pda` -/
  findMetadataPda : Pubkey → Pubkey
  /-- `Mint::unpack` -/
  unpackMint : Bytes → Option MintState
  /-- `MetadataAccount::try_deserialize` -/
  metadataAccount : Bytes → Option Labels
  /-- `StateWithExtensions::unpack` -/
  unpackExtensions : Bytes → Except String StateWithExtensions
  /-- `TokenMetadata::deserialize` -/
  tokenMetadata : Bytes → Except String Labels

/-- `get_multiple_accounts`, in the first and in the second request of a call. -/
structure RpcClient where
  mintAccounts : List Pubkey → Except String (List (Option Account))
  metadataAccounts : List Pubkey → Except String (List (Option Account))

/-- `RawMintInfo` -/
structure RawMintInfo where
  pubkey : Pubkey
  decimals : UInt8
  supply : UInt64
  programId : Pubkey
  token2022 : Bool
  mintAuthority : Option Pubkey
  freezeAuthority : Option Pubkey
  name : Option String
  symbol : Option String
  uri : Option String
deriving DecidableEq, Repr

/-- `Mint::LEN` -/
def mintLen : Nat := 82

/-- `trim_end_matches` for the character with code zero. -/
def trimEnd (text : String) : String :=
  String.ofList (text.toList.rdropWhile fun c => c.toNat = 0)

/-- What the code puts together about a mint, with or without labels. -/
def rawMintInfo (mint : Pubkey) (account : Account) (state : MintState) (labels : Option Labels) :
    RawMintInfo where
  pubkey := mint
  decimals := state.decimals
  supply := state.supply
  programId := account.owner
  token2022 := account.owner = Ids.splToken2022
  mintAuthority := state.mintAuthority
  freezeAuthority := state.freezeAuthority
  name := labels.map Labels.name
  symbol := labels.map Labels.symbol
  uri := labels.map Labels.uri

/-! ## The two passes -/

section Passes

variable (debugAssertions : Bool) (codecs : MintCodecs)

/-- The labels in a metadata account; there are none if it cannot be read. -/
def accountLabels (metadata : Account) : Option Labels :=
  (codecs.metadataAccount metadata.data).map fun labels =>
    ⟨trimEnd labels.name, trimEnd labels.symbol, trimEnd labels.uri⟩

/-- A mint that is put off to the second pass, with its place in the results. -/
structure Pending where
  account : Account
  state : MintState
  mint : Pubkey
  idx : Nat

/-- What the first pass has so far. -/
structure Progress where
  results : List (Option RawMintInfo)
  noMetadata : List Pending

/-- One step of the first pass. The data are cut to the length of a mint before anything is
checked. -/
def visit (progress : Progress) (row : (Option Account × Option Account) × Pubkey) :
    Outcome String Progress :=
  match row with
  | ((none, _), _) => .ok { progress with results := progress.results ++ [none] }
  | ((some account, metadata), mint) =>
    if account.data.length < mintLen then .panic
    else match codecs.unpackMint (account.data.take mintLen) with
      | none => .ok { progress with results := progress.results ++ [none] }
      | some state => match metadata with
        | some metadata => .ok { progress with
            results := progress.results ++
              [some (rawMintInfo mint account state (accountLabels codecs metadata))] }
        | none => .ok {
            results := progress.results ++ [none]
            noMetadata := progress.noMetadata ++
              [⟨account, state, mint, progress.results.length⟩] }

/-- The labels among the extensions of a mint account. A mint of the older token program has no
extensions. -/
def extensionLabels (account : Account) : Except String (Option Labels) :=
  if account.owner = Ids.splToken2022 then do
    let state ← codecs.unpackExtensions account.data
    let extensions ← state.getExtensionTypes
    if .tokenMetadata ∈ extensions then
      let bytes ← state.getExtensionBytes
      let labels ← codecs.tokenMetadata bytes
      .ok (some labels)
    else .ok none
  else .ok none

/-- One step of the second pass. Its place is asserted to be empty in some builds. -/
def complete (results : List (Option RawMintInfo)) (pending : Pending) :
    Outcome String (List (Option RawMintInfo)) := do
  let labels ← Outcome.ofExcept (extensionLabels codecs pending.account)
  let info := rawMintInfo pending.mint pending.account pending.state labels
  match results[pending.idx]? with
  | none => .panic
  | some place =>
    if debugAssertions ∧ place.isSome then .panic else .ok (results.set pending.idx (some info))

/-- `fetch_mint_infos` -/
def fetchMintInfos (client : RpcClient) (mints : List Pubkey) :
    Outcome String (List (Option RawMintInfo)) := do
  let mintAccounts ← Outcome.ofExcept (client.mintAccounts mints)
  let metadatas := mints.map codecs.findMetadataPda
  let metadataAccounts ← Outcome.ofExcept (client.metadataAccounts metadatas)
  let progress ← ((mintAccounts.zip metadataAccounts).zip mints).foldlM (visit codecs) ⟨[], []⟩
  progress.noMetadata.foldlM (complete debugAssertions codecs) progress.results

/-- `fetch_mints_for`, from the mints that were collected. An error leaves the map empty. -/
def fetchMintsFor (client : RpcClient) (mints : List Pubkey) :
    Outcome String (AssocMap Pubkey RawMintInfo) :=
  if mints = [] then .ok .empty
  else match fetchMintInfos debugAssertions codecs client mints with
    | .ok infos => .ok (.ofList (infos.reduceOption.map fun info => (info.pubkey, info)))
    | .err _ => .ok .empty
    | .panic => .panic

end Passes

/-! ## One mint -/

/-- A mint with what is found of it: its account and its metadata account. -/
structure Lookup where
  mint : Pubkey
  account : Option Account
  metadata : Option Account
deriving DecidableEq, Repr

/-- The mints that are looked up. -/
def mintsOf (lookups : List Lookup) : List Pubkey := lookups.map Lookup.mint

/-- The client answers with one optional account per key, in order. -/
structure Answers (codecs : MintCodecs) (client : RpcClient) (lookups : List Lookup) : Prop where
  mintAccounts : client.mintAccounts (mintsOf lookups) = .ok (lookups.map Lookup.account)
  metadataAccounts : client.metadataAccounts ((mintsOf lookups).map codecs.findMetadataPda) =
    .ok (lookups.map Lookup.metadata)

/-- The labels of a mint, from its metadata account or, without one, from its extensions. -/
def labels (codecs : MintCodecs) (account : Account) : Option Account → Option Labels
  | some metadata => accountLabels codecs metadata
  | none => (extensionLabels codecs account).toOption.join

/-- The entry of a mint, from its own accounts. -/
def entry (codecs : MintCodecs) (lookup : Lookup) : Option RawMintInfo := do
  let account ← lookup.account
  let state ← codecs.unpackMint (account.data.take mintLen)
  return rawMintInfo lookup.mint account state (labels codecs account lookup.metadata)

/-- A mint account is long enough to be cut. -/
def Sized (lookup : Lookup) : Prop :=
  ∀ account, lookup.account = some account → mintLen ≤ account.data.length

/-- The extensions of a mint account can be read, and so can the labels if they are there. -/
def ExtensionsReadable (codecs : MintCodecs) (data : Bytes) : Prop :=
  ∃ state extensions, codecs.unpackExtensions data = .ok state ∧
    state.getExtensionTypes = .ok extensions ∧
    (.tokenMetadata ∈ extensions → ∃ bytes labels, state.getExtensionBytes = .ok bytes ∧
      codecs.tokenMetadata bytes = .ok labels)

/-- Where the labels of a mint are looked for among its extensions, they can be read. -/
def Labelled (codecs : MintCodecs) (lookup : Lookup) : Prop :=
  ∀ account state, lookup.account = some account →
    codecs.unpackMint (account.data.take mintLen) = some state → lookup.metadata = none →
    account.owner = Ids.splToken2022 → ExtensionsReadable codecs account.data

/-- Neither the length nor the extensions of the mint's account end the call. -/
structure Readable (codecs : MintCodecs) (lookup : Lookup) : Prop where
  sized : Sized lookup
  labelled : Labelled codecs lookup

/-- There is one entry per mint, and it is missing or about that mint. -/
def Aligned (infos : List (Option RawMintInfo)) (mints : List Pubkey) : Prop :=
  List.Forall₂ (fun info mint => ∀ found, info = some found → found.pubkey = mint) infos mints

/-- Two calls return aligned lists, whatever the accounts; and wherever they look up the same
mint and find the same accounts of it, in whatever places and among whatever others, they have
the same entry. -/
def Isolated (debugAssertions : Bool) (codecs : MintCodecs) (client other : RpcClient)
    (lookups others : List Lookup) : Prop :=
  ∃ infos otherInfos,
    fetchMintInfos debugAssertions codecs client (mintsOf lookups) = .ok infos ∧
    fetchMintInfos debugAssertions codecs other (mintsOf others) = .ok otherInfos ∧
    Aligned infos (mintsOf lookups) ∧ Aligned otherInfos (mintsOf others) ∧
    ∀ (i j : Nat) (lookup : Lookup), lookups[i]? = some lookup → others[j]? = some lookup →
      infos[i]? = otherInfos[j]?

/-! ## The first pass -/

section Passes

variable (debugAssertions : Bool) (codecs : MintCodecs)

/-- A mint with its accounts, as the loop has them. -/
def Lookup.row (lookup : Lookup) : (Option Account × Option Account) × Pubkey :=
  ((lookup.account, lookup.metadata), lookup.mint)

/-- The mint's part in the second pass, if it has any. -/
def pending (lookup : Lookup) (idx : Nat) : Option Pending := do
  let account ← lookup.account
  let state ← codecs.unpackMint (account.data.take mintLen)
  match lookup.metadata with
  | some _ => none
  | none => some ⟨account, state, lookup.mint, idx⟩

/-- What the first pass puts in the mint's place. -/
def settled (lookup : Lookup) : Option RawMintInfo :=
  match lookup.metadata with
  | some _ => entry codecs lookup
  | none => none

/-- The mints that are put off, with their places from a first place on. -/
def pendingFrom (first : Nat) : List Lookup → List Pending
  | [] => []
  | lookup :: rest => (pending codecs lookup first).toList ++ pendingFrom (first + 1) rest

/-- What the first pass has after one more mint. -/
def Progress.after (progress : Progress) (lookup : Lookup) : Progress where
  results := progress.results ++ [settled codecs lookup]
  noMetadata := progress.noMetadata ++ (pending codecs lookup progress.results.length).toList

/-- A step of the first pass panics on a short account and adds one place otherwise. -/
theorem visit_sized (progress : Progress) (lookup : Lookup) (sized : Sized lookup) :
    visit codecs progress lookup.row = .ok (progress.after codecs lookup) := by
  obtain ⟨mint, account, metadata⟩ := lookup
  cases account with
  | none => cases metadata <;> simp [visit, Lookup.row, Progress.after, settled, entry, pending]
  | some account =>
    have long : ¬ account.data.length < mintLen := Nat.not_lt.mpr (sized account rfl)
    cases unpacked : codecs.unpackMint (account.data.take mintLen) <;> cases metadata <;>
      simp [visit, Lookup.row, Progress.after, settled, entry, pending, long, unpacked, labels]

theorem visit_short (progress : Progress) (lookup : Lookup) (short : ¬ Sized lookup) :
    visit codecs progress lookup.row = .panic := by
  obtain ⟨mint, account, metadata⟩ := lookup
  cases account with
  | none => simp [Sized] at short
  | some account =>
    have shorter : account.data.length < mintLen := by simpa [Sized] using short
    simp [visit, Lookup.row, shorter]

/-- The first pass ends if no account is too short, with a place for every mint and with those
that were put off. It panics otherwise. -/
theorem visits_end (lookups : List Lookup) (progress : Progress) :
    (∀ lookup ∈ lookups, Sized lookup) ∧
        (lookups.map Lookup.row).foldlM (visit codecs) progress =
          .ok ⟨progress.results ++ lookups.map (settled codecs),
            progress.noMetadata ++ pendingFrom codecs progress.results.length lookups⟩ ∨
      (∃ lookup ∈ lookups, ¬ Sized lookup) ∧
        (lookups.map Lookup.row).foldlM (visit codecs) progress = .panic := by
  induction lookups generalizing progress with
  | nil => simp [pendingFrom]
  | cons lookup rest inductionHypothesis =>
    rw [List.map_cons, List.foldlM_cons]
    by_cases sized : Sized lookup
    · rw [visit_sized codecs progress lookup sized, Outcome.ok_bind]
      rcases inductionHypothesis (progress.after codecs lookup) with
        ⟨allSized, ends⟩ | ⟨⟨short, member, notSized⟩, panics⟩
      · refine .inl ⟨List.forall_mem_cons.mpr ⟨sized, allSized⟩, ?_⟩
        rw [ends]
        simp [Progress.after, pendingFrom]
      · exact .inr ⟨⟨short, List.mem_cons_of_mem _ member, notSized⟩, panics⟩
    · rw [visit_short codecs progress lookup sized]
      exact .inr ⟨⟨lookup, List.mem_cons_self, sized⟩, rfl⟩

/-! ## The second pass -/

/-- The labels can be had from the extensions exactly when these are readable, or when there are
none. -/
theorem extensionLabels_succeeds_iff (account : Account) :
    (∃ labels, extensionLabels codecs account = .ok labels) ↔
      (account.owner = Ids.splToken2022 → ExtensionsReadable codecs account.data) := by
  by_cases extended : account.owner = Ids.splToken2022
  · simp only [extensionLabels, extended, if_true, forall_const, Outcome.exceptBind_succeeds_iff]
    constructor
    · rintro ⟨state, unpacked, extensions, types, ends⟩
      refine ⟨state, extensions, unpacked, types, fun present => ?_⟩
      simpa only [present, if_true, Outcome.exceptBind_succeeds_iff, Outcome.exists_ok, and_true,
        exists_and_left] using ends
    · rintro ⟨state, extensions, unpacked, types, labelled⟩
      refine ⟨state, unpacked, extensions, types, ?_⟩
      by_cases present : .tokenMetadata ∈ extensions
      · simpa only [present, if_true, Outcome.exceptBind_succeeds_iff, Outcome.exists_ok,
          and_true, exists_and_left] using labelled present
      · simp [present]
  · simp [extensionLabels, extended]

/-- A step of the second pass fills an empty place. -/
theorem complete_fills (before after : List (Option RawMintInfo)) (account : Account)
    (state : MintState) (mint : Pubkey) (found : Option Labels)
    (read : extensionLabels codecs account = .ok found) :
    complete debugAssertions codecs (before ++ none :: after)
        ⟨account, state, mint, before.length⟩ =
      .ok (before ++ some (rawMintInfo mint account state found) :: after) := by
  simp [complete, read]

/-- A step of the second pass on extensions that cannot be read ends the call. -/
theorem complete_fails (results : List (Option RawMintInfo)) (account : Account)
    (state : MintState) (mint : Pubkey) (idx : Nat)
    (unreadable : ¬ ∃ labels, extensionLabels codecs account = .ok labels) :
    ∃ error, complete debugAssertions codecs results ⟨account, state, mint, idx⟩ = .err error := by
  cases read : extensionLabels codecs account with
  | error error => exact ⟨error, by simp [complete, read]⟩
  | ok labels => exact absurd ⟨labels, read⟩ unreadable

/-- Only the extensions of an account that unpacks and has no metadata account matter. -/
theorem labelled_iff (mint : Pubkey) (account : Account) :
    Labelled codecs ⟨mint, some account, none⟩ ↔
      ∀ state, codecs.unpackMint (account.data.take mintLen) = some state →
        account.owner = Ids.splToken2022 → ExtensionsReadable codecs account.data := by
  constructor
  · intro labelled state unpacked
    exact labelled account state rfl unpacked rfl
  · rintro readable _ state ⟨⟩ unpacked _
    exact readable state unpacked

/-- A mint that is not put off has its entry after the first pass. -/
theorem settled_of_not_pending (lookup : Lookup) (idx : Nat)
    (absent : pending codecs lookup idx = none) :
    settled codecs lookup = entry codecs lookup ∧ Labelled codecs lookup := by
  obtain ⟨mint, account, metadata⟩ := lookup
  cases metadata with
  | some metadata => simp [settled, Labelled]
  | none =>
    cases account with
    | none => simp [settled, entry, Labelled]
    | some account =>
      cases unpacked : codecs.unpackMint (account.data.take mintLen) with
      | none => simp [settled, entry, labelled_iff, unpacked]
      | some state => simp [pending, unpacked] at absent

/-- A mint that is put off has an account that unpacks and no metadata account. -/
theorem pending_some (lookup : Lookup) (idx : Nat) (put : Pending)
    (present : pending codecs lookup idx = some put) :
    ∃ account state, lookup = ⟨lookup.mint, some account, none⟩ ∧
      codecs.unpackMint (account.data.take mintLen) = some state ∧
      put = ⟨account, state, lookup.mint, idx⟩ := by
  obtain ⟨mint, account, metadata⟩ := lookup
  simp only [pending, Option.bind_eq_bind, Option.bind_eq_some_iff] at present
  obtain ⟨found, rfl, state, unpacked, rest⟩ := present
  cases metadata with
  | some metadata => simp at rest
  | none => exact ⟨found, state, rfl, unpacked, (Option.some.inj rest).symm⟩

/-- The second pass goes on with the mint's own entry in its place, whether it was put off or
not. -/
theorem completes_passes (lookup : Lookup) (labelled : Labelled codecs lookup)
    (done after : List (Option RawMintInfo)) (later : List Pending) :
    ((pending codecs lookup done.length).toList ++ later).foldlM (complete debugAssertions codecs)
        (done ++ settled codecs lookup :: after) =
      later.foldlM (complete debugAssertions codecs) (done ++ entry codecs lookup :: after) := by
  cases put : pending codecs lookup done.length with
  | none =>
    rw [(settled_of_not_pending codecs lookup done.length put).1]
    rfl
  | some _ =>
    obtain ⟨account, state, shape, unpacked, rfl⟩ := pending_some codecs lookup _ _ put
    rw [shape, labelled_iff] at labelled
    obtain ⟨found, read⟩ :=
      (extensionLabels_succeeds_iff codecs account).mpr (labelled state unpacked)
    have empty : settled codecs lookup = none := by rw [shape]; rfl
    have own : entry codecs lookup = some (rawMintInfo lookup.mint account state found) := by
      rw [shape]
      simp [entry, unpacked, labels, read, Except.toOption]
    rw [Option.toList_some, List.singleton_append, List.foldlM_cons, empty, own,
      complete_fills debugAssertions codecs _ _ account state lookup.mint found read,
      Outcome.ok_bind]

/-- The second pass stops at a mint whose labels cannot be read. -/
theorem completes_stops (lookup : Lookup) (unlabelled : ¬ Labelled codecs lookup) (idx : Nat)
    (results : List (Option RawMintInfo)) (later : List Pending) :
    ∃ error, ((pending codecs lookup idx).toList ++ later).foldlM
      (complete debugAssertions codecs) results = .err error := by
  cases put : pending codecs lookup idx with
  | none => exact absurd (settled_of_not_pending codecs lookup idx put).2 unlabelled
  | some _ =>
    obtain ⟨account, state, shape, unpacked, rfl⟩ := pending_some codecs lookup _ _ put
    have unreadable : ¬ ∃ labels, extensionLabels codecs account = .ok labels := by
      rw [extensionLabels_succeeds_iff]
      intro readable
      rw [shape, labelled_iff] at unlabelled
      exact unlabelled fun _ _ => readable
    obtain ⟨error, fails⟩ :=
      complete_fails debugAssertions codecs results account state lookup.mint idx unreadable
    refine ⟨error, ?_⟩
    rw [Option.toList_some, List.singleton_append, List.foldlM_cons, fails, Outcome.err_bind]

/-- The second pass ends with the entries of all mints if the extensions that it looks at are
readable, and with an error otherwise. It never finds a place filled. -/
theorem completes_end (lookups : List Lookup) (done : List (Option RawMintInfo)) :
    (∀ lookup ∈ lookups, Labelled codecs lookup) ∧
        (pendingFrom codecs done.length lookups).foldlM (complete debugAssertions codecs)
          (done ++ lookups.map (settled codecs)) = .ok (done ++ lookups.map (entry codecs)) ∨
      (∃ lookup ∈ lookups, ¬ Labelled codecs lookup) ∧
        ∃ error, (pendingFrom codecs done.length lookups).foldlM (complete debugAssertions codecs)
          (done ++ lookups.map (settled codecs)) = .err error := by
  induction lookups generalizing done with
  | nil => simp [pendingFrom]
  | cons lookup rest inductionHypothesis =>
    rw [pendingFrom, List.map_cons, List.map_cons]
    by_cases labelled : Labelled codecs lookup
    · have later := inductionHypothesis (done ++ [entry codecs lookup])
      simp only [List.length_append, List.length_singleton, List.append_assoc,
        List.singleton_append] at later
      rw [completes_passes debugAssertions codecs lookup labelled]
      rcases later with ⟨allLabelled, ends⟩ | ⟨⟨unreadable, member, unlabelled⟩, fails⟩
      · exact .inl ⟨List.forall_mem_cons.mpr ⟨labelled, allLabelled⟩, ends⟩
      · exact .inr ⟨⟨unreadable, List.mem_cons_of_mem _ member, unlabelled⟩, fails⟩
    · exact .inr ⟨⟨lookup, List.mem_cons_self, labelled⟩,
        completes_stops debugAssertions codecs lookup labelled _ _ _⟩

/-! ## The call -/

/-- The call returns the mints' own entries if all are readable. It panics if an account is too
short, and otherwise fails as a whole. -/
theorem fetchMintInfos_ends (client : RpcClient) (lookups : List Lookup)
    (answers : Answers codecs client lookups) :
    (∀ lookup ∈ lookups, Readable codecs lookup) ∧
        fetchMintInfos debugAssertions codecs client (mintsOf lookups) =
          .ok (lookups.map (entry codecs)) ∨
      (∃ lookup ∈ lookups, ¬ Sized lookup) ∧
        fetchMintInfos debugAssertions codecs client (mintsOf lookups) = .panic ∨
      ((∀ lookup ∈ lookups, Sized lookup) ∧ ∃ lookup ∈ lookups, ¬ Labelled codecs lookup) ∧
        ∃ error, fetchMintInfos debugAssertions codecs client (mintsOf lookups) = .err error := by
  have rows : ((lookups.map Lookup.account).zip (lookups.map Lookup.metadata)).zip
      (mintsOf lookups) = lookups.map Lookup.row := by
    rw [mintsOf, List.zip_map', List.zip_map']
    rfl
  simp only [fetchMintInfos, answers.mintAccounts, answers.metadataAccounts, Outcome.ofExcept_ok,
    Outcome.ok_bind, rows]
  rcases visits_end codecs lookups ⟨[], []⟩ with ⟨sized, passed⟩ | ⟨short, panics⟩
  · simp only [passed, Outcome.ok_bind, List.nil_append, List.length_nil]
    rcases completes_end debugAssertions codecs lookups [] with
      ⟨labelled, ends⟩ | ⟨unlabelled, fails⟩
    · exact .inl ⟨fun lookup member => ⟨sized lookup member, labelled lookup member⟩, ends⟩
    · exact .inr (.inr ⟨⟨sized, unlabelled⟩, fails⟩)
  · rw [panics]
    exact .inr (.inl ⟨short, rfl⟩)

/-- The call returns exactly when all mints are readable. Every mint then has its own entry. -/
theorem fetchMintInfos_ok_iff (client : RpcClient) (lookups : List Lookup)
    (answers : Answers codecs client lookups) (infos : List (Option RawMintInfo)) :
    fetchMintInfos debugAssertions codecs client (mintsOf lookups) = .ok infos ↔
      (∀ lookup ∈ lookups, Readable codecs lookup) ∧ infos = lookups.map (entry codecs) := by
  rcases fetchMintInfos_ends debugAssertions codecs client lookups answers with
    ⟨readable, ends⟩ | ⟨⟨short, member, notSized⟩, panics⟩ |
      ⟨⟨_, unreadable, member, unlabelled⟩, error, fails⟩
  · rw [ends, Outcome.ok.injEq]
    exact ⟨fun same => ⟨readable, same.symm⟩, fun same => same.2.symm⟩
  · simp only [panics, reduceCtorEq, false_iff, not_and]
    exact fun readable => absurd (readable short member).sized notSized
  · simp only [fails, reduceCtorEq, false_iff, not_and]
    exact fun readable => absurd (readable unreadable member).labelled unlabelled

/-- The entry of a mint is missing or about it. -/
theorem entry_pubkey (lookup : Lookup) (found : RawMintInfo)
    (present : entry codecs lookup = some found) : found.pubkey = lookup.mint := by
  simp only [entry, Option.bind_eq_bind, Option.bind_eq_some_iff] at present
  obtain ⟨account, _, state, _, same⟩ := present
  obtain rfl := Option.some.inj same
  rfl

/-- Entries taken mint by mint are aligned. -/
theorem aligned_entries (lookups : List Lookup) :
    Aligned (lookups.map (entry codecs)) (mintsOf lookups) := by
  rw [Aligned, mintsOf, List.forall₂_map_left_iff, List.forall₂_map_right_iff, List.forall₂_same]
  exact fun lookup _ found present => entry_pubkey codecs lookup found present

/-! ## The map for printing -/

/-- The keys of aligned entries are among the mints, in their order. -/
theorem aligned_keys (infos : List (Option RawMintInfo)) (mints : List Pubkey)
    (aligned : Aligned infos mints) :
    (infos.reduceOption.map RawMintInfo.pubkey).Sublist mints := by
  induction aligned with
  | nil => exact .slnil
  | @cons info mint _ _ own _ inductionHypothesis =>
    cases info with
    | none => exact inductionHypothesis.cons mint
    | some found =>
      rw [List.reduceOption_cons_of_some, List.map_cons, own found rfl]
      exact inductionHypothesis.cons_cons mint

/-- With readable and distinct mints, every mint is found with its entry. -/
theorem fetchMintsFor_finds (client : RpcClient) (lookups : List Lookup)
    (answers : Answers codecs client lookups) (distinct : (mintsOf lookups).Nodup)
    (readable : ∀ lookup ∈ lookups, Readable codecs lookup) :
    ∃ map, fetchMintsFor debugAssertions codecs client (mintsOf lookups) = .ok map ∧
      ∀ lookup ∈ lookups, map.get lookup.mint = entry codecs lookup := by
  have returned := (fetchMintInfos_ok_iff debugAssertions codecs client lookups answers _).mpr
    ⟨readable, rfl⟩
  cases lookups with
  | nil => exact ⟨.empty, rfl, by simp⟩
  | cons first rest =>
    have present : mintsOf (first :: rest) ≠ [] := by simp [mintsOf]
    refine ⟨_, by rw [fetchMintsFor, if_neg present, returned], ?_⟩
    intro lookup member
    have ownKeys := (aligned_keys _ _ (aligned_entries codecs (first :: rest))).nodup distinct
    apply Option.ext
    intro info
    rw [← AssocMap.mem_entries, AssocMap.ofList_entries _ (by rwa [List.map_map])]
    simp only [List.mem_map, List.reduceOption_mem_iff, Prod.mk.injEq, exists_eq_right_right]
    constructor
    · rintro ⟨⟨other, otherMember, found⟩, sameMint⟩
      rw [entry_pubkey codecs other info found] at sameMint
      rwa [← List.inj_on_of_nodup_map distinct otherMember member sameMint]
    · intro found
      exact ⟨⟨lookup, member, found⟩, entry_pubkey codecs lookup info found⟩

/-! ## Two calls -/

/-- Two calls are isolated exactly when every mint of both is readable: no account is too short
to be cut, and extensions in which labels are looked for can be read. -/
theorem isolated_iff (client other : RpcClient) (lookups others : List Lookup)
    (answers : Answers codecs client lookups) (alsoAnswers : Answers codecs other others) :
    Isolated debugAssertions codecs client other lookups others ↔
      (∀ lookup ∈ lookups, Readable codecs lookup) ∧
        ∀ lookup ∈ others, Readable codecs lookup := by
  constructor
  · rintro ⟨infos, otherInfos, returned, alsoReturned, _⟩
    exact ⟨((fetchMintInfos_ok_iff _ _ client lookups answers infos).mp returned).1,
      ((fetchMintInfos_ok_iff _ _ other others alsoAnswers otherInfos).mp alsoReturned).1⟩
  · rintro ⟨readable, alsoReadable⟩
    refine ⟨lookups.map (entry codecs), others.map (entry codecs),
      (fetchMintInfos_ok_iff _ _ client lookups answers _).mpr ⟨readable, rfl⟩,
      (fetchMintInfos_ok_iff _ _ other others alsoAnswers _).mpr ⟨alsoReadable, rfl⟩,
      aligned_entries codecs lookups, aligned_entries codecs others, ?_⟩
    intro i j lookup atFirst atSecond
    simp [List.getElem?_map, atFirst, atSecond]

end Passes

/-- The bytes of an initialized mint without authorities, with supply 7 and 6 decimals. -/
def mintData : Bytes := List.replicate 36 0 ++ [7, 0, 0, 0, 0, 0, 0, 0, 6, 1] ++ List.replicate 36 0

/-- Readers of such mints. With one byte more the extensions are cut off before they begin. -/
def plainCodecs : MintCodecs where
  findMetadataPda mint := ⟨~~~mint.raw⟩
  unpackMint data := if data = mintData then some ⟨none, 7, 6, none⟩ else none
  metadataAccount _ := none
  unpackExtensions data :=
    if data.length = mintLen then .ok ⟨.ok [], .error "ExtensionNotFound"⟩
    else .error "InvalidAccountData"
  tokenMetadata _ := .error "Unexpected length of input"

/-- A client that knows the accounts of these mints. -/
def clientOf (lookups : List Lookup) : RpcClient where
  mintAccounts _ := .ok (lookups.map Lookup.account)
  metadataAccounts _ := .ok (lookups.map Lookup.metadata)

theorem clientOf_answers (codecs : MintCodecs) (lookups : List Lookup) :
    Answers codecs (clientOf lookups) lookups := ⟨rfl, rfl⟩

/-- A mint of the older token program. -/
def plainMint : Lookup := ⟨⟨1⟩, some ⟨Ids.splToken, mintData⟩, none⟩

/-- Another mint, of the newer token program, whose account ends with these bytes. -/
def extendedMint (data : Bytes) : Lookup := ⟨⟨2⟩, some ⟨Ids.splToken2022, data⟩, none⟩

/-- The other mint again, with a metadata account that cannot be read. -/
def mislabelledMint : Lookup :=
  ⟨⟨2⟩, some ⟨Ids.splToken2022, mintData⟩, some ⟨⟨3⟩, [0]⟩⟩

/-- Two readable mints, in either order, one of them also with bad metadata, are isolated. -/
theorem plain_mints_isolated :
    Isolated true plainCodecs (clientOf [plainMint, extendedMint mintData])
      (clientOf [mislabelledMint, plainMint]) [plainMint, extendedMint mintData]
      [mislabelledMint, plainMint] := by
  have sized (mint : Pubkey) (owner : Pubkey) (metadata : Option Account) :
      Sized ⟨mint, some ⟨owner, mintData⟩, metadata⟩ := by
    rintro _ ⟨⟩
    exact (by decide : mintLen ≤ mintData.length)
  have plain : Readable plainCodecs plainMint := by
    refine ⟨sized _ _ _, ?_⟩
    rintro _ _ ⟨⟩ _ _ newer
    exact absurd newer (by decide)
  have extended : Readable plainCodecs (extendedMint mintData) := by
    refine ⟨sized _ _ _, ?_⟩
    rintro _ _ ⟨⟩ _ _ _
    exact ⟨_, _, rfl, rfl, by simp⟩
  have mislabelled : Readable plainCodecs mislabelledMint := by
    refine ⟨sized _ _ _, ?_⟩
    rintro _ _ _ _ ⟨⟩
  refine (isolated_iff true plainCodecs _ _ _ _ (clientOf_answers _ _)
    (clientOf_answers _ _)).mpr ⟨?_, ?_⟩
  · simp [plain, extended]
  · simp [plain, mislabelled]

/-- Cutting off the extensions of one mint turns a call that returns both into an error, and
cutting the account shorter makes it panic. -/
theorem extensions_spoil_call :
    fetchMintInfos true plainCodecs (clientOf [plainMint, extendedMint mintData])
        (mintsOf [plainMint, extendedMint mintData]) =
      .ok [entry plainCodecs plainMint, entry plainCodecs (extendedMint mintData)] ∧
    fetchMintInfos true plainCodecs (clientOf [plainMint, extendedMint (mintData ++ [1])])
        (mintsOf [plainMint, extendedMint (mintData ++ [1])]) = .err "InvalidAccountData" ∧
    fetchMintInfos true plainCodecs (clientOf [plainMint, extendedMint [1]])
        (mintsOf [plainMint, extendedMint [1]]) = .panic ∧
    ¬ Isolated true plainCodecs (clientOf [plainMint, extendedMint mintData])
      (clientOf [plainMint, extendedMint (mintData ++ [1])]) [plainMint, extendedMint mintData]
      [plainMint, extendedMint (mintData ++ [1])] ∧
    ¬ Isolated true plainCodecs (clientOf [plainMint, extendedMint mintData])
      (clientOf [plainMint, extendedMint [1]]) [plainMint, extendedMint mintData]
      [plainMint, extendedMint [1]] := by
  have fails : fetchMintInfos true plainCodecs
      (clientOf [plainMint, extendedMint (mintData ++ [1])])
      (mintsOf [plainMint, extendedMint (mintData ++ [1])]) = .err "InvalidAccountData" := by
    decide
  have panics : fetchMintInfos true plainCodecs (clientOf [plainMint, extendedMint [1]])
      (mintsOf [plainMint, extendedMint [1]]) = .panic := by decide
  refine ⟨by decide, fails, panics, ?_, ?_⟩
  · rintro ⟨_, _, _, returned, _⟩
    rw [fails] at returned
    simp at returned
  · rintro ⟨_, _, _, returned, _⟩
    rw [panics] at returned
    simp at returned

end Graced.MintInfos
