import Graced.Borsh
import Mathlib.Algebra.GroupWithZero.Nat
import Mathlib.Data.List.Forall2

/-!
# How values are spelled in binary records

A reader spells a value in certain strings of bytes: those that it takes off the front of its
input when it reads the value, whatever follows them. The spellings of a record are those of
its fields one after another, so that what a reader accepts, and what it makes of it, follows
from what it is built of.
-/

namespace Graced.Borsh

variable {α β : Type}

/-- The reader reads a value exactly where one of the value's spellings stands in front. -/
def Spells (reader : Reader α) (spelling : Bytes → α → Prop) : Prop :=
  ∀ bytes value rest, reader.run bytes = .ok (value, rest) ↔
    ∃ front, spelling front value ∧ bytes = front ++ rest

/-- The same spellings may be told in another way. -/
theorem Spells.congr {reader : Reader α} {spelling other : Bytes → α → Prop}
    (spells : Spells reader spelling)
    (same : ∀ front value, other front value ↔ spelling front value) :
    Spells reader other := by
  intro bytes value rest
  simp only [spells bytes value rest, same]

theorem spells_pure (value : α) :
    Spells (pure value) (fun front read => front = [] ∧ read = value) := by
  intro bytes read rest
  change Except.ok (value, bytes) = Except.ok (read, rest) ↔ _
  simp only [Except.ok.injEq, Prod.mk.injEq]
  constructor
  · rintro ⟨rfl, rfl⟩
    exact ⟨[], ⟨rfl, rfl⟩, rfl⟩
  · rintro ⟨_, ⟨rfl, rfl⟩, rfl⟩
    exact ⟨rfl, rfl⟩

/-- A reader that gives up reads nothing. -/
theorem spells_throw (error : String) :
    Spells (throw error : Reader α) (fun _ _ => False) := by
  intro bytes value rest
  refine iff_of_false ?_ (by simp)
  intro success
  change Except.error error = Except.ok (value, rest) at success
  simp at success

/-- Readers one after another read spellings one after another. -/
theorem Spells.bind {first : Reader α} {next : α → Reader β} {spelling : Bytes → α → Prop}
    {spellings : α → Bytes → β → Prop} (spells : Spells first spelling)
    (nextSpells : ∀ value, Spells (next value) (spellings value)) :
    Spells (first >>= next) (fun front result => ∃ value head tail,
      spelling head value ∧ spellings value tail result ∧ front = head ++ tail) := by
  intro bytes result rest
  have run : (first >>= next).run bytes =
      first.run bytes >>= fun read => (next read.1).run read.2 := rfl
  rw [run]
  constructor
  · intro success
    cases front : first.run bytes with
    | error error => simp [front, Bind.bind, Except.bind] at success
    | ok read =>
      obtain ⟨value, between⟩ := read
      rw [front] at success
      obtain ⟨head, headSpelled, rfl⟩ := (spells bytes value between).mp front
      obtain ⟨tail, tailSpelled, rfl⟩ := (nextSpells value between result rest).mp success
      exact ⟨head ++ tail, ⟨value, head, tail, headSpelled, tailSpelled, rfl⟩,
        (List.append_assoc _ _ _).symm⟩
  · rintro ⟨_, ⟨value, head, tail, headSpelled, tailSpelled, rfl⟩, rfl⟩
    rw [List.append_assoc,
      (spells (head ++ (tail ++ rest)) value (tail ++ rest)).mpr ⟨head, headSpelled, rfl⟩]
    exact (nextSpells value (tail ++ rest) result rest).mpr ⟨tail, tailSpelled, rfl⟩

theorem spells_take (count : Nat) :
    Spells (take count) (fun front value => value = front ∧ front.length = count) := by
  intro bytes value rest
  change take count bytes = _ ↔ _
  unfold take
  split
  · rename_i enough
    simp only [Except.ok.injEq, Prod.mk.injEq]
    constructor
    · rintro ⟨rfl, rfl⟩
      exact ⟨bytes.take count, ⟨rfl, by simp [enough]⟩, (List.take_append_drop _ _).symm⟩
    · rintro ⟨front, ⟨rfl, rfl⟩, rfl⟩
      simp
  · rename_i short
    refine iff_of_false (by simp) ?_
    rintro ⟨front, ⟨_, rfl⟩, rfl⟩
    exact short (by simp)

theorem spells_skip (count : Nat) :
    Spells (skip count) (fun front _ => front.length = count) := by
  refine ((spells_take count).bind (fun _ => spells_pure ())).congr ?_
  intro front value
  simp

/-- Skipping twice is skipping once. -/
theorem skip_skip (first second : Nat) (next : Unit → Reader α) :
    (skip first >>= fun _ => skip second >>= next) = skip (first + second) >>= next := by
  funext bytes
  simp only [skip, bind_assoc, pure_bind]
  show (do
      let (_, rest) ← take first bytes
      let (_, rest) ← take second rest
      next () rest) = (do
      let (_, rest) ← take (first + second) bytes
      next () rest)
  unfold take
  by_cases whole : first + second ≤ bytes.length
  · have front : first ≤ bytes.length := by omega
    have back : second ≤ bytes.length - first := by omega
    simp [whole, front, back, Bind.bind, Except.bind]
  · by_cases front : first ≤ bytes.length
    · have back : ¬ second ≤ bytes.length - first := by omega
      simp [whole, front, back, Bind.bind, Except.bind]
    · simp [whole, front, Bind.bind, Except.bind]

theorem skip_zero (next : Unit → Reader α) : (skip 0 >>= next) = next () := rfl

/-! ## Integers -/

/-- A number in this many bytes, least significant first. -/
def digits : Nat → Nat → Bytes
  | 0, _ => []
  | count + 1, number => UInt8.ofNat number :: digits count (number / 256)

@[simp] theorem length_digits (count number : Nat) : (digits count number).length = count := by
  induction count generalizing number with
  | zero => rfl
  | succ count inductionHypothesis => simp [digits, inductionHypothesis]

theorem littleEndian_cons (byte : UInt8) (bytes : Bytes) :
    littleEndian (byte :: bytes) = byte.toNat + 256 * littleEndian bytes := rfl

/-- The bytes of a number that fits spell it. -/
theorem littleEndian_digits (count number : Nat) (fits : number < 256 ^ count) :
    littleEndian (digits count number) = number := by
  induction count generalizing number with
  | zero =>
    have zero : number = 0 := by simpa using fits
    simp [digits, littleEndian, zero]
  | succ count inductionHypothesis =>
    have higher : number / 256 < 256 ^ count := by
      rw [Nat.div_lt_iff_lt_mul (by decide), ← Nat.pow_succ]
      exact fits
    rw [digits, littleEndian_cons, inductionHypothesis _ higher, UInt8.toNat_ofNat']
    omega

/-- Bytes are those of the number that they spell. -/
theorem digits_littleEndian (bytes : Bytes) :
    digits bytes.length (littleEndian bytes) = bytes := by
  induction bytes with
  | nil => rfl
  | cons byte rest inductionHypothesis =>
    have small := byte.toNat_lt
    have higher : (byte.toNat + 256 * littleEndian rest) / 256 = littleEndian rest := by omega
    have lowest : UInt8.ofNat (byte.toNat + 256 * littleEndian rest) = byte := by
      apply UInt8.toNat_inj.mp
      rw [UInt8.toNat_ofNat']
      omega
    rw [List.length_cons, littleEndian_cons, digits, higher, lowest, inductionHypothesis]

theorem littleEndian_lt (bytes : Bytes) : littleEndian bytes < 256 ^ bytes.length := by
  induction bytes with
  | nil => simp [littleEndian]
  | cons byte rest inductionHypothesis =>
    have small := byte.toNat_lt
    rw [List.length_cons, littleEndian_cons, Nat.pow_succ]
    omega

/-- A fixed number of bytes spells each number that fits in one way. -/
theorem spells_number (count : Nat) (ofNat : Nat → α) (toNat : α → Nat)
    (fits : ∀ value, toNat value < 256 ^ count) (toNat_ofNat : ∀ number, number < 256 ^ count →
      toNat (ofNat number) = number) (ofNat_toNat : ∀ value, ofNat (toNat value) = value) :
    Spells (do return ofNat (littleEndian (← take count)))
      (fun front value => front = digits count (toNat value)) := by
  refine ((spells_take count).bind (fun bytes => spells_pure (ofNat (littleEndian bytes)))).congr ?_
  intro front value
  constructor
  · rintro rfl
    refine ⟨digits count (toNat value), digits count (toNat value), [], ⟨rfl, by simp⟩, ⟨rfl, ?_⟩,
      by simp⟩
    rw [littleEndian_digits count _ (fits value), ofNat_toNat]
  · rintro ⟨_, head, _, ⟨rfl, rfl⟩, ⟨rfl, rfl⟩, rfl⟩
    rw [toNat_ofNat _ (littleEndian_lt _), digits_littleEndian, List.append_nil]

theorem spells_u64 : Spells u64 (fun front value => front = digits 8 value.toNat) :=
  spells_number 8 UInt64.ofNat UInt64.toNat (fun value => value.toNat_lt)
    (fun _ fits => UInt64.toNat_ofNat_of_lt' fits) (fun _ => UInt64.ofNat_toNat)

theorem spells_u32 : Spells u32 (fun front value => front = digits 4 value.toNat) :=
  spells_number 4 UInt32.ofNat UInt32.toNat (fun value => value.toNat_lt)
    (fun _ fits => UInt32.toNat_ofNat_of_lt' fits) (fun _ => UInt32.ofNat_toNat)

theorem spells_u8 : Spells u8 (fun front value => front = digits 1 value.toNat) :=
  spells_number 1 UInt8.ofNat UInt8.toNat (fun value => value.toNat_lt)
    (fun _ fits => UInt8.toNat_ofNat_of_lt' fits) (fun _ => UInt8.ofNat_toNat)

/-- A boolean is a byte zero or one. -/
theorem spells_bool : Spells bool (fun front value => front = [if value then 1 else 0]) := by
  refine (spells_u8.bind (show ∀ byte : UInt8, Spells _
    (fun front value => front = [] ∧ byte = if value then 1 else 0) from fun byte => ?_)).congr ?_
  · split
    · refine (spells_pure false).congr ?_
      intro front value
      cases value <;> simp
    · refine (spells_pure true).congr ?_
      intro front value
      cases value <;> simp
    · rename_i notZero notOne
      refine (spells_throw _).congr ?_
      intro front value
      cases value <;> simp_all
  intro front value
  constructor
  · rintro rfl
    exact ⟨if value then 1 else 0, _, [], rfl, ⟨rfl, rfl⟩, by cases value <;> rfl⟩
  · rintro ⟨_, _, _, rfl, ⟨rfl, rfl⟩, rfl⟩
    cases value <;> rfl

/-! ## Sequences -/

/-- A number of elements in a row is spelled part by part. -/
theorem Spells.times {element : Reader α} {spelling : Bytes → α → Prop}
    (spells : Spells element spelling) (count : Nat) :
    Spells (times element count) (fun front values => values.length = count ∧
      ∃ parts, List.Forall₂ spelling parts values ∧ front = parts.flatten) := by
  induction count with
  | zero =>
    refine (spells_pure []).congr ?_
    intro front values
    constructor
    · rintro ⟨empty, parts, each, rfl⟩
      obtain rfl := List.length_eq_zero_iff.mp empty
      cases each
      exact ⟨rfl, rfl⟩
    · rintro ⟨rfl, rfl⟩
      exact ⟨rfl, [], .nil, rfl⟩
  | succ count inductionHypothesis =>
    refine (spells.bind (fun head =>
      inductionHypothesis.bind (fun tail => spells_pure (head :: tail)))).congr ?_
    intro front values
    constructor
    · rintro ⟨length, parts, each, rfl⟩
      cases each with
      | nil => simp at length
      | cons head tail =>
        rename_i part value parts values
        exact ⟨value, part, parts.flatten, head, ⟨values, parts.flatten, [],
          ⟨by simpa using length, parts, tail, rfl⟩, ⟨rfl, rfl⟩, by simp⟩, rfl⟩
    · rintro ⟨head, part, _, headSpelled, ⟨tail, _, _, ⟨length, parts, each, rfl⟩, ⟨rfl, rfl⟩, rfl⟩,
        rfl⟩
      exact ⟨by simp [length], part :: parts, .cons headSpelled each, by simp⟩

/-- A counted sequence is its count and its elements. -/
theorem Spells.vec {element : Reader α} {spelling : Bytes → α → Prop}
    (spells : Spells element spelling) :
    Spells (vec element) (fun front values => values.length < 2 ^ 32 ∧
      ∃ parts, List.Forall₂ spelling parts values ∧
        front = digits 4 values.length ++ parts.flatten) := by
  refine (spells_u32.bind (fun count => spells.times count.toNat)).congr ?_
  intro front values
  constructor
  · rintro ⟨fits, parts, each, rfl⟩
    have count : (UInt32.ofNat values.length).toNat = values.length :=
      UInt32.toNat_ofNat_of_lt' fits
    exact ⟨.ofNat values.length, _, parts.flatten, by rw [count], ⟨count.symm, parts, each, rfl⟩,
      rfl⟩
  · rintro ⟨count, _, _, rfl, ⟨length, parts, each, rfl⟩, rfl⟩
    exact ⟨by rw [length]; exact count.toNat_lt, parts, each, by rw [length]⟩

/-- A record is read off any input that starts with a spelling of it. -/
theorem Spells.deserialize_iff {record : Reader α} {spelling : Bytes → α → Prop}
    (spells : Spells record spelling) (bytes : Bytes) (value : α) :
    deserialize record bytes = .ok value ↔
      ∃ front rest, spelling front value ∧ bytes = front ++ rest := by
  unfold deserialize
  cases run : record.run bytes with
  | error error =>
    refine iff_of_false (by simp [Except.map]) ?_
    rintro ⟨front, rest, spelled, split⟩
    have success := (spells bytes value rest).mpr ⟨front, spelled, split⟩
    simp [run] at success
  | ok read =>
    obtain ⟨found, rest⟩ := read
    simp only [Except.map, Except.ok.injEq]
    constructor
    · rintro rfl
      obtain ⟨front, spelled, split⟩ := (spells bytes found rest).mp run
      exact ⟨front, rest, spelled, split⟩
    · rintro ⟨front, other, spelled, split⟩
      have success := (spells bytes value other).mpr ⟨front, spelled, split⟩
      rw [run] at success
      simpa using congrArg Prod.fst (Except.ok.inj success)

end Graced.Borsh
