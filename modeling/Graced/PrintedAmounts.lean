import Graced.DecimalText
import Graced.MachineInt

/-!
# How amounts are printed

A raw amount is printed adjusted by the decimals of its mint: the whole part in groups, the
rest padded with zeros to the number of decimals and then stripped of zeros at the end. What
is printed denotes the amount exactly, so no two amounts look the same.
-/

namespace Graced

/-- The loop of `commas`, over the digits from the last on. -/
def insertCommas : Nat → List Char → List Char
  | _, [] => []
  | i, c :: rest => (if i ≠ 0 ∧ i % 3 = 0 then [',', c] else [c]) ++ insertCommas (i + 1) rest

/-- `commas` -/
def commas (n : UInt64) : String :=
  String.ofList (insertCommas 0 (toString n.toNat).toList.reverse).reverse

/-- `format_amount` -/
def formatAmount (raw : UInt64) (decimals : UInt8) : String :=
  if decimals = 0 then commas raw
  else
    match checkedPow64 10 decimals.toNat with
    | none => commas raw
    | some divisor =>
      let whole := raw / divisor
      let frac := raw % divisor
      let fracStr := ((toString frac.toNat).toList.leftpad decimals.toNat '0').rdropWhile (· = '0')
      if fracStr.isEmpty then commas whole else commas whole ++ "." ++ String.ofList fracStr

namespace PrintedAmounts

open DecimalText Numerals

/-- The text of an amount: grouped digits, at most so many decimals with no zero at their end,
and the value of the amount once the commas are taken out. -/
structure ExactlyPrinted (raw : UInt64) (decimals : Nat) (text : String) : Prop where
  shape : ∃ whole fraction, text.toList = whole ++ (if fraction = [] then [] else '.' :: fraction) ∧
    Grouped whole ∧ (∀ c ∈ fraction, c.isDigit) ∧ fraction.length ≤ decimals ∧
    fraction.getLast? ≠ some '0'
  exact : value (text.toList.filter (· ≠ ',')) = some ((raw.toNat : ℚ) / 10 ^ decimals)

/-! ## Groups -/

/-- Three digits on, commas stand where they stood. -/
theorem insertCommas_shift (i : Nat) (positive : 0 < i) (text : List Char) :
    insertCommas (i + 3) text = insertCommas i text := by
  induction text generalizing i with
  | nil => rfl
  | cons c rest inductionHypothesis =>
    have same : (i + 3 ≠ 0 ∧ (i + 3) % 3 = 0) ↔ (i ≠ 0 ∧ i % 3 = 0) := by omega
    rw [insertCommas, insertCommas, Nat.add_right_comm i 3 1,
      inductionHypothesis (i + 1) (Nat.succ_pos i)]
    simp only [same]

/-- After three digits comes a comma, and the count may start over. -/
theorem insertCommas_three (c : Char) (rest : List Char) :
    insertCommas 3 (c :: rest) = ',' :: insertCommas 0 (c :: rest) := by
  rw [insertCommas, insertCommas, insertCommas_shift 1 Nat.one_pos rest]
  rfl

/-- Digits get a comma before every third from the right. -/
theorem grouped_insertCommas (text : List Char) (nonempty : text ≠ [])
    (decimal : ∀ c ∈ text, c.isDigit) : Grouped (insertCommas 0 text).reverse := by
  induction length : text.length using Nat.strong_induction_on generalizing text with
  | _ length inductionHypothesis =>
  have alone : ∀ group : List Char, group ≠ [] → group.length ≤ 3 →
      (∀ c ∈ group, c.isDigit) → Grouped group.reverse := by
    intro group filled few digits
    refine ⟨group.reverse, [], by simp, ?_, by simpa using few, by simpa using digits, by simp⟩
    rw [List.length_reverse]
    exact List.length_pos_iff.mpr filled
  match text with
  | [] => exact absurd rfl nonempty
  | [a] => exact alone [a] nonempty (by simp) decimal
  | [a, b] => exact alone [a, b] nonempty (by simp) decimal
  | [a, b, c] => exact alone [a, b, c] nonempty (by simp) decimal
  | a :: b :: c :: d :: rest =>
    have digits : ∀ x ∈ [c, b, a], x.isDigit := by
      intro x member
      simp only [List.mem_cons, List.not_mem_nil, or_false] at member
      rcases member with rfl | rfl | rfl <;> exact decimal _ (by simp)
    obtain ⟨first, groups, split, filled, few, firstDigits, others⟩ :=
      inductionHypothesis (d :: rest).length (by simp only [List.length_cons] at length ⊢; omega)
        (d :: rest) (by simp) (fun x member => decimal x (by simp_all)) rfl
    have rejoined : insertCommas 0 (a :: b :: c :: d :: rest) =
        a :: b :: c :: ',' :: insertCommas 0 (d :: rest) := by
      rw [← insertCommas_three]
      rfl
    refine ⟨first, groups ++ [[c, b, a]], ?_, filled, few, firstDigits, ?_⟩
    · rw [rejoined]
      simp [split]
    · intro group member
      rcases List.mem_append.mp member with earlier | last
      · exact others group earlier
      · obtain rfl := List.mem_singleton.mp last
        exact ⟨rfl, digits⟩

/-- Without the commas the digits are as before. -/
theorem filter_insertCommas (i : Nat) (text : List Char) (decimal : ∀ c ∈ text, c.isDigit) :
    (insertCommas i text).filter (· ≠ ',') = text := by
  induction text generalizing i with
  | nil => rfl
  | cons c rest inductionHypothesis =>
    have kept := (ne_mark c (decimal c List.mem_cons_self)).1
    have later := inductionHypothesis (i + 1) fun x member =>
      decimal x (List.mem_cons_of_mem c member)
    rw [insertCommas, List.filter_append, later]
    split <;> simp [kept]

/-- A grouped number. -/
theorem commas_grouped (n : UInt64) : Grouped (commas n).toList := by
  rw [commas, String.toList_ofList, Nat.toString_eq_repr, Nat.toList_repr]
  exact grouped_insertCommas _ (by simp)
    fun c member => toDigits_isDigit n.toNat c (List.mem_reverse.mp member)

theorem commas_filter (n : UInt64) :
    (commas n).toList.filter (· ≠ ',') = Nat.toDigits 10 n.toNat := by
  rw [commas, String.toList_ofList, Nat.toString_eq_repr, Nat.toList_repr, List.filter_reverse,
    filter_insertCommas _ _ fun c member => toDigits_isDigit n.toNat c (List.mem_reverse.mp member),
    List.reverse_reverse]

/-! ## Amounts -/

/-- Whole amounts are printed exactly. -/
theorem commas_exact (n : UInt64) (decimals : Nat) (raw : UInt64)
    (whole : raw.toNat = n.toNat * 10 ^ decimals) : ExactlyPrinted raw decimals (commas n) := by
  refine ⟨⟨(commas n).toList, [], by simp, commas_grouped n, by simp, by simp, by simp⟩, ?_⟩
  rw [commas_filter, value_whole _ Nat.toDigits_ne_nil (toDigits_isDigit n.toNat),
    Nat.ofDigitChars_ten_toDigits, whole]
  refine congrArg some ?_
  push_cast
  field_simp

/-- The places of a fraction: as many as there are decimals. -/
theorem length_leftpad_toDigits (frac decimals : Nat) (positive : 0 < decimals)
    (small : frac < 10 ^ decimals) :
    ((Nat.toDigits 10 frac).leftpad decimals '0').length = decimals := by
  have few := (Nat.length_toDigits_le_iff (b := 10) (by decide) positive).mpr small
  rw [List.leftpad, List.length_append, List.length_replicate]
  omega

/-- A fraction is printed exactly, and without zeros at its end. -/
theorem fraction_exact (whole frac raw : UInt64) (decimals : Nat) (positive : 0 < decimals)
    (small : frac.toNat < 10 ^ decimals)
    (amount : raw.toNat = whole.toNat * 10 ^ decimals + frac.toNat)
    (places : ((Nat.toDigits 10 frac.toNat).leftpad decimals '0').rdropWhile (· = '0') ≠ []) :
    ExactlyPrinted raw decimals (commas whole ++ "." ++ String.ofList
      (((Nat.toDigits 10 frac.toNat).leftpad decimals '0').rdropWhile (· = '0'))) := by
  have spelled := ofDigitChars_rdropWhile ((Nat.toDigits 10 frac.toNat).leftpad decimals '0')
  rw [ofDigitChars_leftpad, Nat.ofDigitChars_ten_toDigits,
    length_leftpad_toDigits frac.toNat decimals positive small] at spelled
  have shorter := (List.rdropWhile_prefix (fun c => decide (c = '0'))
    ((Nat.toDigits 10 frac.toNat).leftpad decimals '0')).length_le
  rw [length_leftpad_toDigits frac.toNat decimals positive small] at shorter
  have digits : ∀ c ∈ ((Nat.toDigits 10 frac.toNat).leftpad decimals '0').rdropWhile (· = '0'),
      c.isDigit := by
    intro c member
    rcases List.mem_append.mp ((List.rdropWhile_prefix _ _).subset member) with zero | digit
    · rw [List.eq_of_mem_replicate zero]
      rfl
    · exact toDigits_isDigit frac.toNat c digit
  have last := List.rdropWhile_last_not (fun c => decide (c = '0'))
    ((Nat.toDigits 10 frac.toNat).leftpad decimals '0') places
  generalize ((Nat.toDigits 10 frac.toNat).leftpad decimals '0').rdropWhile (· = '0') = fraction
    at places spelled shorter digits last ⊢
  have text : (commas whole ++ "." ++ String.ofList fraction).toList =
      (commas whole).toList ++ '.' :: fraction := by simp
  refine ⟨⟨(commas whole).toList, fraction, ?_, commas_grouped whole, digits, shorter, ?_⟩, ?_⟩
  · rw [text, if_neg places]
  · intro zero
    rw [List.getLast?_eq_some_getLast places] at zero
    exact last (decide_eq_true (Option.some.inj zero))
  · have kept : fraction.filter (· ≠ ',') = fraction :=
      List.filter_eq_self.mpr fun c member => decide_eq_true (ne_mark c (digits c member)).1
    rw [text, List.filter_append, commas_filter, List.filter_cons_of_pos (by decide), kept,
      value_fraction _ _ Nat.toDigits_ne_nil (toDigits_isDigit whole.toNat) places digits,
      Nat.ofDigitChars_ten_toDigits, amount, ← spelled]
    exact congrArg some (add_places whole.toNat _ _ _ shorter)

/-- An amount is printed exactly wherever the power of ten is representable. -/
theorem formatAmount_exact (raw : UInt64) (decimals : UInt8)
    (fits : 10 ^ decimals.toNat < 2 ^ 64) :
    ExactlyPrinted raw decimals.toNat (formatAmount raw decimals) := by
  unfold formatAmount
  split
  · rename_i zero
    subst zero
    exact commas_exact raw 0 raw (by simp)
  · rename_i nonzero
    have positive : 0 < decimals.toNat := by
      rw [Nat.pos_iff_ne_zero]
      intro zero
      exact nonzero (UInt8.toNat_inj.mp zero)
    have divisor : (UInt64.ofNat (10 ^ decimals.toNat)).toNat = 10 ^ decimals.toNat :=
      UInt64.toNat_ofNat_of_lt' fits
    have checked : checkedPow64 10 decimals.toNat = .some (.ofNat (10 ^ decimals.toNat)) :=
      if_pos fits
    simp only [checked, Nat.toString_eq_repr, Nat.toList_repr, List.isEmpty_iff]
    have small : (raw % UInt64.ofNat (10 ^ decimals.toNat)).toNat < 10 ^ decimals.toNat := by
      rw [UInt64.toNat_mod, divisor]
      exact Nat.mod_lt _ (Nat.pow_pos (by decide))
    have amount : raw.toNat = (raw / UInt64.ofNat (10 ^ decimals.toNat)).toNat *
        10 ^ decimals.toNat + (raw % UInt64.ofNat (10 ^ decimals.toNat)).toNat := by
      rw [UInt64.toNat_mod, UInt64.toNat_div, divisor, Nat.div_add_mod']
    split
    · rename_i noPlaces
      have spelled := ofDigitChars_rdropWhile ((Nat.toDigits 10
        (raw % UInt64.ofNat (10 ^ decimals.toNat)).toNat).leftpad decimals.toNat '0')
      rw [noPlaces, ofDigitChars_leftpad, Nat.ofDigitChars_ten_toDigits, Nat.ofDigitChars_nil,
        Nat.zero_mul] at spelled
      exact commas_exact _ _ raw (by rw [amount, ← spelled, Nat.add_zero])
    · rename_i places
      exact fraction_exact _ _ raw _ positive small amount places

/-- Amounts are printed exactly wherever the power of ten is representable, and no two look the
same. -/
theorem format_exact (decimals : UInt8) (fits : 10 ^ decimals.toNat < 2 ^ 64) :
    (∀ raw, ExactlyPrinted raw decimals.toNat (formatAmount raw decimals)) ∧
      Function.Injective (fun raw => formatAmount raw decimals) := by
  have printed : ∀ raw, ExactlyPrinted raw decimals.toNat (formatAmount raw decimals) :=
    fun raw => formatAmount_exact raw decimals fits
  refine ⟨printed, fun first second same => ?_⟩
  have values := (printed first).exact
  rw [show formatAmount first decimals = formatAmount second decimals from same,
    (printed second).exact] at values
  have equal := Option.some.inj values
  field_simp at equal
  exact UInt64.toNat_inj.mp (Nat.cast_injective equal).symm

/-- A printed amount is what it says. -/
theorem format_exact_of_cents : ExactlyPrinted 123456705 2 "1,234,567.05" := by
  have printed : formatAmount 123456705 2 = "1,234,567.05" := by decide
  rw [← printed]
  exact (format_exact 2 (by decide)).1 123456705

end PrintedAmounts

end Graced
