import PeriodSheet.NumberFormat
import PeriodSheet.Proofs.Decimal.Arithmetic
import PeriodSheet.Proofs.Decimal.Spellings

/-!
# Written numbers and number formats

Cells, totals and carried values are texts that are read again.  A format writes a number in two
ways, and with a comma or a point for its mark both are read as what was rounded: the plain way
digit by digit (`ofEntered?_formatPlain`), the other one with more fraction zeros at the end
(`exists_ofEntered?_format`).  Zeros at the end do not change what is written next
(`toFixedChars_of_extends`), so the two directions together make `reads_back`.  Nor do they change
what is rounded (`exists_extends_roundTo`): numbers of one value are written alike (`format_congr`).
-/

namespace PeriodSheet.NumberFormat

open PeriodSheet.Text Decimal

theorem map_textOf {format : NumberFormat} {negative : Bool} {whole fraction : List Char}
    (hwhole : ∀ c ∈ whole, c.isDigit = true) (hfraction : ∀ c ∈ fraction, c.isDigit = true) :
    (textOf negative whole fraction).map (fun c => if c = '.' then format.separator else c) =
      (if negative then ['-'] else []) ++ whole ++
        if fraction.isEmpty then [] else format.separator :: fraction := by
  have hkeep : ∀ {cs : List Char}, (∀ c ∈ cs, c.isDigit = true) →
      cs.map (fun c => if c = '.' then format.separator else c) = cs := by
    intro cs hcs
    refine map_mark_of_ne ?_
    rintro c hc rfl
    exact absurd (hcs _ hc) (by decide)
  unfold textOf
  rw [List.map_append, List.map_append, hkeep hwhole]
  congr 1
  · cases negative <;> rfl
  · split
    · rfl
    · rw [List.map_cons, hkeep hfraction, if_pos rfl]

/-- **A number that is written with a comma or a point is read as it stands.** -/
theorem ofEntered?_withSeparator {format : NumberFormat} (hmark : isMark format.separator = true)
    (negative : Bool) {whole fraction : List Char} (hne : whole ≠ [])
    (hwhole : ∀ c ∈ whole, c.isDigit = true) (hfraction : ∀ c ∈ fraction, c.isDigit = true) :
    ofEntered? (format.withSeparator (textOf negative whole fraction)) =
      ofChars? (textOf negative whole fraction) := by
  rw [withSeparator, map_textOf hwhole hfraction]
  exact ofEntered?_written hmark negative hne hwhole hfraction

/-! ### Rounding to the format -/

theorem scale_round_le (format : NumberFormat) (d : Decimal) :
    (format.round d).scale ≤ format.fractionDigits := by
  have hrounded : (d.roundTo format.fractionDigits).scale ≤ format.fractionDigits := by
    unfold roundTo
    split
    · assumption
    · exact Nat.le_refl _
  unfold round
  dsimp only
  split
  · exact Nat.zero_le _
  · exact hrounded

theorem round_eq_zero_of_isZero {format : NumberFormat} {d : Decimal}
    (h : (format.round d).isZero = true) : format.round d = .zero := by
  unfold round at h ⊢
  dsimp only at h ⊢
  split at h
  · rename_i hzero
    rw [if_pos hzero]
  · contradiction

/-- A number with no more fraction digits than the format has is not rounded; a zero loses its
sign. -/
theorem round_of_scale_le {format : NumberFormat} {d : Decimal}
    (h : d.scale ≤ format.fractionDigits) :
    format.round d = if d.isZero then .zero else d := by
  rw [round, roundTo, dif_pos h]

/-- Rounding what was rounded changes nothing. -/
theorem round_round (format : NumberFormat) (d : Decimal) :
    format.round (format.round d) = format.round d := by
  rw [round_of_scale_le (format.scale_round_le d)]
  split
  · rename_i hzero
    exact (round_eq_zero_of_isZero hzero).symm
  · rfl

/-! ### All fraction digits -/

theorem toFixedChars_of_scale_le {digits : Nat} {d : Decimal} (h : d.scale ≤ digits) :
    d.toFixedChars digits = textOf d.negative d.wholeDigits
      (d.fractionDigits ++ List.replicate (digits - d.scale) '0') := by
  have htake : d.fractionDigits.take digits = d.fractionDigits :=
    List.take_of_length_le (d.length_fractionDigits ▸ h)
  rw [toFixedChars, htake, List.rightpad, length_fractionDigits]

/-- Fraction zeros at the end stand at the end of the digits. -/
theorem digits_of_extends {short long : Decimal} {zeros : Nat} (h : short.Extends long zeros)
    (hne : short.coefficient ≠ 0) :
    long.wholeDigits = short.wholeDigits ∧
      long.fractionDigits = short.fractionDigits ++ List.replicate zeros '0' := by
  have hdigits : paddedDigits (long.scale + 1) long.coefficient =
      paddedDigits (short.scale + 1) short.coefficient ++ List.replicate zeros '0' := by
    rw [h.coefficient, h.scale, Nat.add_right_comm, paddedDigits_mul_tenPow hne]
  have hwidth := le_length_paddedDigits (short.scale + 1) short.coefficient
  -- the point stands at the same place
  have hplace : (paddedDigits (short.scale + 1) short.coefficient ++
      List.replicate zeros '0').length - long.scale =
        (paddedDigits (short.scale + 1) short.coefficient).length - short.scale := by
    rw [List.length_append, List.length_replicate, h.scale]
    omega
  constructor
  · rw [wholeDigits, wholeDigits, hdigits, hplace, List.take_append_of_le_length (by omega)]
  · rw [Decimal.fractionDigits, Decimal.fractionDigits, hdigits, hplace,
      List.drop_append_of_le_length (by omega)]

theorem toFixedChars_of_extends {short long : Decimal} {zeros digits : Nat}
    (h : short.Extends long zeros) (hne : short.coefficient ≠ 0) (hle : long.scale ≤ digits) :
    long.toFixedChars digits = short.toFixedChars digits := by
  have hscale := h.scale
  obtain ⟨hwhole, hfraction⟩ := digits_of_extends h hne
  have hzeros : zeros + (digits - long.scale) = digits - short.scale := by omega
  rw [toFixedChars_of_scale_le hle, toFixedChars_of_scale_le (by omega), h.negative hne, hwhole,
    hfraction, List.append_assoc, List.replicate_append_replicate, hzeros]

/-- What is read from a number with all fraction digits. -/
theorem exists_ofEntered?_format {format : NumberFormat} (hmark : isMark format.separator = true)
    (d : Decimal) :
    ∃ r zeros, ofEntered? (format.format d) = some r ∧ (format.round d).Extends r zeros ∧
      r.scale ≤ format.fractionDigits ∧ (r.isZero = true → r.negative = false) := by
  have hscale := format.scale_round_le d
  obtain ⟨r, read, hle, hread, hextends, hsign⟩ :=
    (format.round d).exists_ofChars?_textOf (format.fractionDigits - (format.round d).scale)
  refine ⟨r, read, ?_, hextends, ?_, hsign⟩
  · rw [NumberFormat.format, toFixedChars_of_scale_le hscale, ofEntered?_withSeparator hmark _
      (wholeDigits_ne_nil _) (fun c h => isDigit_of_mem (List.mem_append_left _ h))]
    · exact hread
    · intro c hc
      rcases List.mem_append.1 hc with hc | hc
      · exact isDigit_of_mem (List.mem_append_right _ hc)
      · rw [List.eq_of_mem_replicate hc]
        rfl
  · rw [hextends.scale]
    omega

/-! ### Equal values -/

/-- Fraction zeros do not change what a number is rounded to. -/
theorem exists_extends_roundTo {short long : Decimal} {zeros : Nat} (h : short.Extends long zeros)
    (digits : Nat) : ∃ more, (short.roundTo digits).Extends (long.roundTo digits) more := by
  have hscale := h.scale
  have hpow : ∀ n, 0 < tenPow n := fun n => Nat.pow_pos (by decide)
  by_cases hlong : long.scale ≤ digits
  · have hshort : short.scale ≤ digits := by omega
    rw [roundTo, roundTo, dif_pos hlong, dif_pos hshort]
    exact ⟨zeros, h⟩
  · by_cases hshort : short.scale ≤ digits
    · -- what is rounded off are zeros
      rw [roundTo, roundTo, dif_neg hlong, dif_pos hshort]
      refine ⟨digits - short.scale, ?_, ?_, h.negative⟩
      · have hzeros : zeros = digits - short.scale + (long.scale - digits) := by omega
        show roundDiv .awayFromZero long.coefficient _ = _
        rw [h.coefficient, hzeros, tenPow_add, ← Nat.mul_assoc, roundDiv_mul _ _ (hpow _)]
      · exact (Nat.add_sub_cancel' hshort).symm
    · rw [roundTo, roundTo, dif_neg hlong, dif_neg hshort]
      refine ⟨0, ?_, rfl, fun hne => h.negative fun hzero => hne ?_⟩
      · have hdigits : long.scale - digits = short.scale - digits + zeros := by omega
        show roundDiv .awayFromZero long.coefficient (tenPow (long.scale - digits)) =
          roundDiv .awayFromZero short.coefficient (tenPow (short.scale - digits)) * tenPow 0
        rw [h.coefficient, hdigits, tenPow_add, roundDiv_mul_right _ _ _ (hpow _),
          show tenPow 0 = 1 from rfl, Nat.mul_one]
      · show roundDiv .awayFromZero short.coefficient _ = 0
        rw [hzero, roundDiv_zero _ (hpow _)]

theorem format_of_extends (format : NumberFormat) {short long : Decimal} {zeros : Nat}
    (h : short.Extends long zeros) : format.format long = format.format short := by
  obtain ⟨more, hmore⟩ := exists_extends_roundTo h format.fractionDigits
  have hiff : (long.roundTo format.fractionDigits).isZero =
      (short.roundTo format.fractionDigits).isZero := by
    rw [Bool.eq_iff_iff, ← value_eq_zero_iff, ← value_eq_zero_iff, hmore.value_eq]
  have hle := format.scale_round_le long
  rw [NumberFormat.format, NumberFormat.format]
  unfold round at hle ⊢
  dsimp only at hle ⊢
  rw [hiff] at hle ⊢
  split
  · rfl
  · rename_i hzero
    rw [if_neg hzero] at hle
    rw [toFixedChars_of_extends hmore (by simpa [isZero] using hzero) hle]

/-- **What is written depends on the value of a number alone.** -/
theorem format_congr (format : NumberFormat) {a b : Decimal} (h : a.value = b.value) :
    format.format a = format.format b := by
  rcases Nat.le_total a.scale b.scale with hle | hle
  · exact (format.format_of_extends (extends_of_value_eq h hle)).symm
  · exact format.format_of_extends (extends_of_value_eq h.symm hle)

/-! ### As few fraction digits as possible -/

/-- **A plain number reads back as what was rounded, without fraction zeros at the end.** -/
theorem ofEntered?_formatPlain {format : NumberFormat} (hmark : isMark format.separator = true)
    (d : Decimal) : ofEntered? (format.formatPlain d) = some (format.round d).normalize := by
  obtain ⟨r, read, hle, hread, hextends, hsign⟩ :=
    (format.round d).normalize.exists_ofChars?_textOf 0
  obtain rfl : read = 0 := Nat.le_zero.1 hle
  have hself : r = (format.round d).normalize :=
    hextends.eq_of_sign hsign fun h => by
      rw [normalize_of_isZero ((isZero_normalize _).1 h)]
      rfl
  rw [List.replicate_zero, List.append_nil] at hread
  rw [formatPlain, toChars, ofEntered?_withSeparator hmark _ (wholeDigits_ne_nil _)
    (fun c h => isDigit_of_mem (List.mem_append_left _ h))
    (fun c h => isDigit_of_mem (List.mem_append_right _ h)), hread, hself]

/-! ### Both ways of writing -/

/-- **Written numbers read back exactly.**  With a comma or a point for the mark, what is read from
a number that was written, in either way, has the value that was rounded to, and is written the same
way again. -/
theorem reads_back (format : NumberFormat)
    (hmark : format.separator = ',' ∨ format.separator = '.') (d : Decimal) :
    (∃ r, ofEntered? (format.format d) = some r ∧ r.value = (format.round d).value ∧
      format.format r = format.format d) ∧
    ∃ r, ofEntered? (format.formatPlain d) = some r ∧ r.value = (format.round d).value ∧
      format.formatPlain r = format.formatPlain d := by
  have hmark' : isMark format.separator = true := isMark_iff.2 hmark
  constructor
  · obtain ⟨r, zeros, hread, hextends, hscale, hsign⟩ := exists_ofEntered?_format hmark' d
    refine ⟨r, hread, hextends.value_eq, ?_⟩
    rw [NumberFormat.format, NumberFormat.format, round_of_scale_le hscale]
    by_cases hzero : (format.round d).coefficient = 0
    · -- a zero is written as the zero without fraction digits
      have hround : format.round d = .zero := round_eq_zero_of_isZero (by simp [isZero, hzero])
      have hr : r.isZero = true := by simp [isZero, hextends.coefficient, hzero]
      rw [if_pos hr, hround]
    · have hne : r.coefficient ≠ 0 := by
        rw [hextends.coefficient]
        exact Nat.mul_ne_zero hzero (Nat.pow_pos (by decide)).ne'
      have hr : r.isZero = false := by simpa [isZero] using hne
      rw [hr, if_neg (by decide), toFixedChars_of_extends hextends hzero hscale]
  · refine ⟨(format.round d).normalize, ofEntered?_formatPlain hmark' d, value_normalize _, ?_⟩
    have hscale : (format.round d).normalize.scale ≤ format.fractionDigits :=
      Nat.le_trans (scale_normalize_le _) (format.scale_round_le d)
    rw [formatPlain, formatPlain, round_of_scale_le hscale]
    split
    · rename_i hzero
      rw [normalize_of_isZero ((isZero_normalize _).1 hzero)]
      rfl
    · rw [normalize_normalize]

/-- The number of the largest coefficient, below zero, loses the last of its 28 fraction digits. -/
theorem reads_back_largest_coefficient :
    let format : NumberFormat := ⟨',', 27⟩
    let d : Decimal := ⟨true, limit - 1, 28, by decide, by decide⟩
    (format.separator = ',' ∨ format.separator = '.') ∧
      format.format d = "-7,922816251426433759354395034" ∧
      (∃ r, ofEntered? (format.format d) = some r ∧ r.value = (format.round d).value ∧
        format.format r = format.format d) ∧
      ∃ r, ofEntered? (format.formatPlain d) = some r ∧ r.value = (format.round d).value ∧
        format.formatPlain r = format.formatPlain d :=
  ⟨.inl rfl, by decide +kernel, reads_back _ (.inl rfl) _⟩

end PeriodSheet.NumberFormat
