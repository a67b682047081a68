import PeriodSheet.Proofs.Calendar
import PeriodSheet.Proofs.Decimal.Spellings

/-!
# Values read back from their text

A value is written in one way, however it was typed: numbers without groups and with a point, dates
year first, truth values as words.  The same field reads that text as the same value again
(`Value.parse_toText`).

What the texts of a field can mean is told apart from reading them (`Field.Admits`): numbers of 64
bits, decimals whose zero has no sign, options that the field offers.  Whatever is read is of that
kind (`Value.admits_of_parse`), and whatever is of that kind is read back
(`Value.parse_toText_of_admits`).
-/

namespace PeriodSheet

open Text

namespace Text

theorem isBlankText_trim (s : String) : isBlankText (trim s) = isBlankText s := by
  have hfilter := Decimal.filter_trimChars s.toList
  rw [Bool.eq_iff_iff, isBlankText, isBlankText, trim, String.toList_ofList, List.all_eq_true,
    List.all_eq_true]
  have hiff : ∀ cs : List Char, (∀ c ∈ cs, isBlank c = true) ↔ cs.filter (!isBlank ·) = [] := by
    intro cs
    simp [List.filter_eq_nil_iff]
  rw [hiff, hiff, hfilter]

theorem isTrimmed_trim {s : String} (h : isBlankText s = false) : IsTrimmed (trim s) := by
  refine ⟨(isBlankText_trim s).trans h, ?_⟩
  rw [trim, trim, String.toList_ofList, trimChars_trimChars]

end Text

/-! ### Decimals and integers -/

namespace Decimal

/-- A zero that was entered has no sign. -/
theorem sign_of_ofEntered? {s : String} {d : Decimal} (h : ofEntered? s = some d)
    (hzero : d.isZero = true) : d.negative = false := by
  have hparts : ∃ negative coefficient scale, ofParts? negative coefficient scale = some d := by
    have hunsigned : ∀ {negative : Bool} {cs : List Char}, readUnsigned? negative cs = some d →
        ∃ negative coefficient scale, ofParts? negative coefficient scale = some d := by
      intro negative cs hread
      obtain ⟨⟨coefficient, scale⟩, -, hparts⟩ := Option.bind_eq_some_iff.1 hread
      exact ⟨negative, coefficient, scale, hparts⟩
    rw [ofEntered?, ofEnteredChars?] at h
    split at h
    · cases h
    · dsimp only at h
      split at h
      · unfold ofChars? at h
        split at h
        · exact hunsigned h
        · exact hunsigned h
        · exact hunsigned h
      · cases h
  obtain ⟨negative, coefficient, scale, hparts⟩ := hparts
  unfold ofParts? at hparts
  split at hparts
  · obtain rfl := Option.some.inj hparts
    have hcoefficient : coefficient = 0 := by simpa [isZero] using hzero
    simp [hcoefficient]
  · cases hparts

/-- **Written decimals read back**, with all their fraction zeros. -/
theorem ofEntered?_toText {d : Decimal} (hsign : d.isZero = true → d.negative = false) :
    ofEntered? d.toText = some d := by
  have hwhole : ∀ c ∈ d.wholeDigits, c.isDigit = true := fun c hc =>
    isDigit_of_mem (List.mem_append_left _ hc)
  have hfraction : ∀ c ∈ d.fractionDigits, c.isDigit = true := fun c hc =>
    isDigit_of_mem (List.mem_append_right _ hc)
  have hplain : ofEntered? d.toText = ofChars? d.toChars :=
    ofEntered?_written rfl d.negative d.wholeDigits_ne_nil hwhole hfraction
  obtain ⟨r, read, hle, hread, hextends, hzero⟩ := d.exists_ofChars?_textOf 0
  obtain rfl : read = 0 := Nat.le_zero.1 hle
  rw [List.replicate_zero, List.append_nil] at hread
  rw [hplain, toChars, hread, hextends.eq_of_sign hzero hsign]

theorem natAbs_lt_limit {n : Int} (h : -(twoPow 63 : Int) ≤ n ∧ n < twoPow 63) :
    n.natAbs < limit := by
  have hle : n.natAbs ≤ twoPow 63 := by omega
  have hlimit : twoPow 63 < limit := by decide
  exact Nat.lt_of_le_of_lt hle hlimit

/-- An integer of 64 bits as a decimal without fraction digits. -/
def ofInt64 (n : Int) (h : -(twoPow 63 : Int) ≤ n ∧ n < twoPow 63) : Decimal where
  negative := decide (n < 0)
  coefficient := n.natAbs
  scale := 0
  coefficient_lt := natAbs_lt_limit h
  scale_le := Nat.zero_le _

variable {n : Int} (h : -(twoPow 63 : Int) ≤ n ∧ n < twoPow 63)

/-- An integer is written like a decimal. -/
theorem toText_ofInt64 : (ofInt64 n h).toText = ofInt n := by
  have hfraction : (ofInt64 n h).fractionDigits = [] := by
    rw [← List.length_eq_zero_iff, length_fractionDigits]
    rfl
  have hwhole : (ofInt64 n h).wholeDigits = digits n.natAbs := by
    have hall := (ofInt64 n h).wholeDigits_append_fractionDigits
    have hwidth : 1 - (digits n.natAbs).length = 0 := by
      have hpos := List.length_pos_iff.2 (digits_ne_nil n.natAbs)
      omega
    rw [hfraction, List.append_nil] at hall
    rw [hall]
    show (digits n.natAbs).leftpad 1 '0' = _
    rw [List.leftpad, hwidth]
    rfl
  rw [toText, toChars, hwhole, hfraction, textOf]
  simp [ofInt64, ofInt]

theorem toInt64?_ofInt64 : (ofInt64 n h).toInt64? = some n := by
  refine toInt64?_eq_some.2 ⟨?_, h⟩
  have hsigned : (ofInt64 n h).signed = n := by
    simp only [signed, ofInt64, decide_eq_true_eq]
    split <;> omega
  rw [value, hsigned]
  simp [ofInt64, tenPow]

theorem ofEntered?_ofInt : ofEntered? (ofInt n) = some (ofInt64 n h) := by
  rw [← toText_ofInt64 h]
  refine ofEntered?_toText fun hzero => ?_
  have hn : n = 0 := by simpa [isZero, ofInt64] using hzero
  simp [ofInt64, hn]

end Decimal

/-! ### The values of a field -/

/-- The values that the texts of a field can mean. -/
inductive Field.Admits (field : Field) : Value → Prop
  | text {s : String} (htype : field.dataType = .text ∨ field.dataType = .longText)
    (hshown : isBlankText s = false) : Admits field (.text s)
  | option {s : String} (htype : field.dataType = .dropdown) (htrimmed : IsTrimmed s)
    (hoffered : field.options = [] ∨ s ∈ field.options) : Admits field (.text s)
  | number {n : Int} (htype : field.dataType = .number)
    (h : -(twoPow 63 : Int) ≤ n ∧ n < twoPow 63) : Admits field (.number n)
  | decimal {d : Decimal} (htype : field.dataType = .decimal)
    (hsign : d.isZero = true → d.negative = false) : Admits field (.decimal d)
  | date {d : Date} (htype : field.dataType = .date) : Admits field (.date d)
  | bool {b : Bool} (htype : field.dataType = .boolean) : Admits field (.bool b)

namespace Value

variable {field : Field} {raw : String} {value : Value}

theorem parse_eq_some_iff :
    parse field raw = .ok (some value) ↔
      isBlankText raw = false ∧ ofText field raw (trim raw) = .ok value := by
  unfold parse
  cases isBlankText raw with
  | true => simp
  | false => cases ofText field raw (trim raw) <;> simp [Except.map]

/-- **What is read is a value of the field.** -/
theorem admits_of_parse (h : parse field raw = .ok (some value)) : field.Admits value := by
  obtain ⟨hshown, hread⟩ := parse_eq_some_iff.1 h
  unfold ofText at hread
  cases htype : field.dataType with
  | text =>
    rw [htype] at hread
    obtain rfl := Except.ok.inj hread
    exact .text (.inl htype) hshown
  | longText =>
    rw [htype] at hread
    obtain rfl := Except.ok.inj hread
    exact .text (.inr htype) hshown
  | dropdown =>
    simp only [htype] at hread
    split at hread
    · cases hread
    · rename_i hoffered
      obtain rfl := Except.ok.inj hread
      refine .option htype (isTrimmed_trim hshown) (or_iff_not_imp_left.2 ?_)
      simpa using hoffered
  | number =>
    simp only [htype] at hread
    split at hread
    · cases hread
    · split at hread
      · cases hread
      · rename_i hwhole
        obtain rfl := Except.ok.inj hread
        exact .number htype (Decimal.toInt64?_eq_some.1 hwhole).2
  | decimal =>
    simp only [htype] at hread
    split at hread
    · cases hread
    · rename_i hdecimal
      obtain rfl := Except.ok.inj hread
      exact .decimal htype (Decimal.sign_of_ofEntered? hdecimal)
  | date =>
    simp only [htype] at hread
    split at hread
    · cases hread
    · obtain rfl := Except.ok.inj hread
      exact .date htype
  | boolean =>
    simp only [htype] at hread
    split at hread
    · cases hread
    · obtain rfl := Except.ok.inj hread
      exact .bool htype

theorem isTrimmed_ofInt {n : Int} (h : -(twoPow 63 : Int) ≤ n ∧ n < twoPow 63) :
    IsTrimmed (ofInt n) := by
  rw [← Decimal.toText_ofInt64 h]
  exact Decimal.isTrimmed_toText _

/-- **The values of a field are read from what is written for them.** -/
theorem parse_toText_of_admits (h : field.Admits value) :
    parse field value.toText = .ok (some value) := by
  rw [parse_eq_some_iff]
  cases h with
  | text htype hshown =>
    refine ⟨hshown, ?_⟩
    rcases htype with htype | htype
    · simp only [ofText, htype, toText]
    · simp only [ofText, htype, toText]
  | option htype htrimmed hoffered =>
    refine ⟨htrimmed.1, ?_⟩
    simp only [ofText, htype, toText, htrimmed.2]
    rw [if_neg]
    simpa using or_iff_not_imp_left.1 hoffered
  | number htype h =>
    refine ⟨(isTrimmed_ofInt h).1, ?_⟩
    simp only [ofText, htype, toText, (isTrimmed_ofInt h).2, Decimal.ofEntered?_ofInt h,
      Decimal.toInt64?_ofInt64 h]
  | @decimal d htype hsign =>
    refine ⟨d.isTrimmed_toText.1, ?_⟩
    simp only [ofText, htype, toText, d.isTrimmed_toText.2, Decimal.ofEntered?_toText hsign]
  | @date d htype =>
    refine ⟨d.isTrimmed_toText.1, ?_⟩
    simp only [ofText, htype, toText, d.isTrimmed_toText.2, d.ofEntered?_toText]
  | @bool b htype =>
    have hword : IsTrimmed (toText (.bool b)) := by cases b <;> decide
    have hread : boolOf? (toText (.bool b)) = some b := by cases b <;> decide
    refine ⟨hword.1, ?_⟩
    simp only [ofText, htype, hword.2, hread]

/-- **A value survives its own text.**  Whatever text a field reads as a value, it reads the text
that is written for that value as the same value; and the values of the field are all those that
some text is read as. -/
theorem parse_toText (field : Field) :
    (∀ raw value, parse field raw = .ok (some value) →
      parse field value.toText = .ok (some value)) ∧
    ∀ value, (∃ raw, parse field raw = .ok (some value)) ↔ field.Admits value := by
  refine ⟨fun raw value h => parse_toText_of_admits (admits_of_parse h), fun value => ?_⟩
  constructor
  · rintro ⟨raw, h⟩
    exact admits_of_parse h
  · intro h
    exact ⟨value.toText, parse_toText_of_admits h⟩

/-- A date of an early year, typed day first, is written year first, with four digits and a sign;
the least integer of 64 bits is written without its groups. -/
theorem parse_toText_early_and_least :
    let born : Field := .entered ⟨"Born", "born", by decide, by decide⟩ .date
    let shares : Field := .entered ⟨"Shares", "shares", by decide, by decide⟩ .number
    let early : Value := .date ⟨-44, 3, 15, by decide⟩
    let least : Value := .number (-9223372036854775808)
    (parse born " 15/3/-44 " = .ok (some early) ∧ early.toText = "-0044-03-15" ∧
      parse born "-0044-03-15" = .ok (some early)) ∧
    parse shares "-9.223.372.036.854.775.808,00" = .ok (some least) ∧
      least.toText = "-9223372036854775808" ∧
      parse shares "-9223372036854775808" = .ok (some least) := by
  intro born shares early least
  have hearly : parse born " 15/3/-44 " = .ok (some early) := by decide +kernel
  have hleast : parse shares "-9.223.372.036.854.775.808,00" = .ok (some least) := by
    decide +kernel
  have hearlyText : early.toText = "-0044-03-15" := by decide +kernel
  have hleastText : least.toText = "-9223372036854775808" := by decide +kernel
  refine ⟨⟨hearly, hearlyText, ?_⟩, hleast, hleastText, ?_⟩
  · rw [← hearlyText]
    exact (parse_toText born).1 " 15/3/-44 " early hearly
  · rw [← hleastText]
    exact (parse_toText shares).1 "-9.223.372.036.854.775.808,00" least hleast

end Value

end PeriodSheet
