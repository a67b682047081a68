import Mathlib.Data.List.TakeWhile
import PeriodSheet.Calendar
import PeriodSheet.Proofs.Decimal.Reading

/-!
# Written dates read back

A date is written with a month and a day of two digits each, and with a year of four digits unless
it needs a sign or more of them, when it is read with its sign up to the dash.  Stored data and
users write dates alike, and both are read back.
-/

namespace PeriodSheet

namespace Text

theorem length_digits_le {width n : Nat} (hwidth : 0 < width) (h : n < tenPow width) :
    (digits n).length ≤ width := by
  induction width generalizing n with
  | zero => exact absurd hwidth (Nat.lt_irrefl 0)
  | succ width ih =>
    unfold digits
    split
    · exact Nat.le_add_left 1 width
    · have hwidth : 0 < width := by
        rcases Nat.eq_zero_or_pos width with rfl | hpos
        · exact absurd h (by omega)
        · exact hpos
      have hshorter : n / 10 < tenPow width := by
        rw [Decimal.tenPow_succ] at h
        omega
      rw [List.length_append]
      exact Nat.succ_le_succ (ih hwidth hshorter)

/-- A number that has room in its width fills it. -/
theorem length_paddedDigits {width n : Nat} (hwidth : 0 < width) (h : n < tenPow width) :
    (paddedDigits width n).length = width := by
  have hle := length_digits_le hwidth h
  simp only [paddedDigits, List.leftpad, List.length_append, List.length_replicate]
  omega

theorem ofDigits_paddedDigits (width n : Nat) : ofDigits (paddedDigits width n) = n :=
  readOn_paddedDigits width n

theorem paddedDigits_ne_nil (width n : Nat) : paddedDigits width n ≠ [] :=
  List.append_ne_nil_of_right_ne_nil _ (digits_ne_nil n)

end Text

namespace Date

open Text

theorem skipBlank_of_head {c : Char} (h : isBlank c = false) (rest : List Char) :
    skipBlank (c :: rest) = c :: rest :=
  List.dropWhile_cons_of_neg (by simp [h])

theorem skipBlank_append {ds : List Char} (hne : ds ≠ []) (hdigits : ∀ c ∈ ds, c.isDigit = true)
    (rest : List Char) : skipBlank (ds ++ rest) = ds ++ rest := by
  cases ds with
  | nil => exact absurd rfl hne
  | cons c ds => exact skipBlank_of_head (isBlank_of_isDigit (hdigits c List.mem_cons_self)) _

/-- As many digits as there is room for are all read. -/
theorem readNumber_paddedDigits {width n : Nat} (hwidth : 0 < width) (h : n < tenPow width)
    (rest : List Char) : readNumber width (paddedDigits width n ++ rest) = some (n, rest) := by
  have hdigits : ∀ c ∈ paddedDigits width n, c.isDigit = true := fun c =>
    isDigit_of_mem_paddedDigits
  have hlength := length_paddedDigits hwidth h
  have htake : (paddedDigits width n ++ rest).take width = paddedDigits width n :=
    List.take_left' hlength
  have hall : (paddedDigits width n).takeWhile Char.isDigit = paddedDigits width n :=
    List.takeWhile_eq_self_iff.2 hdigits
  unfold readNumber
  dsimp only
  rw [skipBlank_append (paddedDigits_ne_nil width n) hdigits, htake, hall,
    List.drop_left, ofDigits_paddedDigits, if_neg]
  rw [List.isEmpty_iff]
  exact paddedDigits_ne_nil width n

/-- Digits are read up to the dash after them. -/
theorem readDigits_paddedDigits (width n : Nat) (rest : List Char) :
    readDigits (paddedDigits width n ++ '-' :: rest) = some (n, '-' :: rest) := by
  have hdigits : ∀ c ∈ paddedDigits width n, c.isDigit = true := fun c =>
    isDigit_of_mem_paddedDigits
  have hall : (paddedDigits width n ++ '-' :: rest).takeWhile Char.isDigit =
      paddedDigits width n := by
    rw [List.takeWhile_append_of_pos hdigits]
    exact List.append_nil _
  unfold readDigits
  dsimp only
  rw [hall, List.drop_left, ofDigits_paddedDigits, if_neg]
  rw [List.isEmpty_iff]
  exact paddedDigits_ne_nil width n

/-- A year that begins with a digit has four of them. -/
theorem readYear_of_isDigit {c : Char} (h : c.isDigit = true) (rest : List Char) :
    readYear (c :: rest) = (readNumber 4 (c :: rest)).map fun (n, rest) => ((n : Int), rest) := by
  unfold readYear
  rw [skipBlank_of_head (isBlank_of_isDigit h)]
  split
  · rename_i heq
    obtain rfl := (List.cons.inj heq).1
    exact absurd h (by decide)
  · rename_i heq
    obtain rfl := (List.cons.inj heq).1
    exact absurd h (by decide)
  · rfl

theorem readYear_yearChars (year : Int) (rest : List Char) :
    readYear (yearChars year ++ '-' :: rest) = some (year, '-' :: rest) := by
  unfold yearChars
  split
  · -- four digits without a sign
    rename_i h
    have hroom : year.natAbs < tenPow 4 := by
      show year.natAbs < 10000
      omega
    have hread := readNumber_paddedDigits (by decide) hroom ('-' :: rest)
    obtain ⟨c, ds, hds⟩ := List.exists_cons_of_ne_nil (paddedDigits_ne_nil 4 year.natAbs)
    have hc : c.isDigit = true := isDigit_of_mem_paddedDigits (hds ▸ List.mem_cons_self)
    rw [hds, List.cons_append] at hread ⊢
    rw [readYear_of_isDigit hc, hread]
    show some ((year.natAbs : Int), '-' :: rest) = _
    rw [show (year.natAbs : Int) = year by omega]
  · have hread := readDigits_paddedDigits 4 year.natAbs rest
    split
    · show (readDigits (paddedDigits 4 year.natAbs ++ '-' :: rest)).map _ = _
      rw [hread]
      show some (-(year.natAbs : Int), '-' :: rest) = _
      rw [show -(year.natAbs : Int) = year by omega]
    · show (readDigits (paddedDigits 4 year.natAbs ++ '-' :: rest)).map _ = _
      rw [hread]
      show some ((year.natAbs : Int), '-' :: rest) = _
      rw [show (year.natAbs : Int) = year by omega]

/-- A written date is read year first, whatever gaps are allowed around its dashes. -/
theorem readYearFirst_toChars {gap : List Char → List Char}
    (hdash : ∀ rest, gap ('-' :: rest) = '-' :: rest) (hend : gap [] = []) (date : Date) :
    readYearFirst gap date.toChars = some date := by
  obtain ⟨year, month, day, hdate⟩ := date
  have hmonth : month < tenPow 2 := by
    have := hdate.2.1.2
    show month < 100
    omega
  have hday : day < tenPow 2 := by
    have hle := hdate.2.2.2
    have hmost : daysInMonth year month ≤ 31 := by
      unfold daysInMonth
      split
      · split <;> decide
      · split <;> decide
    show day < 100
    omega
  have hlast := readNumber_paddedDigits (by decide) hday []
  rw [List.append_nil] at hlast
  simp only [toChars, readYearFirst, List.append_assoc, List.cons_append, readYear_yearChars, hdash,
    readChar, if_true, readNumber_paddedDigits (show 0 < 2 by decide) hmonth, hlast, hend,
    Option.bind_eq_bind, Option.bind_some]
  rw [of?, dif_pos hdate]
  rfl

/-- **Written dates read back**, as stored data and as users enter them. -/
theorem ofStored?_toText (date : Date) : ofStored? date.toText = some date := by
  rw [ofStored?, toText, String.toList_ofList]
  exact readYearFirst_toChars (skipBlank_of_head (by decide)) rfl date

theorem ofEntered?_toText (date : Date) : ofEntered? date.toText = some date := by
  rw [ofEntered?, toText, String.toList_ofList, readYearFirst_toChars (fun _ => rfl) rfl]
  rfl

/-- The text of a date begins with a sign or a digit, and ends with a digit. -/
theorem isTrimmed_toText (date : Date) : IsTrimmed date.toText := by
  obtain ⟨first, hhead, hfirst⟩ : ∃ c, date.toChars.head? = some c ∧ isBlank c = false := by
    have hpadded : ∀ n : Nat, ∃ c rest, paddedDigits 4 n = c :: rest ∧ isBlank c = false := by
      intro n
      obtain ⟨c, rest, hdigits⟩ := List.exists_cons_of_ne_nil (paddedDigits_ne_nil 4 n)
      have hc : c.isDigit = true := isDigit_of_mem_paddedDigits (hdigits ▸ List.mem_cons_self)
      exact ⟨c, rest, hdigits, isBlank_of_isDigit hc⟩
    rw [toChars, yearChars]
    split
    · obtain ⟨c, rest, hdigits, hc⟩ := hpadded date.year.natAbs
      exact ⟨c, by rw [hdigits]; rfl, hc⟩
    · split
      · exact ⟨'-', rfl, by decide⟩
      · exact ⟨'+', rfl, by decide⟩
  obtain ⟨front, last, hday⟩ := (List.eq_nil_or_concat (paddedDigits 2 date.day)).resolve_left
    (paddedDigits_ne_nil 2 date.day)
  have hmem : last ∈ paddedDigits 2 date.day := by simp [hday]
  have hlast : last.isDigit = true := isDigit_of_mem_paddedDigits hmem
  have hends : date.toChars =
      yearChars date.year ++ '-' :: paddedDigits 2 date.month ++ '-' :: front ++ [last] := by
    simp [toChars, hday]
  exact isTrimmed_ofList hhead (by rw [hends, List.getLast?_concat]) hfirst
    (isBlank_of_isDigit hlast)

end Date

end PeriodSheet
