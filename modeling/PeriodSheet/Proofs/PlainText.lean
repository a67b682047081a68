import PeriodSheet.NumberFormat

/-!
# The ends of a plain number

A number that is written as a user would type it begins with a minus sign or a digit and ends with
a digit, whatever character separates its fraction.  So it is never blank, and trimming it changes
nothing: a carried text is found again as it was written.
-/

namespace PeriodSheet

namespace Text

/-- A text that is not blank and has no white space at either end. -/
def IsTrimmed (s : String) : Prop :=
  isBlankText s = false ∧ trim s = s

instance (s : String) : Decidable (IsTrimmed s) :=
  inferInstanceAs (Decidable (_ ∧ _))

theorem isBlank_of_isDigit {c : Char} (h : c.isDigit = true) : isBlank c = false := by
  simp only [Char.isDigit, Bool.and_eq_true, decide_eq_true_eq, UInt32.le_iff_toNat_le] at h
  have hlow : 48 ≤ c.toNat := h.1
  have hhigh : c.toNat ≤ 57 := h.2
  simp only [isBlank, Bool.or_eq_false_iff, Bool.and_eq_false_iff, decide_eq_false_iff_not,
    beq_eq_false_iff_ne]
  omega

/-- A text may begin with a minus sign or a digit and is not trimmed there. -/
theorem isBlank_of_minus_or_digit {c : Char} (h : c = '-' ∨ c.isDigit = true) :
    isBlank c = false := by
  rcases h with rfl | h
  · decide
  · exact isBlank_of_isDigit h

/-- Characters whose first and last one are not white space are not changed by trimming. -/
theorem trimChars_eq_self {first last : Char} {cs : List Char} (hhead : cs.head? = some first)
    (hlast : cs.getLast? = some last) (hfirst : isBlank first = false)
    (hend : isBlank last = false) : trimChars cs = cs := by
  obtain ⟨rest, rfl⟩ : ∃ rest, cs = first :: rest := by
    cases cs with
    | nil => cases hhead
    | cons c rest => exact ⟨rest, by rw [Option.some.inj hhead]⟩
  obtain ⟨front, hfront⟩ : ∃ front, (first :: rest).reverse = last :: front := by
    rw [← List.head?_reverse] at hlast
    cases hrev : (first :: rest).reverse with
    | nil => rw [hrev] at hlast; cases hlast
    | cons c front => rw [hrev] at hlast; exact ⟨front, by rw [Option.some.inj hlast]⟩
  unfold trimChars
  rw [List.dropWhile_cons_of_neg (by simp [hfirst]), hfront,
    List.dropWhile_cons_of_neg (by simp [hend]), ← hfront, List.reverse_reverse]

theorem isTrimmed_ofList {first last : Char} {cs : List Char} (hhead : cs.head? = some first)
    (hlast : cs.getLast? = some last) (hfirst : isBlank first = false)
    (hend : isBlank last = false) : IsTrimmed (String.ofList cs) := by
  constructor
  · rw [isBlankText, String.toList_ofList, List.all_eq_false]
    exact ⟨first, List.mem_of_mem_head? hhead, by simp [hfirst]⟩
  · rw [trim, String.toList_ofList, trimChars_eq_self hhead hlast hfirst hend]

theorem le_length_paddedDigits (width n : Nat) : width ≤ (paddedDigits width n).length := by
  simp only [paddedDigits, List.leftpad, List.length_append, List.length_replicate]
  omega

theorem isDigit_of_mem_paddedDigits {width n : Nat} {c : Char} (h : c ∈ paddedDigits width n) :
    c.isDigit = true := by
  rcases List.mem_append.1 h with h | h
  · rw [List.eq_of_mem_replicate h]
    rfl
  · exact isDigit_of_mem_digits h

end Text

namespace Decimal

open PeriodSheet.Text

/-- The digits of a number stand before and after its point. -/
theorem wholeDigits_append_fractionDigits (d : Decimal) :
    d.wholeDigits ++ d.fractionDigits = paddedDigits (d.scale + 1) d.coefficient :=
  List.take_append_drop _ _

theorem wholeDigits_ne_nil (d : Decimal) : d.wholeDigits ≠ [] := by
  have hwidth := le_length_paddedDigits (d.scale + 1) d.coefficient
  rw [← List.length_pos_iff, wholeDigits, List.length_take]
  omega

theorem isDigit_of_mem {d : Decimal} {c : Char} (h : c ∈ d.wholeDigits ++ d.fractionDigits) :
    c.isDigit = true := by
  rw [wholeDigits_append_fractionDigits] at h
  exact isDigit_of_mem_paddedDigits h

/-- The text of a number begins with a minus sign or a digit. -/
theorem head?_toChars (d : Decimal) :
    ∃ c, d.toChars.head? = some c ∧ (c = '-' ∨ c.isDigit = true) := by
  cases hwhole : d.wholeDigits with
  | nil => exact absurd hwhole d.wholeDigits_ne_nil
  | cons c rest =>
    have hdigit : c.isDigit = true := isDigit_of_mem (d := d) (by simp [hwhole])
    cases hneg : d.negative with
    | true => exact ⟨'-', by simp [toChars, textOf, hneg], .inl rfl⟩
    | false => exact ⟨c, by simp [toChars, textOf, hneg, hwhole], .inr hdigit⟩

/-- The text of a number ends with a digit. -/
theorem getLast?_toChars (d : Decimal) :
    ∃ c, d.toChars.getLast? = some c ∧ c.isDigit = true := by
  -- the last digit is one after the point, or one before it where there is no point
  have hends : ∃ front c, d.toChars = front ++ [c] ∧ c ∈ d.wholeDigits ++ d.fractionDigits := by
    rcases List.eq_nil_or_concat d.fractionDigits with hfraction | ⟨front, c, hfraction⟩
    · rcases List.eq_nil_or_concat d.wholeDigits with hwhole | ⟨front, c, hwhole⟩
      · exact absurd hwhole d.wholeDigits_ne_nil
      · refine ⟨(if d.negative then ['-'] else []) ++ front, c, ?_, by simp [hwhole]⟩
        simp [toChars, textOf, hfraction, hwhole]
    · refine ⟨(if d.negative then ['-'] else []) ++ d.wholeDigits ++ '.' :: front, c, ?_,
        by simp [hfraction]⟩
      simp [toChars, textOf, hfraction]
  obtain ⟨front, c, htext, hmem⟩ := hends
  exact ⟨c, by simp [htext], isDigit_of_mem hmem⟩

theorem isTrimmed_toText (d : Decimal) : IsTrimmed d.toText := by
  obtain ⟨first, hhead, hfirst⟩ := d.head?_toChars
  obtain ⟨last, hlast, hdigit⟩ := d.getLast?_toChars
  exact isTrimmed_ofList hhead hlast (isBlank_of_minus_or_digit hfirst)
    (isBlank_of_isDigit hdigit)

end Decimal

namespace NumberFormat

open PeriodSheet.Text

/-- A number that is written plainly is not blank and has no white space around it, whatever its
decimal mark is. -/
theorem isTrimmed_formatPlain (format : NumberFormat) (d : Decimal) :
    IsTrimmed (format.formatPlain d) := by
  obtain ⟨first, hhead, hfirst⟩ := (format.round d).normalize.head?_toChars
  obtain ⟨last, hlast, hdigit⟩ := (format.round d).normalize.getLast?_toChars
  have hpoint : ∀ {c : Char}, c.isDigit = true → c ≠ '.' := by
    rintro c h rfl
    exact absurd h (by decide)
  -- neither end is the point that the decimal mark takes the place of
  have hhead' : ((format.round d).normalize.toChars.map fun c =>
      if c = '.' then format.separator else c).head? = some first := by
    rw [List.head?_map, hhead]
    rcases hfirst with rfl | hfirst
    · rfl
    · simp [hpoint hfirst]
  have hlast' : ((format.round d).normalize.toChars.map fun c =>
      if c = '.' then format.separator else c).getLast? = some last := by
    rw [List.getLast?_map, hlast]
    simp [hpoint hdigit]
  exact isTrimmed_ofList hhead' hlast' (isBlank_of_minus_or_digit hfirst)
    (isBlank_of_isDigit hdigit)

end NumberFormat

end PeriodSheet
