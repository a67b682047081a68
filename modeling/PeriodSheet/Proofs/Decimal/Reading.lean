import PeriodSheet.Decimal.Entered
import PeriodSheet.Proofs.Decimal.Value
import PeriodSheet.Proofs.PlainText

/-!
# Written numbers read back

The reader of plain decimal text takes digit after digit.  The digits of a decimal fit by
themselves (`readParts_digits`), and of the zeros that may follow them it takes as many as there is
room for, which adds fraction digits and leaves the value alone (`readParts_zeros`).

What people type goes through `canonicalMarks` first.  A text without a mark is read as it stands;
what the marks of other texts mean is told where their spellings are.
-/

namespace PeriodSheet.Text

/-! ### Numerals -/

/-- The number that a number and some further digits make up. -/
def readOn (n : Nat) (cs : List Char) : Nat :=
  cs.foldl (fun n c => 10 * n + digitValue c) n

theorem readOn_append (n : Nat) (a b : List Char) : readOn n (a ++ b) = readOn (readOn n a) b :=
  List.foldl_append

theorem le_readOn (n : Nat) (cs : List Char) : n ≤ readOn n cs := by
  induction cs generalizing n with
  | nil => exact Nat.le_refl n
  | cons c rest ih =>
    have hle := ih (10 * n + digitValue c)
    show n ≤ readOn (10 * n + digitValue c) rest
    omega

theorem readOn_zeros (n zeros : Nat) :
    readOn n (List.replicate zeros '0') = n * tenPow zeros := by
  induction zeros generalizing n with
  | zero => simp [readOn, tenPow]
  | succ zeros ih =>
    show readOn (10 * n + digitValue '0') (List.replicate zeros '0') = n * (tenPow zeros * 10)
    rw [ih, show digitValue '0' = 0 from rfl]
    ring

theorem readOn_paddedDigits (width n : Nat) : readOn 0 (paddedDigits width n) = n := by
  have hzeros : readOn 0 (List.replicate (width - (digits n).length) '0') = 0 := by
    rw [readOn_zeros, Nat.zero_mul]
  rw [paddedDigits, List.leftpad, readOn_append, hzeros]
  exact ofDigits_digits n

theorem digits_mul_ten {n : Nat} (h : n ≠ 0) : digits (n * 10) = digits n ++ ['0'] := by
  rw [digits, if_neg (by omega), Nat.mul_div_cancel n (by decide), Nat.mul_mod_left]
  rfl

theorem digits_mul_tenPow {n : Nat} (h : n ≠ 0) (zeros : Nat) :
    digits (n * tenPow zeros) = digits n ++ List.replicate zeros '0' := by
  induction zeros with
  | zero => simp [tenPow]
  | succ zeros ih =>
    have hne : n * tenPow zeros ≠ 0 := Nat.mul_ne_zero h (Nat.pow_pos (by decide)).ne'
    have hmul : n * tenPow (zeros + 1) = n * tenPow zeros * 10 := (Nat.mul_assoc n _ 10).symm
    rw [hmul, digits_mul_ten hne, ih, List.append_assoc, ← List.replicate_succ']

/-- Zeros at the end of a padded numeral stand there in addition. -/
theorem paddedDigits_mul_tenPow {n : Nat} (h : n ≠ 0) (width zeros : Nat) :
    paddedDigits (width + zeros) (n * tenPow zeros) =
      paddedDigits width n ++ List.replicate zeros '0' := by
  simp only [paddedDigits, List.leftpad, digits_mul_tenPow h, List.length_append,
    List.length_replicate, List.append_assoc]
  congr 2
  omega

end PeriodSheet.Text

namespace PeriodSheet.Decimal

open PeriodSheet.Text

/-! ### Reading digits -/

/-- Digits that fit are all read. -/
theorem readParts_digits {point started : Bool} {coefficient scale : Nat} {ds : List Char}
    (hdigits : ∀ c ∈ ds, c.isDigit = true) (hfit : readOn coefficient ds < limit)
    (hscale : point = true → scale + ds.length ≤ maxScale) (rest : List Char) :
    readParts point started coefficient scale (ds ++ rest) =
      readParts point (started || !ds.isEmpty) (readOn coefficient ds)
        (if point then scale + ds.length else scale) rest := by
  induction ds generalizing started coefficient scale with
  | nil => simp [readOn]
  | cons c ds ih =>
    have hdigit : c.isDigit = true := hdigits c List.mem_cons_self
    have hlt : 10 * coefficient + digitValue c < limit :=
      Nat.lt_of_le_of_lt (le_readOn _ ds) hfit
    have hroom : (point && scale == maxScale) = false := by
      cases point with
      | false => rfl
      | true =>
        have hle := hscale rfl
        simp only [List.length_cons] at hle
        simp
        omega
    rw [List.cons_append, readParts, hroom, hdigit, if_neg (by decide), if_pos rfl, if_pos hlt,
      ih (fun x h => hdigits x (List.mem_cons_of_mem c h)) hfit]
    · cases point with
      | false => simp [readOn]
      | true => simp [readOn, Nat.add_comm, Nat.add_left_comm]
    · intro hpoint
      have hle := hscale hpoint
      simp only [hpoint, if_true, List.length_cons] at hle ⊢
      omega

/-- Zeros after the last fraction digit are read as far as there is room for them. -/
theorem readParts_zeros {coefficient scale : Nat} (hfit : coefficient < limit)
    (hscale : scale ≤ maxScale) (zeros : Nat) :
    ∃ read, read ≤ zeros ∧ coefficient * tenPow read < limit ∧ scale + read ≤ maxScale ∧
      readParts true true coefficient scale (List.replicate zeros '0') =
        some (coefficient * tenPow read, scale + read) := by
  induction zeros generalizing coefficient scale with
  | zero =>
    exact ⟨0, Nat.le_refl 0, by simpa [tenPow] using hfit, hscale, by simp [readParts, tenPow]⟩
  | succ zeros ih =>
    have hrest : (List.replicate zeros '0').all (fun c => c.isDigit || c == '_') = true := by
      simp
    -- where no more digit is taken, the zero that comes next rounds to nothing
    have hround : roundBy? coefficient scale (digitValue '0') (List.replicate zeros '0') =
        some (coefficient, scale) := by
      rw [roundBy?, hrest]
      rfl
    rw [List.replicate_succ, readParts]
    -- a zero is taken while there is room for it, in the scale and then in the coefficient
    by_cases hfull : scale = maxScale
    · refine ⟨0, Nat.zero_le _, by simpa [tenPow] using hfit, hscale, ?_⟩
      have hkeep : ('0' :: List.replicate zeros '0').dropWhile (· == '_') =
          '0' :: List.replicate zeros '0' := rfl
      rw [if_pos (by simp [hfull]), roundRest?, hkeep, ite_self]
      simp only [show '0'.isDigit = true from rfl, if_true]
      rw [← hfull, hround]
      simp [tenPow]
    · rw [if_neg (by simp [hfull]), if_pos rfl]
      have hnext : 10 * coefficient + digitValue '0' = coefficient * 10 := by
        rw [show digitValue '0' = 0 from rfl]
        omega
      by_cases hlt : 10 * coefficient + digitValue '0' < limit
      · obtain ⟨read, hle, hfits, hroom, hread⟩ := ih hlt (show scale + 1 ≤ maxScale by omega)
        have hmul : (10 * coefficient + digitValue '0') * tenPow read =
            coefficient * tenPow (read + 1) := by
          rw [hnext, Nat.mul_assoc, Nat.mul_comm 10]
          rfl
        have hplaces : scale + 1 + read = scale + (read + 1) := by omega
        rw [hmul] at hfits hread
        rw [hplaces] at hroom hread
        exact ⟨read + 1, by omega, hfits, hroom, by rw [if_pos hlt]; exact hread⟩
      · refine ⟨0, Nat.zero_le _, by simpa [tenPow] using hfit, hscale, ?_⟩
        rw [if_neg hlt, if_pos rfl, hround]
        simp [tenPow]

theorem length_fractionDigits (d : Decimal) : d.fractionDigits.length = d.scale := by
  have hwidth := le_length_paddedDigits (d.scale + 1) d.coefficient
  rw [fractionDigits, List.length_drop]
  omega

/-- Without a sign in front, a number is read as it is. -/
theorem ofChars?_of_isDigit {c : Char} (h : c.isDigit = true) (rest : List Char) :
    ofChars? (c :: rest) = readUnsigned? false (c :: rest) := by
  unfold ofChars?
  split
  · rename_i heq
    obtain rfl := (List.cons.inj heq).1
    exact absurd h (by decide)
  · rename_i heq
    obtain rfl := (List.cons.inj heq).1
    exact absurd h (by decide)
  · rfl

/-- The text of a number is read with its sign. -/
theorem ofChars?_textOf (d : Decimal) (fraction : List Char) :
    ofChars? (textOf d.negative d.wholeDigits fraction) =
      readUnsigned? d.negative (textOf false d.wholeDigits fraction) := by
  cases hneg : d.negative with
  | true => rfl
  | false =>
    cases hwhole : d.wholeDigits with
    | nil => exact absurd hwhole d.wholeDigits_ne_nil
    | cons c rest =>
      have hdigit : c.isDigit = true := isDigit_of_mem (d := d) (by simp [hwhole])
      exact ofChars?_of_isDigit hdigit _

/-- The digits of a number are read back, and as many of the zeros after them as there is room
for. -/
theorem readParts_textOf (d : Decimal) (zeros : Nat) :
    ∃ read, read ≤ zeros ∧ d.coefficient * tenPow read < limit ∧ d.scale + read ≤ maxScale ∧
      readParts false false 0 0
          (textOf false d.wholeDigits (d.fractionDigits ++ List.replicate zeros '0')) =
        some (d.coefficient * tenPow read, d.scale + read) := by
  -- all digits together are the coefficient, so that those before the point fit as well
  have hall : readOn (readOn 0 d.wholeDigits) d.fractionDigits = d.coefficient := by
    rw [← readOn_append, wholeDigits_append_fractionDigits, readOn_paddedDigits]
  have hwhole : readOn 0 d.wholeDigits < limit :=
    Nat.lt_of_le_of_lt (hall ▸ le_readOn _ d.fractionDigits) d.coefficient_lt
  have hstart : (!d.wholeDigits.isEmpty) = true := by simp [d.wholeDigits_ne_nil]
  rw [textOf, if_neg (by decide), List.nil_append,
    readParts_digits (fun c h => isDigit_of_mem (List.mem_append_left _ h)) hwhole
      (fun h => by cases h), hstart]
  simp only [Bool.false_or, Bool.false_eq_true, if_false]
  by_cases hempty : d.fractionDigits ++ List.replicate zeros '0' = []
  · -- nothing follows the whole digits
    obtain ⟨hfraction, hzeros⟩ := List.append_eq_nil_iff.1 hempty
    have hscale : d.scale = 0 := by rw [← length_fractionDigits, hfraction]; rfl
    rw [hfraction] at hall
    rw [hempty]
    refine ⟨0, Nat.zero_le _, by simpa [tenPow] using d.coefficient_lt, d.scale_le, ?_⟩
    rw [hscale]
    simpa [readParts, tenPow, readOn] using hall
  · have hpoint : ∀ rest, readParts false true (readOn 0 d.wholeDigits) 0 ('.' :: rest) =
        readParts true true (readOn 0 d.wholeDigits) 0 rest := fun rest => by
      rw [readParts]
      rfl
    rw [if_neg (by simpa using hempty), hpoint,
      readParts_digits (fun c h => isDigit_of_mem (List.mem_append_right _ h))
        (hall ▸ d.coefficient_lt)
        (fun _ => by rw [length_fractionDigits, Nat.zero_add]; exact d.scale_le),
      hall, length_fractionDigits, Nat.zero_add]
    simpa using readParts_zeros d.coefficient_lt d.scale_le zeros

/-- **A written number reads back.**  What is read has the digits of the number and some of the
zeros after them. -/
theorem exists_ofChars?_textOf (d : Decimal) (zeros : Nat) :
    ∃ r read, read ≤ zeros ∧
      ofChars? (textOf d.negative d.wholeDigits (d.fractionDigits ++ List.replicate zeros '0')) =
        some r ∧
      d.Extends r read ∧ (r.isZero = true → r.negative = false) := by
  obtain ⟨read, hle, hfits, hroom, hread⟩ := d.readParts_textOf zeros
  refine ⟨⟨d.negative && d.coefficient * tenPow read != 0, d.coefficient * tenPow read,
    d.scale + read, hfits, hroom⟩, read, hle, ?_, ⟨rfl, rfl, fun hne => ?_⟩, fun hzero => ?_⟩
  · rw [ofChars?_textOf, readUnsigned?, hread, Option.bind_some]
    exact dif_pos ⟨hfits, hroom⟩
  · simp [hne]
  · have hne : (d.coefficient * tenPow read != 0) = false := by simpa [isZero] using hzero
    show (d.negative && d.coefficient * tenPow read != 0) = false
    rw [hne, Bool.and_false]

/-! ### Reading what people type -/

theorem isMark_iff {c : Char} : isMark c = true ↔ c = ',' ∨ c = '.' := by
  rw [isMark, Bool.or_eq_true_iff, beq_iff_eq, beq_iff_eq]

/-- Characters among which a mark does not occur are the same with another mark in its place. -/
theorem map_mark_of_ne {mark new : Char} {cs : List Char} (h : ∀ c ∈ cs, c ≠ mark) :
    cs.map (fun c => if c = mark then new else c) = cs := by
  conv_rhs => rw [← List.map_id cs]
  exact List.map_congr_left fun c hc => if_neg (h c hc)

theorem canonicalMarks_of_none {cs : List Char} (h : ∀ c ∈ cs, isMark c = false) :
    canonicalMarks cs = cs := by
  have hnone : cs.reverse.find? isMark = none := by
    rw [List.find?_eq_none]
    intro c hc
    simp [h c (List.mem_reverse.1 hc)]
  rw [canonicalMarks, hnone]

theorem isMark_of_isDigit {c : Char} (h : c.isDigit = true) : isMark c = false := by
  rw [isMark, Bool.or_eq_false_iff]
  constructor
  all_goals
    rw [beq_eq_false_iff_ne]
    rintro rfl
    exact absurd h (by decide)

/-- Characters without white space are read with their marks in the form of points. -/
theorem ofEntered?_ofList {cs text : List Char} (hcanonical : canonicalMarks cs = text)
    (hvisible : ∀ c ∈ cs, isBlank c = false) (hne : cs ≠ []) (hnumber : isNumberText text = true) :
    ofEntered? (String.ofList cs) = ofChars? text := by
  have hfilter : cs.filter (!isBlank ·) = cs := by
    rw [List.filter_eq_self]
    intro c hc
    simp [hvisible c hc]
  rw [ofEntered?, String.toList_ofList, hfilter, ofEnteredChars?, if_neg (by simp [hne]),
    hcanonical, if_pos hnumber]

theorem filter_dropWhile_isBlank (cs : List Char) :
    (cs.dropWhile isBlank).filter (!isBlank ·) = cs.filter (!isBlank ·) := by
  induction cs with
  | nil => rfl
  | cons c rest ih =>
    by_cases h : isBlank c = true
    · rw [List.dropWhile_cons_of_pos h, ih, List.filter_cons_of_neg (by simp [h])]
    · rw [List.dropWhile_cons_of_neg h]

theorem filter_trimChars (cs : List Char) :
    (trimChars cs).filter (!isBlank ·) = cs.filter (!isBlank ·) := by
  rw [trimChars, List.filter_reverse, filter_dropWhile_isBlank, List.filter_reverse,
    List.reverse_reverse, filter_dropWhile_isBlank]

theorem ofEntered?_trim (s : String) : ofEntered? (trim s) = ofEntered? s := by
  rw [ofEntered?, ofEntered?, trim, String.toList_ofList, filter_trimChars]

end PeriodSheet.Decimal
