/-!
# White space

The characters that count as white space, and trimming.  Everything a user types passes through
here first: names, numbers and cell values are compared without the white space around them, and
a text of white space only is blank, the same as no text at all.
-/

namespace PeriodSheet.Text

/-- The characters of the Unicode property `White_Space`. -/
def isBlank (c : Char) : Bool :=
  let n := c.toNat
  (9 ≤ n && n ≤ 13) || n == 0x20 || n == 0x85 || n == 0xA0 || n == 0x1680 ||
    (0x2000 ≤ n && n ≤ 0x200A) || n == 0x2028 || n == 0x2029 || n == 0x202F || n == 0x205F ||
    n == 0x3000

/-- The characters without the white space at either end. -/
def trimChars (cs : List Char) : List Char :=
  ((cs.dropWhile isBlank).reverse.dropWhile isBlank).reverse

def trim (s : String) : String :=
  String.ofList (trimChars s.toList)

/-- Whether a text holds nothing but white space. -/
def isBlankText (s : String) : Bool :=
  s.toList.all isBlank

theorem dropWhile_isBlank_idem (cs : List Char) :
    (cs.dropWhile isBlank).dropWhile isBlank = cs.dropWhile isBlank := by
  induction cs with
  | nil => rfl
  | cons c rest ih =>
    by_cases h : isBlank c = true
    · rw [List.dropWhile_cons_of_pos h]
      exact ih
    · rw [List.dropWhile_cons_of_neg h, List.dropWhile_cons_of_neg h]

theorem dropWhile_reverse_dropWhile {cs : List Char} (h : cs.dropWhile isBlank = cs) :
    (cs.reverse.dropWhile isBlank).reverse.dropWhile isBlank =
      (cs.reverse.dropWhile isBlank).reverse := by
  obtain ⟨tail, htail⟩ : ∃ tail, cs = (cs.reverse.dropWhile isBlank).reverse ++ tail := by
    refine ⟨(cs.reverse.takeWhile isBlank).reverse, ?_⟩
    rw [← List.reverse_append, List.takeWhile_append_dropWhile, List.reverse_reverse]
  cases hkept : (cs.reverse.dropWhile isBlank).reverse with
  | nil => rfl
  | cons c rest =>
    rw [hkept] at htail
    have hc : isBlank c = false := by
      cases hblank : isBlank c with
      | false => rfl
      | true =>
        rw [htail, List.cons_append, List.dropWhile_cons_of_pos hblank] at h
        have hlen := congrArg List.length h
        have hle := (List.dropWhile_suffix (l := rest ++ tail) isBlank).length_le
        simp only [List.length_cons, List.length_append] at hlen hle
        omega
    rw [List.dropWhile_cons_of_neg (by simp [hc])]

theorem trimChars_trimChars (cs : List Char) : trimChars (trimChars cs) = trimChars cs := by
  unfold trimChars
  rw [dropWhile_reverse_dropWhile (dropWhile_isBlank_idem cs), List.reverse_reverse,
    dropWhile_isBlank_idem]

end PeriodSheet.Text
