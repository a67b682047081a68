import Mathlib.Data.List.TakeDrop
import PeriodSheet.Json.Reader
import PeriodSheet.Json.Writer
import PeriodSheet.Proofs.Json.Plain

/-!
# Written strings and integers read back

A string is read escape by escape: each escaped character costs the reader one unit of fuel and
gives the character back (`readString_escapeChar`).  An integer is read up to the first character
that no number goes on with (`readNumber_ofInt`).
-/

namespace PeriodSheet.Json

open PeriodSheet.Text

/-! ### Strings -/

theorem hexValue?_hexDigit {n : Nat} (h : n < 16) : hexValue? (hexDigit n) = some n := by
  have hall : ∀ n : Fin 16, hexValue? (hexDigit n) = some n.val := by decide
  exact hall ⟨n, h⟩

/-- The code of a control character, as four hexadecimal digits. -/
theorem ofHex?_control {n : Nat} (h : n < 0x20) :
    ofHex? ['0', '0', hexDigit (n / 16), hexDigit (n % 16)] = some n := by
  have hhigh := hexValue?_hexDigit (show n / 16 < 16 by omega)
  have hlow := hexValue?_hexDigit (show n % 16 < 16 by omega)
  have hzero : hexValue? '0' = some 0 := by decide
  simp only [ofHex?, List.foldlM_cons, List.foldlM_nil, hzero, hhigh, hlow, Option.map_some,
    Option.bind_eq_bind, Option.bind_some]
  exact congrArg some (by omega)

theorem readString_escapeChar (fuel : Nat) (read : Option (List Char)) (c : Char)
    (rest : List Char) :
    readString (fuel + 1) read (escapeChar c ++ rest) =
      readString fuel (read.map (c :: ·)) rest := by
  unfold escapeChar
  split
  · subst_vars; rfl
  split
  · subst_vars; rfl
  split
  · subst_vars; rfl
  split
  · subst_vars; rfl
  split
  · subst_vars; rfl
  split
  · rename_i h
    obtain rfl : c = '\x08' := Char.toNat_inj.1 h
    rfl
  split
  · rename_i h
    obtain rfl : c = '\x0c' := Char.toNat_inj.1 h
    rfl
  split
  · rename_i h
    have hunit : ofUnit? c.toNat = some c := by
      rw [ofUnit?, if_neg (by omega), Char.ofNat_toNat]
    have hread : ofEscapedUnit c.toNat rest = (some c, rest) := by
      simp only [ofEscapedUnit, hunit]
    show readString (fuel + 1) read ('\\' :: 'u' :: '0' :: '0' :: hexDigit (c.toNat / 16) ::
      hexDigit (c.toNat % 16) :: rest) = _
    simp only [readString, ofHex?_control h, hread]
    cases read <;> rfl
  · rename_i hquote hbackslash _ _ _ _ _ hcontrol
    show readString (fuel + 1) read (c :: rest) = _
    have hplain : (c.toNat < 0x20 || c == '\\') = false := by simp [hcontrol, hbackslash]
    rw [readString, hplain]
    · rfl
    · exact hquote
    · exact fun _ _ _ _ _ heq => absurd heq hbackslash
    · exact fun _ _ heq => absurd heq hbackslash

/-- The inside of a string is read up to the quote after it. -/
theorem readString_escaped (cs read rest : List Char) {fuel : Nat} (h : cs.length < fuel) :
    readString fuel (some read) (cs.flatMap escapeChar ++ '"' :: rest) =
      some (some (String.ofList (read.reverse ++ cs)), rest) := by
  induction cs generalizing read fuel with
  | nil =>
    obtain ⟨fuel, rfl⟩ : ∃ n, fuel = n + 1 := ⟨fuel - 1, by omega⟩
    show readString (fuel + 1) (some read) ('"' :: rest) = _
    rw [List.append_nil]
    rfl
  | cons c cs ih =>
    obtain ⟨fuel, rfl⟩ : ∃ n, fuel = n + 1 := ⟨fuel - 1, by omega⟩
    rw [List.flatMap_cons, List.append_assoc, readString_escapeChar, Option.map_some,
      ih (c :: read) (by simpa using h), List.reverse_cons, List.append_assoc]
    rfl

theorem toList_quote (s : String) :
    (quote s).toList = '"' :: (s.toList.flatMap escapeChar ++ ['"']) := by
  rw [quote, String.toList_ofList]
  rfl

theorem escapeChar_ne_nil (c : Char) : escapeChar c ≠ [] := by
  unfold escapeChar
  repeat' split
  all_goals exact List.cons_ne_nil _ _

theorem length_le_length_escaped (cs : List Char) : cs.length ≤ (cs.flatMap escapeChar).length := by
  induction cs with
  | nil => exact Nat.le_refl 0
  | cons c cs ih =>
    have hpos := List.length_pos_iff.2 (escapeChar_ne_nil c)
    rw [List.flatMap_cons, List.length_append, List.length_cons]
    omega

/-- A written string is read with the fuel that its characters give. -/
theorem readString_quote (s : String) (rest : List Char) :
    readString ((s.toList.flatMap escapeChar ++ '"' :: rest).length + 1) (some [])
        (s.toList.flatMap escapeChar ++ '"' :: rest) = some (some s, rest) := by
  have hlength := length_le_length_escaped s.toList
  rw [readString_escaped s.toList [] rest (by rw [List.length_append]; omega), List.reverse_nil,
    List.nil_append, String.ofList_toList]

/-! ### Integers -/

/-- Whether characters do not go on with a number before them. -/
def EndsNumber (rest : List Char) : Prop :=
  ∀ c ∈ rest.head?, c.isDigit = false ∧ c ≠ '.' ∧ c ≠ 'e' ∧ c ≠ 'E'

theorem endsNumber_cons {c : Char} {rest : List Char}
    (h : c.isDigit = false ∧ c ≠ '.' ∧ c ≠ 'e' ∧ c ≠ 'E') : EndsNumber (c :: rest) := by
  intro d hd
  rwa [← Option.some.inj hd]

theorem spanDigits_digits (n : Nat) {rest : List Char} (h : EndsNumber rest) :
    spanDigits (digits n ++ rest) = (digits n, rest) := by
  have hdigits : ∀ c ∈ digits n, c.isDigit = true := fun c => isDigit_of_mem_digits
  have hend : rest.takeWhile Char.isDigit = [] ∧ rest.dropWhile Char.isDigit = rest := by
    cases rest with
    | nil => exact ⟨rfl, rfl⟩
    | cons c rest =>
      have hc := (h c rfl).1
      exact ⟨List.takeWhile_cons_of_neg (by simp [hc]), List.dropWhile_cons_of_neg (by simp [hc])⟩
  rw [spanDigits, List.span_eq_takeWhile_dropWhile, List.takeWhile_append_of_pos hdigits,
    List.dropWhile_append_of_pos hdigits, hend.1, hend.2, List.append_nil]

theorem eq_zero_of_head?_digits {n : Nat} (h : (digits n).head? = some '0') : n = 0 := by
  fun_induction digits n with
  | case1 n hn =>
    have hall : ∀ n : Fin 10, digitChar n = '0' → n.val = 0 := by decide
    exact hall ⟨n, hn⟩ (Option.some.inj h)
  | case2 n hn ih =>
    obtain ⟨c, ds, hds⟩ := List.exists_cons_of_ne_nil (digits_ne_nil (n / 10))
    rw [hds, List.cons_append] at h
    rw [hds] at ih
    have := ih h
    omega

/-- A numeral has no zero before another digit. -/
theorem digits_ne_zero_cons (n : Nat) (c : Char) (ds : List Char) : digits n ≠ '0' :: c :: ds := by
  intro h
  obtain rfl := eq_zero_of_head?_digits (n := n) (by rw [h]; rfl)
  exact absurd h (by simp [digits])

theorem readFraction_of_ends {rest : List Char} (h : EndsNumber rest) :
    readFraction rest = some ([], rest) := by
  unfold readFraction
  split
  · exact absurd rfl (h '.' rfl).2.1
  · rfl

theorem readExponent_of_ends {rest : List Char} (h : EndsNumber rest) :
    readExponent rest = some ([], rest) := by
  cases rest with
  | nil => rfl
  | cons c rest =>
    obtain ⟨-, -, hlower, hupper⟩ := h c rfl
    have hnone : (c == 'e' || c == 'E') = false := by simp [hlower, hupper]
    simp only [readExponent, hnone]
    rfl

/-- A numeral with an optional sign is read as a whole. -/
theorem readNumber_digits (negative : Bool) (n : Nat) {rest : List Char} (h : EndsNumber rest) :
    readNumber ((if negative then ['-'] else []) ++ (digits n ++ rest)) =
      some (Numeral.value ⟨negative, digits n, [], []⟩, rest) := by
  unfold readNumber
  split
  rename_i sign cs hsign
  have hpair : (negative, digits n ++ rest) = (sign, cs) := by
    cases negative with
    | true => exact hsign
    | false =>
      -- a numeral without a sign begins with a digit
      obtain ⟨c, ds, hds⟩ := List.exists_cons_of_ne_nil (digits_ne_nil n)
      have hc : c.isDigit = true := isDigit_of_mem_digits (hds ▸ List.mem_cons_self)
      split at hsign
      · rename_i tail heq
        replace heq : digits n ++ rest = '-' :: tail := heq
        rw [hds, List.cons_append] at heq
        rw [(List.cons.inj heq).1] at hc
        exact absurd hc (by decide)
      · exact hsign
  obtain ⟨rfl, rfl⟩ := Prod.mk.inj hpair
  simp only [spanDigits_digits n h]
  split
  · rename_i heq
    exact absurd heq (digits_ne_nil n)
  · rename_i heq
    exact absurd heq (digits_ne_zero_cons n _ _)
  · simp only [readFraction_of_ends h, readExponent_of_ends h, Option.bind_eq_bind,
      Option.bind_some]

theorem readNumber_ofInt {n : Int} (hlow : -(twoPow 63 : Int) ≤ n) (hhigh : n < twoPow 64)
    {rest : List Char} (h : EndsNumber rest) :
    readNumber ((ofInt n).toList ++ rest) = some (.integer n, rest) := by
  rw [ofInt, String.toList_ofList, List.append_assoc]
  by_cases hneg : n < 0
  · have hvalue : Numeral.value ⟨true, digits n.natAbs, [], []⟩ = .integer n := by
      have hfits : ¬ (n.natAbs = 0 ∨ twoPow 63 < n.natAbs) := by omega
      simp only [Numeral.value, ofDigits_digits, List.isEmpty_nil, Bool.not_true, Bool.or_self,
        Bool.false_eq_true, if_false, if_true, if_neg hfits]
      exact congrArg Json.integer (by omega)
    rw [if_pos hneg, ← hvalue]
    exact readNumber_digits true n.natAbs h
  · have hvalue : Numeral.value ⟨false, digits n.natAbs, [], []⟩ = .integer n := by
      have hfits : n.natAbs < twoPow 64 := by omega
      simp only [Numeral.value, ofDigits_digits, List.isEmpty_nil, Bool.not_true, Bool.or_self,
        Bool.false_eq_true, if_false, if_pos hfits]
      exact congrArg Json.integer (by omega)
    rw [if_neg hneg, ← hvalue]
    exact readNumber_digits false n.natAbs h

end PeriodSheet.Json
