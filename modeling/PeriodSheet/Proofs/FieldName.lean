import PeriodSheet.FieldName

/-!
# What a text means as a field name

A text means a field where its lower-case form is the field's key, white space at the ends aside.
Such a text is itself a field name: lower-casing neither empties a text nor takes a bracket away or
brings one in.

* **`Text.mem_lower_iff`**: a text and its lower-case form have the same brackets.
* **`FieldName.isSpelledBy_iff`**: the texts that mean a field are those that read as the same name.
-/

namespace PeriodSheet

open Text

namespace Text

/-! ### Lower case -/

theorem toNat_toLower (c : Char) :
    c.toLower.toNat = if 0x41 ≤ c.toNat ∧ c.toNat ≤ 0x5A then c.toNat + 32 else c.toNat := by
  unfold Char.toLower
  by_cases h : c.val ≥ 'A'.val ∧ c.val ≤ 'Z'.val
  · have hcapital : 0x41 ≤ c.toNat ∧ c.toNat ≤ 0x5A := h
    rw [dif_pos h, if_pos hcapital]
    change (c.val + 32).toNat = _
    rw [UInt32.toNat_add]
    change (c.toNat + 32) % 2 ^ 32 = _
    omega
  · have hcapital : ¬ (0x41 ≤ c.toNat ∧ c.toNat ≤ 0x5A) := h
    rw [dif_neg h, if_neg hcapital]

/-- A number that is no code point comes out as zero. -/
theorem toNat_ofNat_eq (n : Nat) : (Char.ofNat n).toNat = n ∨ (Char.ofNat n).toNat = 0 := by
  by_cases h : n.isValidChar
  · exact .inl (congrArg Char.toNat (dif_pos h))
  · exact .inr (congrArg Char.toNat (dif_neg h))

/-- Every character of the table turns into one that comes after the brackets. -/
theorem lt_of_covers {run : CaseRun} (hrun : run ∈ lowercaseRuns) {n : Nat}
    (hcovers : run.covers n = true) : 0x5D < (n : Int) + run.offset := by
  have hfirst : ∀ run ∈ lowercaseRuns, 0x5D < (run.first : Int) + run.offset := by decide +kernel
  have hle : run.first ≤ n := by
    simp only [CaseRun.covers, Bool.and_eq_true, decide_eq_true_eq] at hcovers
    exact hcovers.1.1
  have := hfirst run hrun
  omega

theorem toNat_of_isBracket {b : Char} (hb : FieldName.isBracket b = true) :
    b.toNat = 0x5B ∨ b.toNat = 0x5D := by
  rcases Bool.or_eq_true_iff.1 hb with h | h
  · exact .inl (congrArg Char.toNat (eq_of_beq h))
  · exact .inr (congrArg Char.toNat (eq_of_beq h))

theorem lowerChar_ne_nil (c : Char) : lowerChar c ≠ [] := by
  unfold lowerChar
  split
  · simp
  · split
    · simp
    · split <;> simp

theorem mem_lowerChar_iff {b : Char} (hb : FieldName.isBracket b = true) (c : Char) :
    b ∈ lowerChar c ↔ b = c := by
  have hcode := toNat_of_isBracket hb
  unfold lowerChar
  split
  · -- the capital letters stand before the brackets, and the small ones behind them
    rw [List.mem_singleton, ← Char.toNat_inj, ← Char.toNat_inj, toNat_toLower]
    split <;> omega
  · rename_i hascii
    have hne : b ≠ c := fun h => by
      rw [h] at hcode
      omega
    split
    · refine iff_of_false (fun hmem => ?_) hne
      have heq : b = 'i' ∨ b = '\u0307' := by simpa using hmem
      rcases heq with rfl | rfl <;> simp at hcode
    · split
      · rename_i run hfind
        have hcovers : run.covers c.toNat = true :=
          List.find?_some (p := fun run : CaseRun => run.covers c.toNat) hfind
        have hlt := lt_of_covers (List.mem_of_find?_eq_some hfind) hcovers
        refine iff_of_false (fun hmem => ?_) hne
        rw [List.mem_singleton.1 hmem] at hcode
        rcases toNat_ofNat_eq (c.toNat + run.offset).toNat with h | h <;> omega
      · exact List.mem_singleton

theorem mem_lowerAfter_iff {b : Char} (hb : FieldName.isBracket b = true) (before cs : List Char) :
    b ∈ lowerAfter before cs ↔ b ∈ cs := by
  induction cs generalizing before with
  | nil => exact Iff.rfl
  | cons c rest ih =>
    rw [lowerAfter, List.mem_cons]
    split
    · -- neither a capital sigma nor a small one is a bracket
      rename_i hsigma
      have hcode := toNat_of_isBracket hb
      have hne : b ≠ c := fun h => by
        rw [h, hsigma] at hcode
        simp at hcode
      rw [List.mem_cons, ih, or_iff_right hne, or_iff_right]
      intro h
      rw [h] at hcode
      split at hcode <;> simp at hcode
    · rw [List.mem_append, mem_lowerChar_iff hb, ih]

theorem lowerAfter_eq_nil_iff (before cs : List Char) : lowerAfter before cs = [] ↔ cs = [] := by
  cases cs with
  | nil => exact Iff.rfl
  | cons c rest =>
    rw [lowerAfter]
    split <;> simp [lowerChar_ne_nil]

/-- Lower-casing neither takes a bracket away nor brings one in. -/
theorem mem_lower_iff {b : Char} (hb : FieldName.isBracket b = true) (s : String) :
    b ∈ (lower s).toList ↔ b ∈ s.toList := by
  rw [lower, String.toList_ofList, mem_lowerAfter_iff hb]

theorem toList_lower_eq_nil_iff (s : String) : (lower s).toList = [] ↔ s.toList = [] := by
  rw [lower, String.toList_ofList, lowerAfter_eq_nil_iff]

end Text

namespace FieldName

/-! ### Reading -/

theorem trim_trim (s : String) : trim (trim s) = trim s := by
  rw [trim, trim, String.toList_ofList, trimChars_trimChars]

/-- White space at the ends of a text has no part in how it reads. -/
theorem parse_congr {a b : String} (h : trim a = trim b) : parse a = parse b := by
  simp only [parse, h]

theorem parse?_spelling (name : FieldName) : parse? name.spelling = some name := by
  rw [parse?, parse_spelling]
  rfl

theorem parse_eq_ok {text : String} {name : FieldName} :
    parse text = .ok name ↔ parse? text = some name := by
  rw [parse?]
  cases parse text <;> simp [Except.toOption]

theorem parse?_eq_some_iff {text : String} {name : FieldName} :
    parse? text = some name ↔ name.spelling = trim text := by
  constructor
  · intro h
    simp only [parse?, parse] at h
    split at h
    · cases h
    · split at h
      · cases h
      · rw [← Option.some.inj h]
  · intro h
    have hparse : parse text = parse name.spelling := parse_congr (by rw [h, trim_trim])
    rw [parse?, hparse]
    exact name.parse?_spelling

theorem exists_parse?_iff {text : String} :
    (∃ name, parse? text = some name) ↔ IsSpelling (trim text) := by
  constructor
  · rintro ⟨name, h⟩
    exact parse?_eq_some_iff.1 h ▸ name.isSpelling
  · intro h
    exact ⟨⟨trim text, lower (trim text), h, rfl⟩, parse?_eq_some_iff.2 rfl⟩

/-! ### Meaning -/

/-- A text that has the lower-case form of a spelling is a spelling, where it is trimmed. -/
theorem isSpelling_of_lower_eq {s t : String} (hs : IsSpelling s) (h : lower s = lower t)
    (htrim : trimChars t.toList = t.toList) : IsSpelling t := by
  obtain ⟨hne, -, hopening, hclosing⟩ := hs
  have hbracket : ∀ {b : Char}, isBracket b = true → b ∉ s.toList → b ∉ t.toList := by
    intro b hb hnot hmem
    rw [← mem_lower_iff hb, ← h, mem_lower_iff hb] at hmem
    exact hnot hmem
  refine ⟨fun hempty => hne ?_, htrim, hbracket rfl hopening, hbracket rfl hclosing⟩
  rw [← toList_lower_eq_nil_iff, h, toList_lower_eq_nil_iff, hempty]

/-- **A text means a field where it reads as the same name.** -/
theorem isSpelledBy_iff {name : FieldName} {text : String} :
    name.isSpelledBy text = true ↔ ∃ other, parse? text = some other ∧ name.same other = true := by
  rw [isSpelledBy, beq_iff_eq]
  constructor
  · intro h
    rw [name.key_eq] at h
    have htrim : trimChars (trim text).toList = (trim text).toList := by
      rw [trim, String.toList_ofList, trimChars_trimChars]
    obtain ⟨other, hother⟩ := exists_parse?_iff.2 (isSpelling_of_lower_eq name.isSpelling h htrim)
    refine ⟨other, hother, same_iff.2 ?_⟩
    rw [name.key_eq, other.key_eq, h, parse?_eq_some_iff.1 hother]
  · rintro ⟨other, hother, hsame⟩
    rw [same_iff.1 hsame, other.key_eq, parse?_eq_some_iff.1 hother]

end FieldName

end PeriodSheet
