import PeriodSheet.Proofs.Decimal.Spellings
import PeriodSheet.Proofs.Formula.Reading

/-!
# Numbers in formulas and numbers as typed

A formula takes a number as far as it goes, with one decimal mark at most, while a typed number is
read as a whole, with the meaning of its marks guessed from all of them.  Both read a number that
stands alone (`Scan.Numeral`) in the same way: it has one mark at most, and that one is decimal
(`ofEntered?_numeral`).  So a formula that is nothing but a number has the value that its text would
have where it is typed (`number_agrees`).
-/

namespace PeriodSheet

open Text Decimal

namespace Scan

/-! ### The value of a number -/

theorem map_comma_of_digits {digits : List Char} (h : ∀ c ∈ digits, c.isDigit = true) :
    digits.map (fun c => if c = ',' then '.' else c) = digits :=
  map_mark_of_ne fun c hc => (steady_of_isDigit (h c hc)).ne rfl

theorem numberText_whole {digits : List Char} (h : ∀ c ∈ digits, c.isDigit = true) :
    numberText digits = digits := by
  rw [numberText, map_comma_of_digits h]
  split
  · next fraction => exact absurd (h '.' List.mem_cons_self) (by decide)
  · rfl

/-- A mark stands as a point, after a zero where no digit is before it. -/
theorem numberText_marked {whole fraction : List Char} {mark : Char}
    (hwhole : ∀ c ∈ whole, c.isDigit = true) (hmark : isMark mark = true)
    (hfraction : ∀ c ∈ fraction, c.isDigit = true) :
    numberText (whole ++ mark :: fraction) =
      (if whole.isEmpty then ['0'] else whole) ++ '.' :: fraction := by
  have hpoint : (if mark = ',' then '.' else mark) = '.' := by
    rcases isMark_iff.1 hmark with rfl | rfl <;> rfl
  rw [numberText, List.map_append, List.map_cons, map_comma_of_digits hwhole,
    map_comma_of_digits hfraction, hpoint]
  cases whole with
  | nil => rfl
  | cons c whole =>
    have hc : c ≠ '.' := (steady_of_isDigit (hwhole c List.mem_cons_self)).ne rfl
    split
    · next heq => exact absurd (List.cons.inj heq).1 hc
    · rfl

/-- Before the first fraction digit it does not matter whether a digit was read. -/
theorem readParts_fraction {c : Char} (hc : c.isDigit = true) (started : Bool)
    (rest : List Char) :
    readParts true started 0 0 (c :: rest) = readParts true true 0 0 (c :: rest) := by
  have hfull : (true && (0 == maxScale)) = false := rfl
  rw [readParts, readParts, hfull, if_pos hc, if_pos hc]

theorem readParts_point (started : Bool) (rest : List Char) :
    readParts false started 0 0 ('.' :: rest) = readParts true started 0 0 rest := by
  rw [readParts]
  rfl

/-- A zero before the point in front does not matter. -/
theorem ofChars?_zero_point {fraction : List Char}
    (hfraction : ∀ c ∈ fraction, c.isDigit = true) (hne : fraction ≠ []) :
    ofChars? ('0' :: '.' :: fraction) = ofChars? ('.' :: fraction) := by
  obtain ⟨c, rest, rfl⟩ := List.exists_cons_of_ne_nil hne
  have hzero : readParts false false 0 0 ('0' :: '.' :: c :: rest) =
      readParts false true 0 0 ('.' :: c :: rest) := by
    rw [readParts]
    rfl
  have hparts : readParts false false 0 0 ('0' :: '.' :: c :: rest) =
      readParts false false 0 0 ('.' :: c :: rest) := by
    rw [hzero, readParts_point, readParts_point,
      readParts_fraction (hfraction c List.mem_cons_self) false]
  show readUnsigned? false _ = readUnsigned? false _
  rw [readUnsigned?, readUnsigned?, hparts]

/-- **A number that stands alone is read alike.** -/
theorem ofEntered?_numeral {marked : Bool} {text : List Char} (h : Numeral marked text) :
    ofEntered? (.ofList text) = numberValue? text := by
  have hsign : IsSign [] := .inl rfl
  cases h with
  | whole hdigits hne =>
    have hread := ofEntered?_whole hsign hne hdigits
    rw [List.nil_append] at hread
    rw [hread, numberValue?, numberText_whole hdigits]
  | @marked whole fraction mark hwhole hmark hfraction hne =>
    have hroles := roles_of_isMark hmark
    have hread := ofEntered?_grouped hsign hroles hwhole
      (isGrouped_self hwhole hroles.isMark_group) hfraction
    rw [List.nil_append, List.nil_append] at hread
    rw [hread, numberValue?, numberText_marked hwhole hmark hfraction]
    cases whole with
    | nil =>
      rw [List.nil_append]
      exact (ofChars?_zero_point hfraction hne).symm
    | cons c whole => rw [List.isEmpty_cons, if_neg Bool.false_ne_true]

/-! ### Texts of digits and marks -/

/-- A character that a number is written with, or white space. -/
def IsNumeric (c : Char) : Prop :=
  c.isDigit = true ∨ isMark c = true ∨ isBlank c = true

theorem isNumeric_of_numeral {marked : Bool} {text : List Char} (h : Numeral marked text) :
    ∀ c ∈ text, IsNumeric c := by
  cases h with
  | whole hdigits _ => exact fun c hc => .inl (hdigits c hc)
  | marked hwhole hmark hfraction _ =>
    intro c hc
    rcases List.mem_append.1 hc with hc | hc
    · exact .inl (hwhole c hc)
    · rcases List.mem_cons.1 hc with rfl | hc
      · exact .inr (.inl hmark)
      · exact .inl (hfraction c hc)

/-- No digit, mark or white space is a symbol. -/
theorem single?_of_isNumeric {c : Char} (h : IsNumeric c) : single? c = none := by
  unfold single?
  split <;> first | rfl | exact absurd h (by unfold IsNumeric; decide)

/-- The tokens of digits, marks and white space are numbers. -/
theorem exists_number_of_tokenizes {cs : List Char} {tokens : List Token}
    (h : Tokenizes cs tokens) (hcs : ∀ c ∈ cs, IsNumeric c) :
    ∀ token ∈ tokens, ∃ value, token = .number value := by
  induction h with
  | done => exact fun _ htoken => absurd htoken List.not_mem_nil
  | blank _ _ ih => exact ih fun c hc => hcs c (List.mem_cons_of_mem _ hc)
  | token htoken _ ih =>
    cases htoken with
    | symbol hsymbol =>
      rw [single?_of_isNumeric (hcs _ List.mem_cons_self)] at hsymbol
      cases hsymbol
    | reference _ _ =>
      exact absurd (hcs '[' List.mem_cons_self) (by unfold IsNumeric; decide)
    | @number _ text _ value _ _ _ =>
      intro token hmem
      rcases List.mem_cons.1 hmem with rfl | hmem
      · exact ⟨value, rfl⟩
      · exact ih (fun c hc => hcs c (List.mem_append_right text hc)) token hmem

/-- A text that is one number is that number but for white space. -/
theorem exists_numeral_of_tokenizes {cs : List Char} {value : Decimal}
    (h : Tokenizes cs [.number value]) :
    ∃ marked text, Numeral marked text ∧ numberValue? text = some value ∧
      SameButBlank cs text := by
  generalize htokens : [Token.number value] = tokens at h
  induction h with
  | done => cases htokens
  | blank hblank _ ih =>
    obtain ⟨marked, text, hnumeral, hvalue, hsame⟩ := ih htokens
    exact ⟨marked, text, hnumeral, hvalue, .delete hblank hsame⟩
  | token htoken hrest _ =>
    obtain ⟨rfl, rfl⟩ := List.cons.inj htokens
    have hblank := isBlank_of_tokenizes_nil hrest
    cases htoken with
    | symbol hsymbol =>
      unfold single? at hsymbol
      split at hsymbol <;> cases hsymbol
    | @number marked text rest _ hnumeral _ hvalue =>
      refine ⟨marked, text, hnumeral, hvalue, ?_⟩
      exact .append_blank hblank text

/-- A number that stands alone is one token. -/
theorem tokenizes_numeral {marked : Bool} {text : List Char} {value : Decimal}
    (h : Numeral marked text) (hvalue : numberValue? text = some value) :
    Tokenizes text [.number value] := by
  have hlexes := Lexes.number h (show continuesNumber marked [] = false from rfl) hvalue
  rw [List.append_nil] at hlexes
  exact .token hlexes .done

end Scan

namespace Formula

/-- The phrase of a number. -/
def Phrase.ofNumber (value : Decimal) : Phrase .expression :=
  .expression (.term (.operand (.number value)) .noProduct) .noSum

/-- A phrase whose tokens are all numbers is a number. -/
theorem Phrase.eq_ofNumber {phrase : Phrase .expression}
    (h : ∀ token ∈ phrase.tokens, ∃ value, token = .number value) :
    ∃ value, phrase = .ofNumber value := by
  -- no operator, and no parenthesis
  have hoperator : ∀ operation, Token.operator operation ∉ phrase.tokens := fun operation hmem =>
    have ⟨_, heq⟩ := h _ hmem
    Token.noConfusion heq
  cases phrase with
  | expression first sums =>
    cases sums with
    | sum sign _ _ => exact absurd (by simp [tokens]) (hoperator sign.operation)
    | noSum =>
      cases first with
      | term factor products =>
        cases products with
        | product scaling _ _ => exact absurd (by simp [tokens]) (hoperator scaling.operation)
        | noProduct =>
          cases factor with
          | signed sign _ => exact absurd (by simp [tokens]) (hoperator sign.operation)
          | operand operand =>
            cases operand with
            | number value => exact ⟨value, rfl⟩
            | field name => simp [tokens] at h
            | parentheses inner => simp [tokens] at h

theorem parse_of_tokenizes {source : String} {value : Decimal}
    (h : Scan.Tokenizes source.toList [.number value]) :
    parse source = .ok ⟨source, .number value⟩ :=
  parse_of_phrase (.ofNumber value) h (Nat.zero_le _)

/-- **A formula of digits, marks and white space is a number**, and the one that its text is where it
is typed. -/
theorem exists_number_of_parse {source : String} {formula : Formula}
    (h : parse source = .ok formula) (hsource : ∀ c ∈ source.toList, Scan.IsNumeric c) :
    ∃ value, formula.expr = .number value ∧ Decimal.ofEntered? source = some value := by
  obtain ⟨phrase, htokens, -, hmeaning⟩ := exists_phrase_of_parse h
  obtain ⟨value, rfl⟩ := Phrase.eq_ofNumber (Scan.exists_number_of_tokenizes htokens hsource)
  obtain ⟨marked, text, hnumeral, hvalue, hsame⟩ := Scan.exists_numeral_of_tokenizes htokens
  refine ⟨value, hmeaning.symm, ?_⟩
  rw [← hvalue, ← Scan.ofEntered?_numeral hnumeral]
  exact ofEntered?_of_sameButBlank (by rwa [String.toList_ofList])

/-- **A number means the same in a formula as where it is typed.**  Where a text of digits, marks and
white space reads as a formula that is a number, it reads as that number where it is typed.  A number
that stands alone, with a decimal mark or without, reads as a formula that is a number exactly where
it reads as a number where it is typed. -/
theorem number_agrees :
    (∀ (source : String) (formula : Formula) (value : Decimal),
      (∀ c ∈ source.toList, c.isDigit = true ∨ isMark c = true ∨ isBlank c = true) →
      parse source = .ok formula → formula.expr = .number value →
      Decimal.ofEntered? source = some value) ∧
    ∀ (marked : Bool) (text : List Char), Scan.Numeral marked text →
      ((∃ formula value, parse (.ofList text) = .ok formula ∧ formula.expr = .number value) ↔
        (Decimal.ofEntered? (.ofList text)).isSome = true) := by
  constructor
  · intro source formula value hsource hparse hexpr
    obtain ⟨found, hfound, hentered⟩ := exists_number_of_parse hparse hsource
    rw [hentered, Expr.number.inj (hfound.symm.trans hexpr)]
  · intro marked text hnumeral
    constructor
    · rintro ⟨formula, value, hparse, -⟩
      have hnumeric : ∀ c ∈ (String.ofList text).toList, Scan.IsNumeric c := by
        rw [String.toList_ofList]
        exact Scan.isNumeric_of_numeral hnumeral
      obtain ⟨found, -, hentered⟩ := exists_number_of_parse hparse hnumeric
      rw [hentered]
      rfl
    · intro hsome
      obtain ⟨value, hentered⟩ := Option.isSome_iff_exists.1 hsome
      rw [Scan.ofEntered?_numeral hnumeral] at hentered
      refine ⟨_, value, parse_of_tokenizes ?_, rfl⟩
      rw [String.toList_ofList]
      exact Scan.tokenizes_numeral hnumeral hentered

/-- An amount without a digit before its comma, and two numbers on either side of the largest one. -/
theorem number_agrees_limit :
    Decimal.ofEntered? " ,50" = some ⟨false, 50, 2, by decide, by decide⟩ ∧
      (∃ formula value, parse "79228162514264337593543950335" = .ok formula ∧
        formula.expr = .number value) ∧
      ¬ ∃ formula value, parse "79228162514264337593543950336" = .ok formula ∧
        formula.expr = .number value := by
  obtain ⟨hvalue, halone⟩ := number_agrees
  have hwhole : ∀ text : List Char, text.all Char.isDigit = true → text ≠ [] →
      Scan.Numeral false text := fun text hall hne => .whole (List.all_eq_true.1 hall) hne
  refine ⟨?_, ?_, ?_⟩
  · have hparse : parse " ,50" = .ok ⟨" ,50", .number ⟨false, 50, 2, by decide, by decide⟩⟩ := by
      decide +kernel
    have hnumeric : " ,50".toList.all (fun c => c.isDigit || isMark c || isBlank c) = true := by
      decide
    refine hvalue _ _ _ (fun c hc => ?_) hparse rfl
    simpa [or_assoc] using List.all_eq_true.1 hnumeric c hc
  · exact (halone false _ (hwhole "79228162514264337593543950335".toList rfl (by decide))).2
      (by decide +kernel)
  · intro hliteral
    have hsome := (halone false _
      (hwhole "79228162514264337593543950336".toList rfl (by decide))).1 hliteral
    exact absurd hsome (by decide +kernel)

end Formula

end PeriodSheet
