import PeriodSheet.Formula.Lexer
import PeriodSheet.Proofs.Decimal.Reading

/-!
# Tokens of a text

Which tokens a text is made of, told apart from how they are scanned: white space aside, a text is a
row of symbols, references and numbers, where a number takes as many characters as it can.  The scan
comes to the end of a text exactly where the text is made of tokens, and finds those
(`tokenizes_iff`).
-/

namespace PeriodSheet.Scan

open Text Decimal

/-- A number as a formula writes it, with whether it has a decimal mark.  A digit follows the
mark; none need stand before it. -/
inductive Numeral : Bool → List Char → Prop where
  | whole {digits : List Char} (hdigits : ∀ c ∈ digits, c.isDigit = true) (hne : digits ≠ []) :
      Numeral false digits
  | marked {whole fraction : List Char} {mark : Char} (hwhole : ∀ c ∈ whole, c.isDigit = true)
      (hmark : isMark mark = true) (hfraction : ∀ c ∈ fraction, c.isDigit = true)
      (hne : fraction ≠ []) : Numeral true (whole ++ mark :: fraction)

/-- Whether a number, with or without a mark, could go on with some characters. -/
def continuesNumber (marked : Bool) : List Char → Bool
  | [] => false
  | c :: rest => c.isDigit || (isMark c && !marked && startsWithDigit rest)

/-- A text begins with a token and goes on with the rest.  Blank characters may stand in a reference
around the name, as the reader of names trims it. -/
inductive Lexes : List Char → Token → List Char → Prop where
  | symbol {c : Char} {token : Token} {rest : List Char} (hsymbol : single? c = some token) :
      Lexes (c :: rest) token rest
  | reference {name rest : List Char} {field : FieldName} (hname : ∀ c ∈ name, c ≠ ']')
      (hfield : FieldName.parse (String.ofList name) = .ok field) :
      Lexes ('[' :: (name ++ ']' :: rest)) (.field field) rest
  | number {marked : Bool} {text rest : List Char} {value : Decimal}
      (hnumeral : Numeral marked text) (hstop : continuesNumber marked rest = false)
      (hvalue : numberValue? text = some value) : Lexes (text ++ rest) (.number value) rest

/-- The tokens that a text is made of. -/
inductive Tokenizes : List Char → List Token → Prop where
  | done : Tokenizes [] []
  | blank {c : Char} {rest : List Char} {tokens : List Token} (hblank : isBlank c = true)
      (hrest : Tokenizes rest tokens) : Tokenizes (c :: rest) tokens
  | token {cs rest : List Char} {token : Token} {tokens : List Token} (htoken : Lexes cs token rest)
      (hrest : Tokenizes rest tokens) : Tokenizes cs (token :: tokens)

/-! ### Numbers -/

/-- The digits in front belong to the number. -/
theorem spanNumber_digits (marked : Bool) {digits : List Char}
    (h : ∀ c ∈ digits, c.isDigit = true) (rest : List Char) :
    spanNumber marked (digits ++ rest) =
      (digits ++ (spanNumber marked rest).1, (spanNumber marked rest).2) := by
  induction digits with
  | nil => rfl
  | cons c digits ih =>
    have hc := h c (List.mem_cons_self ..)
    have ih := ih fun d hd => h d (List.mem_cons_of_mem _ hd)
    rw [List.cons_append, spanNumber, if_pos hc, ih]
    rfl

theorem spanNumber_stop {marked : Bool} {rest : List Char}
    (h : continuesNumber marked rest = false) : spanNumber marked rest = ([], rest) := by
  cases rest with
  | nil => rfl
  | cons c rest =>
    simp only [continuesNumber, Bool.or_eq_false_iff] at h
    rw [spanNumber, if_neg (by rw [h.1]; decide), if_neg (by rw [h.2]; decide)]

theorem startsWithDigit_append {digits : List Char} (h : ∀ c ∈ digits, c.isDigit = true)
    (hne : digits ≠ []) (rest : List Char) : startsWithDigit (digits ++ rest) = true := by
  cases digits with
  | nil => exact absurd rfl hne
  | cons c digits => exact h c (List.mem_cons_self ..)

theorem spanNumber_numeral {marked : Bool} {text rest : List Char} (h : Numeral marked text)
    (hstop : continuesNumber marked rest = false) :
    spanNumber false (text ++ rest) = (text, rest) := by
  cases h with
  | whole hdigits hne =>
    rw [spanNumber_digits false hdigits, spanNumber_stop hstop, List.append_nil]
  | @marked whole fraction mark hwhole hmark hfraction hne =>
    have hdigit := startsWithDigit_append hfraction hne rest
    have hnot : mark.isDigit = false := by
      cases hc : mark.isDigit with
      | false => rfl
      | true => rw [isMark_of_isDigit hc] at hmark; cases hmark
    -- the mark is the first one, and a digit follows it
    rw [List.append_assoc, spanNumber_digits false hwhole, List.cons_append, spanNumber,
      if_neg (by rw [hnot]; decide), if_pos (by rw [hmark, hdigit]; rfl),
      spanNumber_digits true hfraction, spanNumber_stop hstop, List.append_nil]

theorem isDigit_of_dropWhile {cs rest : List Char} {c : Char}
    (h : cs.dropWhile (·.isDigit) = c :: rest) : c.isDigit = false := by
  have hhead := List.head?_dropWhile_not (·.isDigit) cs
  rw [h] at hhead
  exact hhead

theorem isDigit_of_mem_takeWhile {cs : List Char} :
    ∀ c ∈ cs.takeWhile (·.isDigit), c.isDigit = true := by
  intro c hc
  exact List.all_eq_true.1 List.all_takeWhile c hc

theorem exists_numeral {c : Char} {tail : List Char} (h : startsNumber c tail = true) :
    ∃ marked text rest, text ++ rest = c :: tail ∧ Numeral marked text ∧
      continuesNumber marked rest = false := by
  have hsplit := List.takeWhile_append_dropWhile (p := (·.isDigit)) (l := c :: tail)
  cases hrest : (c :: tail).dropWhile (·.isDigit) with
  | nil =>
    rw [hrest, List.append_nil] at hsplit
    have hdigits : ∀ d ∈ c :: tail, d.isDigit = true := hsplit ▸ isDigit_of_mem_takeWhile
    exact ⟨false, c :: tail, [], List.append_nil _, .whole hdigits (by simp), rfl⟩
  | cons mark more =>
    have hnot := isDigit_of_dropWhile hrest
    rw [hrest] at hsplit
    -- the digits are all of the number, unless a mark goes on with it
    by_cases hcontinues : isMark mark = true ∧ startsWithDigit more = true
    · obtain ⟨hmark, hdigit⟩ := hcontinues
      have hfraction := List.takeWhile_append_dropWhile (p := (·.isDigit)) (l := more)
      refine ⟨true, (c :: tail).takeWhile (·.isDigit) ++ mark :: more.takeWhile (·.isDigit),
        more.dropWhile (·.isDigit), ?_,
        .marked isDigit_of_mem_takeWhile hmark isDigit_of_mem_takeWhile ?_, ?_⟩
      · rw [List.append_assoc, List.cons_append, hfraction]
        exact hsplit
      · cases more with
        | nil => cases hdigit
        | cons d more =>
          have hd : d.isDigit = true := hdigit
          rw [List.takeWhile_cons_of_pos hd]
          exact List.cons_ne_nil _ _
      · cases hafter : more.dropWhile (·.isDigit) with
        | nil => rfl
        | cons d after => simp [continuesNumber, isDigit_of_dropWhile hafter]
    · refine ⟨false, _, mark :: more, hsplit, .whole isDigit_of_mem_takeWhile ?_, ?_⟩
      · intro hnil
        -- without digits in front, the number would start with the mark
        rw [hnil, List.nil_append] at hsplit
        obtain ⟨rfl, rfl⟩ := List.cons.inj hsplit
        simp only [startsNumber, hnot, Bool.false_or, Bool.and_eq_true] at h
        exact hcontinues h
      · rw [continuesNumber, hnot]
        simpa using hcontinues

theorem numeral_ne_nil {marked : Bool} {text : List Char} (h : Numeral marked text) :
    text ≠ [] := by
  cases h with
  | whole _ hne => exact hne
  | marked _ _ _ _ => simp

theorem startsNumber_of_numeral {marked : Bool} {c : Char} {tail : List Char}
    (h : Numeral marked (c :: tail)) (rest : List Char) : startsNumber c (tail ++ rest) = true := by
  generalize htext : c :: tail = text at h
  cases h with
  | whole hdigits _ =>
    rw [startsNumber, hdigits c (htext ▸ List.mem_cons_self ..)]
    rfl
  | @marked whole fraction mark hwhole hmark hfraction hne =>
    cases whole with
    | nil =>
      obtain ⟨rfl, rfl⟩ := List.cons.inj htext
      rw [startsNumber, hmark, startsWithDigit_append hfraction hne]
      exact Bool.or_true _
    | cons d whole =>
      obtain ⟨rfl, -⟩ := List.cons.inj htext
      rw [startsNumber, hwhole c (List.mem_cons_self ..)]
      rfl

/-! ### Single tokens -/

theorem isBlank_of_single? {c : Char} {token : Token} (h : single? c = some token) :
    isBlank c = false := by
  unfold single? at h
  split at h <;> first | rfl | cases h

/-- No other token starts like a number. -/
theorem head_of_startsNumber {c : Char} {tail : List Char} (h : startsNumber c tail = true) :
    isBlank c = false ∧ single? c = none ∧ c ≠ '[' := by
  have hc : c.isDigit = true ∨ isMark c = true := by
    simp only [startsNumber, Bool.or_eq_true, Bool.and_eq_true] at h
    exact h.imp_right And.left
  rcases hc with hdigit | hmark
  · refine ⟨isBlank_of_isDigit hdigit, ?_, ?_⟩
    · unfold single?
      split <;> first | rfl | cases hdigit
    · rintro rfl
      cases hdigit
  · simp only [isMark, Bool.or_eq_true, beq_iff_eq] at hmark
    rcases hmark with rfl | rfl <;> decide

theorem takeWhile_name {name : List Char} (h : ∀ c ∈ name, c ≠ ']') (rest : List Char) :
    (name ++ ']' :: rest).takeWhile (· != ']') = name := by
  rw [List.takeWhile_append_of_pos fun c hc => bne_iff_ne.2 (h c hc)]
  exact List.append_nil name

/-- **The token that a text begins with is read.** -/
theorem lexToken_of_lexes {cs rest : List Char} {token : Token} (h : Lexes cs token rest)
    (position : Nat) :
    ∃ c tail, cs = c :: tail ∧ isBlank c = false ∧
      ∃ lexeme, lexToken position c tail = .ok lexeme ∧ lexeme.token = token ∧
        lexeme.rest = rest := by
  cases h with
  | @symbol c _ _ hsymbol =>
    refine ⟨c, rest, rfl, isBlank_of_single? hsymbol, ?_⟩
    rw [lexToken, hsymbol]
    exact ⟨_, rfl, rfl, rfl⟩
  | @reference name _ field hname hfield =>
    refine ⟨'[', name ++ ']' :: rest, rfl, rfl, ?_⟩
    -- the name ends at the first closing bracket
    have htake := takeWhile_name hname rest
    have hlength : name.length ≠ (name ++ ']' :: rest).length := by
      simp
    have hdrop : (name ++ ']' :: rest).drop (name.length + 1) = rest := by
      simp
    show ∃ lexeme, lexReference position (name ++ ']' :: rest) = .ok lexeme ∧ _
    unfold lexReference
    simp only [htake, if_neg hlength, hfield, hdrop]
    exact ⟨_, rfl, rfl, rfl⟩
  | @number marked text _ value hnumeral hstop hvalue =>
    cases text with
    | nil => exact absurd rfl (numeral_ne_nil hnumeral)
    | cons c tail =>
      have hstarts := startsNumber_of_numeral hnumeral rest
      obtain ⟨hblank, hsingle, hbracket⟩ := head_of_startsNumber hstarts
      refine ⟨c, tail ++ rest, rfl, hblank, ?_⟩
      have hspan : spanNumber false (c :: (tail ++ rest)) = (c :: tail, rest) :=
        spanNumber_numeral hnumeral hstop
      simp only [lexToken, hsingle, if_neg hbracket, dif_pos hstarts, lexNumber, hspan, hvalue]
      exact ⟨_, rfl, rfl, rfl⟩

/-- Up to the first closing bracket, where there is one. -/
theorem takeWhile_append_closing {tail : List Char}
    (h : (tail.takeWhile (· != ']')).length ≠ tail.length) :
    tail.takeWhile (· != ']') ++ ']' :: tail.drop ((tail.takeWhile (· != ']')).length + 1) =
      tail := by
  induction tail with
  | nil => exact absurd rfl h
  | cons c tail ih =>
    by_cases hc : c = ']'
    · subst hc
      rw [List.takeWhile_cons_of_neg (by decide)]
      rfl
    · have htake : (c :: tail).takeWhile (· != ']') = c :: tail.takeWhile (· != ']') :=
        List.takeWhile_cons_of_pos (by simpa using hc)
      rw [htake] at h ⊢
      have hrest := ih fun heq => h (congrArg (· + 1) heq)
      exact congrArg (c :: ·) hrest

theorem lexes_of_lexReference {position : Nat} {tail : List Char} {lexeme : Lexeme tail}
    (h : lexReference position tail = .ok lexeme) :
    Lexes ('[' :: tail) lexeme.token lexeme.rest := by
  unfold lexReference at h
  simp only at h
  split at h
  · cases h
  · next hclosed =>
    split at h
    · cases h
    · next field hfield =>
      cases h
      have hname : ∀ c ∈ tail.takeWhile (· != ']'), c ≠ ']' := by
        intro c hc
        exact bne_iff_ne.1 (List.all_eq_true.1 List.all_takeWhile c hc)
      have hlexes := @Lexes.reference _
        (tail.drop ((tail.takeWhile (· != ']')).length + 1)) field hname hfield
      rw [takeWhile_append_closing hclosed] at hlexes
      exact hlexes

theorem lexes_of_lexNumber {position : Nat} {c : Char} {tail : List Char} {lexeme : Lexeme tail}
    {hstarts : startsNumber c tail = true} (h : lexNumber position c tail hstarts = .ok lexeme) :
    Lexes (c :: tail) lexeme.token lexeme.rest := by
  obtain ⟨marked, text, rest, htext, hnumeral, hstop⟩ := exists_numeral hstarts
  have hspan : spanNumber false (c :: tail) = (text, rest) :=
    htext ▸ spanNumber_numeral hnumeral hstop
  unfold lexNumber at h
  simp only [hspan] at h
  split at h
  · cases h
  · next value hvalue =>
    cases h
    have hlexes := Lexes.number hnumeral hstop hvalue
    rw [htext] at hlexes
    exact hlexes

/-- **A token that is read is what the text begins with.** -/
theorem lexes_of_lexToken {position : Nat} {c : Char} {tail : List Char} {lexeme : Lexeme tail}
    (h : lexToken position c tail = .ok lexeme) :
    Lexes (c :: tail) lexeme.token lexeme.rest := by
  unfold lexToken at h
  split at h
  · next token hsymbol =>
    cases h
    exact .symbol hsymbol
  · split at h
    · next hbracket =>
      subst hbracket
      exact lexes_of_lexReference h
    · split at h
      · next hstarts => exact lexes_of_lexNumber h
      · cases h

/-! ### The scan -/

/-- **The scan comes to the end of a text exactly where the text is made of tokens**, and finds
those. -/
theorem tokenizes_iff {cs : List Char} {tokens : List Token} (position : Nat) :
    Tokenizes cs tokens ↔
      (∃ last, (scan position cs).ending = .finish last) ∧
        (scan position cs).tokens.map (·.token) = tokens := by
  constructor
  · intro h
    induction h generalizing position with
    | done =>
      rw [scan]
      exact ⟨⟨position, rfl⟩, rfl⟩
    | blank hblank _ ih =>
      rw [scan, if_pos hblank]
      exact ih _
    | token htoken _ ih =>
      obtain ⟨c, tail, rfl, hblank, lexeme, hlex, rfl, rfl⟩ := lexToken_of_lexes htoken position
      obtain ⟨hending, htokens⟩ := ih (position + lexeme.width)
      rw [scan, if_neg (by rw [hblank]; decide), hlex]
      exact ⟨hending, congrArg _ htokens⟩
  · rintro ⟨⟨last, hlast⟩, rfl⟩
    -- along the scan; one that stops at a fault has no end
    fun_induction scan position cs with
    | case1 position => exact .done
    | case2 position c tail hblank ih => exact .blank hblank (ih hlast)
    | case3 position c tail hblank error herror => cases hlast
    | case4 position c tail hblank lexeme hlex ih =>
      exact .token (lexes_of_lexToken hlex) (ih hlast)

/-- A text without tokens is white space. -/
theorem isBlank_of_tokenizes_nil {cs : List Char} (h : Tokenizes cs []) :
    ∀ c ∈ cs, isBlank c = true := by
  generalize htokens : ([] : List Token) = tokens at h
  induction h with
  | done => exact fun _ hc => absurd hc List.not_mem_nil
  | blank hblank _ ih =>
    intro c hc
    rcases List.mem_cons.1 hc with rfl | hc
    · exact hblank
    · exact ih htokens c hc
  | token _ _ _ => cases htokens

theorem Tokenizes.unique {cs : List Char} {tokens tokens' : List Token} (h : Tokenizes cs tokens)
    (h' : Tokenizes cs tokens') : tokens = tokens' := by
  rw [← ((tokenizes_iff 0).1 h).2, ← ((tokenizes_iff 0).1 h').2]

end PeriodSheet.Scan
