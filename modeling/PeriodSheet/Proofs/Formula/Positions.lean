import PeriodSheet.Proofs.Formula.Reading

/-!
# Places in the text of a formula

Which characters a formula is written with, and where in its text the errors stand.

A place is the number of UTF-8 bytes before it.  Every token starts at a boundary of characters
outside of references, and so do the end and the fault of the scan (`located_scan`).  An error of a
reader stands at a token or where the scan ended (`readExpression_stands`).  So an error of a
formula points into its text (`locates_of_parse`), and a character that is reported as forbidden is
the one that stands there.
-/

namespace PeriodSheet

open Text Decimal

namespace Scan

/-- A character that may stand outside of references. -/
def isAllowed (c : Char) : Bool :=
  isBlank c || c.isDigit || ['.', ',', '+', '-', '*', '/', '(', ')'].contains c

/-- Whether a text ends within a reference: after an opening bracket that is not closed. -/
def InReference (before : List Char) : Prop :=
  ∃ front name, before = front ++ '[' :: name ∧ ']' ∉ name

/-- Whether a character that follows some others is outside of references and does not open one. -/
def IsOutside (before : List Char) (c : Char) : Prop :=
  ¬ InReference before ∧ c ≠ '['

/-- Only characters that are allowed stand outside of references. -/
def AllowsOnly (text : List Char) : Prop :=
  ∀ before c after, text = before ++ c :: after → IsOutside before c → isAllowed c = true

/-! ### Allowed characters -/

theorem isAllowed_of_isDigit {c : Char} (h : c.isDigit = true) : isAllowed c = true := by
  simp [isAllowed, h]

theorem isAllowed_of_isBlank {c : Char} (h : isBlank c = true) : isAllowed c = true := by
  simp [isAllowed, h]

theorem isAllowed_of_isMark {c : Char} (h : isMark c = true) : isAllowed c = true := by
  rcases isMark_iff.1 h with rfl | rfl <;> decide

theorem isAllowed_of_single? {c : Char} {token : Token} (h : single? c = some token) :
    isAllowed c = true := by
  unfold single? at h
  split at h <;> first | decide | cases h

/-- What is not white space, a digit, a mark or a symbol is not allowed. -/
theorem isAllowed_eq_false {c : Char} (hblank : isBlank c = false) (hdigit : c.isDigit = false)
    (hmark : isMark c = false) (hsingle : single? c = none) : isAllowed c = false := by
  rw [isAllowed, hblank, hdigit, Bool.false_or, Bool.false_or, ← Bool.not_eq_true,
    List.contains_iff_mem]
  intro hmem
  have hcases : c = '.' ∨ c = ',' ∨ c = '+' ∨ c = '-' ∨ c = '*' ∨ c = '/' ∨ c = '(' ∨ c = ')' := by
    simpa using hmem
  rcases hcases with rfl | rfl | rfl | rfl | rfl | rfl | rfl | rfl
  · cases hmark
  · cases hmark
  all_goals cases hsingle

/-! ### References -/

theorem bracket_mem_of_inReference {before : List Char} (h : InReference before) :
    '[' ∈ before := by
  obtain ⟨front, name, rfl, -⟩ := h
  exact List.mem_append_right _ (List.mem_cons_self ..)

/-- A text that goes on is within a reference, if one is opened in what follows, or if it was in one
that is not closed there. -/
theorem inReference_append {a b : List Char} :
    InReference (a ++ b) ↔ InReference b ∨ InReference a ∧ ']' ∉ b := by
  constructor
  · rintro ⟨front, name, heq, hname⟩
    obtain ⟨more, rfl, rfl⟩ | ⟨more, rfl, hmore⟩ := List.append_eq_append_iff.1 heq
    · exact .inl ⟨more, name, rfl, hname⟩
    · cases more with
      | nil => exact .inl ⟨[], name, hmore.symm, hname⟩
      | cons c more =>
        obtain ⟨rfl, rfl⟩ := List.cons.inj hmore
        exact .inr ⟨⟨front, more, rfl, fun h => hname (List.mem_append_left _ h)⟩,
          fun h => hname (List.mem_append_right _ h)⟩
  · rintro (⟨front, name, rfl, hname⟩ | ⟨⟨front, name, rfl, hname⟩, hb⟩)
    · exact ⟨a ++ front, name, (List.append_assoc ..).symm, hname⟩
    · refine ⟨front, name ++ b, List.append_assoc .., fun h => ?_⟩
      exact (List.mem_append.1 h).elim hname hb

/-- A reference in brackets is closed at its end. -/
theorem not_inReference_reference (name : List Char) :
    ¬ InReference ('[' :: (name ++ [']'])) := by
  rw [← List.cons_append, inReference_append]
  rintro (h | ⟨-, h⟩)
  · exact absurd (bracket_mem_of_inReference h) (by decide)
  · exact h (List.mem_cons_self ..)

theorem allowsOnly_nil : AllowsOnly [] := by
  intro before c after h
  cases before <;> cases h

theorem AllowsOnly.append {a b : List Char} (ha : AllowsOnly a) (hb : AllowsOnly b) :
    AllowsOnly (a ++ b) := by
  rintro before c after heq ⟨hbefore, hc⟩
  obtain ⟨more, rfl, hmore⟩ | ⟨more, hmore, hrest⟩ := List.append_eq_append_iff.1 heq
  · exact hb more c after hmore ⟨fun h => hbefore (inReference_append.2 (.inl h)), hc⟩
  · cases more with
    | nil =>
      rw [List.append_nil] at hmore
      exact hb [] c after hrest.symm ⟨fun h => absurd (bracket_mem_of_inReference h) (by simp), hc⟩
    | cons d more =>
      obtain ⟨rfl, rfl⟩ := List.cons.inj hrest
      exact ha before c more hmore ⟨hbefore, hc⟩

/-- No character of a reference in brackets is outside of references. -/
theorem allowsOnly_reference {name : List Char} (h : ∀ c ∈ name, c ≠ ']') :
    AllowsOnly ('[' :: (name ++ [']'])) := by
  rintro before c after heq ⟨hbefore, hc⟩
  cases before with
  | nil => exact absurd (List.cons.inj heq).1.symm hc
  | cons d before =>
    obtain ⟨rfl, hrest⟩ := List.cons.inj heq
    refine absurd ⟨[], before, rfl, fun hclosing => ?_⟩ hbefore
    -- what stands before the last character is of the name, and so it does not close the reference
    obtain ⟨more, rfl, hlast⟩ | ⟨more, rfl, -⟩ := List.append_eq_append_iff.1 hrest
    · cases more with
      | nil => exact h _ (List.append_nil name ▸ hclosing) rfl
      | cons d more => simp at hlast
    · exact h _ (List.mem_append_left _ hclosing) rfl

/-! ### What a token takes -/

/-- Some characters at the front of a text, after which it is outside of references. -/
structure Takes (front : List Char) : Prop where
  closed : ¬ InReference front
  allowsOnly : AllowsOnly front

theorem Takes.of_forall {front : List Char} (h : ∀ c ∈ front, isAllowed c = true) :
    Takes front := by
  constructor
  · intro hopen
    exact absurd (h _ (bracket_mem_of_inReference hopen)) (by decide)
  · rintro before c after rfl -
    exact h c (List.mem_append_right _ (List.mem_cons_self ..))

theorem Takes.singleton {c : Char} (h : isAllowed c = true) : Takes [c] :=
  .of_forall fun d hd => by rwa [List.mem_singleton.1 hd]

theorem isAllowed_of_numeral {marked : Bool} {text : List Char} (h : Numeral marked text) :
    ∀ c ∈ text, isAllowed c = true := by
  cases h with
  | whole hdigits _ => exact fun c hc => isAllowed_of_isDigit (hdigits c hc)
  | marked hwhole hmark hfraction _ =>
    intro c hc
    rcases List.mem_append.1 hc with hc | hc
    · exact isAllowed_of_isDigit (hwhole c hc)
    · rcases List.mem_cons.1 hc with rfl | hc
      · exact isAllowed_of_isMark hmark
      · exact isAllowed_of_isDigit (hfraction c hc)

/-- The characters that a token takes. -/
theorem exists_takes_of_lexes {cs rest : List Char} {token : Token} (h : Lexes cs token rest) :
    ∃ front, cs = front ++ rest ∧ Takes front := by
  cases h with
  | @symbol c _ _ hsymbol => exact ⟨[c], rfl, .singleton (isAllowed_of_single? hsymbol)⟩
  | @reference name rest field hname hfield =>
    refine ⟨'[' :: (name ++ [']']), ?_, not_inReference_reference name,
      allowsOnly_reference hname⟩
    rw [List.cons_append, List.append_assoc]
    rfl
  | number hnumeral _ _ => exact ⟨_, rfl, .of_forall (isAllowed_of_numeral hnumeral)⟩

/-- **A text that is made of tokens has only allowed characters outside of references.** -/
theorem allowsOnly_of_tokenizes {cs : List Char} {tokens : List Token} (h : Tokenizes cs tokens) :
    AllowsOnly cs := by
  induction h with
  | done => exact allowsOnly_nil
  | @blank c rest _ hblank _ ih =>
    exact (Takes.singleton (isAllowed_of_isBlank hblank)).allowsOnly.append ih
  | token htoken _ ih =>
    obtain ⟨front, rfl, hfront⟩ := exists_takes_of_lexes htoken
    exact hfront.allowsOnly.append ih

/-! ### Bytes -/

theorem foldl_utf8Size (cs : List Char) (n : Nat) :
    cs.foldl (fun n c => n + c.utf8Size) n = n + byteLength cs := by
  induction cs generalizing n with
  | nil => rfl
  | cons c cs ih =>
    rw [byteLength, List.foldl_cons, List.foldl_cons, ih, ih (0 + c.utf8Size)]
    omega

theorem byteLength_cons (c : Char) (cs : List Char) :
    byteLength (c :: cs) = c.utf8Size + byteLength cs := by
  rw [byteLength, List.foldl_cons, foldl_utf8Size, Nat.zero_add]

theorem byteLength_append (a b : List Char) :
    byteLength (a ++ b) = byteLength a + byteLength b := by
  induction a with
  | nil => exact (Nat.zero_add _).symm
  | cons c a ih => rw [List.cons_append, byteLength_cons, byteLength_cons, ih, Nat.add_assoc]

theorem utf8ByteSize_ofList (cs : List Char) :
    (String.ofList cs).utf8ByteSize = byteLength cs := by
  induction cs with
  | nil => rfl
  | cons c cs ih =>
    rw [String.ofList_cons, String.utf8ByteSize_append, ih, byteLength_cons,
      String.utf8ByteSize_singleton]

theorem utf8Size_of_single? {c : Char} {token : Token} (h : single? c = some token) :
    c.utf8Size = 1 := by
  unfold single? at h
  split at h <;> first | rfl | cases h

theorem spanNumber_append (marked : Bool) (cs : List Char) :
    (spanNumber marked cs).1 ++ (spanNumber marked cs).2 = cs := by
  fun_induction spanNumber marked cs <;> simp_all

theorem byteLength_lexReference {position : Nat} {tail : List Char} {lexeme : Lexeme tail}
    (h : lexReference position tail = .ok lexeme) :
    lexeme.width + byteLength lexeme.rest = byteLength ('[' :: tail) := by
  unfold lexReference at h
  simp only at h
  split at h
  · cases h
  · next hclosed =>
    split at h
    · cases h
    · cases h
      have hsplit := congrArg byteLength (takeWhile_append_closing hclosed)
      have hopening : '['.utf8Size = 1 := rfl
      have hclosing : ']'.utf8Size = 1 := rfl
      rw [byteLength_append, byteLength_cons, hclosing] at hsplit
      rw [byteLength_cons, hopening, ← hsplit]
      show byteLength _ + 2 + byteLength (tail.drop _) = _
      omega

theorem byteLength_lexNumber {position : Nat} {c : Char} {tail : List Char} {lexeme : Lexeme tail}
    {hstarts : startsNumber c tail = true} (h : lexNumber position c tail hstarts = .ok lexeme) :
    lexeme.width + byteLength lexeme.rest = byteLength (c :: tail) := by
  unfold lexNumber at h
  simp only at h
  split at h
  · cases h
  · cases h
    rw [← byteLength_append, spanNumber_append]

/-- The width of a token is how many bytes it takes. -/
theorem byteLength_lexToken {position : Nat} {c : Char} {tail : List Char} {lexeme : Lexeme tail}
    (h : lexToken position c tail = .ok lexeme) :
    lexeme.width + byteLength lexeme.rest = byteLength (c :: tail) := by
  unfold lexToken at h
  split at h
  · next token hsymbol =>
    cases h
    rw [byteLength_cons, utf8Size_of_single? hsymbol]
  · split at h
    · next hbracket =>
      subst hbracket
      exact byteLength_lexReference h
    · split at h
      · next hstarts => exact byteLength_lexNumber h
      · cases h

/-! ### Places -/

/-- A text goes on with the rest after a number of bytes, outside of references. -/
def Reaches (text : List Char) (position : Nat) (rest : List Char) : Prop :=
  ∃ before, text = before ++ rest ∧ byteLength before = position ∧ ¬ InReference before

theorem reaches_zero (text : List Char) : Reaches text 0 text :=
  ⟨[], rfl, rfl, fun h => absurd (bracket_mem_of_inReference h) (List.not_mem_nil)⟩

theorem Reaches.advance {text front rest : List Char} {position : Nat}
    (h : Reaches text position (front ++ rest)) (hclosed : ¬ InReference front) :
    Reaches text (position + byteLength front) rest := by
  obtain ⟨before, rfl, rfl, hbefore⟩ := h
  refine ⟨before ++ front, (List.append_assoc ..).symm, byteLength_append .., ?_⟩
  rw [inReference_append]
  exact fun hopen => hopen.elim hclosed fun h => hbefore h.1

/-- An error points into a text: at a place outside of references, and one about a character at that
very character, which is not allowed, or is a mark without a digit after it. -/
inductive Locates (text : List Char) : FormulaError → Prop where
  | forbidden {position : Nat} {c : Char} {after : List Char}
      (hreach : Reaches text position (c :: after)) (hopening : c ≠ '[')
      (hreason : isAllowed c = false ∨ isMark c = true ∧ startsWithDigit after = false) :
      Locates text (.forbidden c.toString position)
  | malformed {position : Nat} {rest : List Char} (error : FormError)
      (hreach : Reaches text position rest) : Locates text (.malformed error position)

/-- A fault of the scan at a token stands at its first character. -/
theorem locates_of_lexToken {text tail : List Char} {position : Nat} {c : Char}
    {error : FormulaError} (hreach : Reaches text position (c :: tail)) (hblank : isBlank c = false)
    (h : lexToken position c tail = .error error) : Locates text error := by
  unfold lexToken at h
  split at h
  · cases h
  · next hsingle =>
    split at h
    · unfold lexReference at h
      simp only at h
      split at h
      · cases h
        exact .malformed _ hreach
      · split at h
        · cases h
          exact .malformed _ hreach
        · cases h
    · next hopening =>
      split at h
      · unfold lexNumber at h
        simp only at h
        split at h
        · cases h
          exact .malformed _ hreach
        · cases h
      · next hstarts =>
        cases h
        simp only [startsNumber, Bool.not_eq_true, Bool.or_eq_false_iff] at hstarts
        obtain ⟨hdigit, hnot⟩ := hstarts
        refine .forbidden hreach hopening ?_
        cases hmark : isMark c with
        | false => exact .inl (isAllowed_eq_false hblank hdigit hmark hsingle)
        | true =>
          rw [hmark, Bool.true_and] at hnot
          exact .inr ⟨rfl, hnot⟩

/-- The tokens of a scan, its end and its fault stand at places of a text. -/
structure Located (text : List Char) (scan : Scan) : Prop where
  tokens : ∀ placed ∈ scan.tokens, ∃ rest, Reaches text placed.position rest
  finish : ∀ position, scan.ending = .finish position → ∃ rest, Reaches text position rest
  fault : ∀ error, scan.ending = .fault error → Locates text error

/-- **A scan keeps to its text.** -/
theorem located_scan {text cs : List Char} {position : Nat} (h : Reaches text position cs) :
    Located text (scan position cs) := by
  -- along the scan, which goes on after the characters that were taken
  fun_induction scan position cs with
  | case1 position =>
    refine ⟨fun _ hplaced => absurd hplaced List.not_mem_nil, ?_, fun _ hfault => by cases hfault⟩
    rintro last ⟨⟩
    exact ⟨[], h⟩
  | case2 position c tail hblank ih =>
    have hclosed := (Takes.singleton (isAllowed_of_isBlank hblank)).closed
    have hnext := Reaches.advance h hclosed
    rw [byteLength_cons] at hnext
    exact ih hnext
  | case3 position c tail hblank error herror =>
    refine ⟨fun _ hplaced => absurd hplaced List.not_mem_nil, fun _ hfinish => (by cases hfinish),
      ?_⟩
    rintro found ⟨⟩
    exact locates_of_lexToken h (Bool.eq_false_of_not_eq_true hblank) herror
  | case4 position c tail hblank lexeme hlex ih =>
    obtain ⟨front, hsplit, hfront⟩ := exists_takes_of_lexes (lexes_of_lexToken hlex)
    have hwidth : byteLength front = lexeme.width := by
      have hbytes := byteLength_lexToken hlex
      rw [hsplit, byteLength_append] at hbytes
      omega
    have hnext := (hsplit ▸ h).advance hfront.closed
    rw [hwidth] at hnext
    obtain ⟨htokens, hfinish, hfault⟩ := ih hnext
    refine ⟨fun placed hplaced => ?_, hfinish, hfault⟩
    rcases List.mem_cons.1 hplaced with rfl | hplaced
    · exact ⟨c :: tail, h⟩
    · exact htokens placed hplaced

end Scan

namespace Formula

/-! ### Where a reader stops -/

/-- An error stands before some last tokens of those that are read. -/
def StandsAt (ending : Ending) (tokens : List Placed) (error : FormulaError) : Prop :=
  ∃ rest kind, rest <:+ tokens ∧ error = errorAt ending rest kind

theorem StandsAt.mono {ending : Ending} {inner outer : List Placed} {error : FormulaError}
    (h : StandsAt ending inner error) (hsuffix : inner <:+ outer) :
    StandsAt ending outer error := by
  obtain ⟨rest, kind, hrest, rfl⟩ := h
  exact ⟨rest, kind, hrest.trans hsuffix, rfl⟩

theorem standsAt_errorAt (ending : Ending) (tokens : List Placed)
    (kind : Option Token → FormError) : StandsAt ending tokens (errorAt ending tokens kind) :=
  ⟨tokens, kind, List.suffix_refl _, rfl⟩

theorem enter_stands {ending : Ending} {depth : Nat} {tokens : List Placed} {error : FormulaError}
    (h : enter ending depth tokens = .error error) : StandsAt ending tokens error := by
  unfold enter at h
  split at h
  · obtain rfl := Except.error.inj h
    exact standsAt_errorAt _ _ fun _ => .tooDeep
  · split at h
    · cases h
    · obtain rfl := Except.error.inj h
      exact standsAt_errorAt _ _ fun _ => .tooDeep

/-- What a phrase leaves over comes last. -/
theorem Phrase.Spans.suffix {category : Category} {phrase : Phrase category} {depth : Nat}
    {tokens rest : List Placed} (h : phrase.Spans depth tokens rest) : rest <:+ tokens := by
  obtain ⟨placed, -, rfl⟩ := precedes_iff.1 h.precedes
  exact List.suffix_append placed rest

section
variable {ending : Ending} {depth : Nat} {tokens : List Placed} {error : FormulaError}

theorem suffix_of_readExpression {reading : Reading tokens}
    (h : readExpression ending depth tokens = .ok reading) : reading.rest <:+ tokens := by
  obtain ⟨phrase, hspans, -⟩ := readExpression_derived h
  exact hspans.suffix

theorem suffix_of_readTerm {reading : Reading tokens}
    (h : readTerm ending depth tokens = .ok reading) : reading.rest <:+ tokens := by
  obtain ⟨phrase, hspans, -⟩ := readTerm_derived h
  exact hspans.suffix

theorem suffix_of_readFactor {reading : Reading tokens}
    (h : readFactor ending depth tokens = .ok reading) : reading.rest <:+ tokens := by
  obtain ⟨phrase, hspans, -⟩ := readFactor_derived h
  exact hspans.suffix

/-! Which part of a reader failed, where one did. -/

theorem readExpression_eq_error (h : readExpression ending depth tokens = .error error) :
    readTerm ending depth tokens = .error error ∨
      ∃ first, readTerm ending depth tokens = .ok first ∧
        readTerms ending depth tokens first = .error error := by
  rw [readExpression] at h
  split at h
  · next hterm => exact .inl (hterm.trans h)
  · next first hfirst => exact .inr ⟨first, hfirst, h⟩

theorem readTerms_eq_error {left : Reading tokens}
    (h : readTerms ending depth tokens left = .error error) :
    ∃ next rest, left.rest = next :: rest ∧
      (readTerm ending depth rest = .error error ∨
        ∃ (right : Reading rest) (joined : Reading tokens),
          readTerm ending depth rest = .ok right ∧ joined.rest = right.rest ∧
          readTerms ending depth tokens joined = .error error) := by
  rw [readTerms] at h
  split at h
  · cases h
  · next next rest hrest =>
    refine ⟨next, rest, hrest, ?_⟩
    split at h
    · cases h
    · split at h
      · next hright =>
        cases h
        exact .inl hright
      · next right hright => exact .inr ⟨right, _, hright, rfl, h⟩

theorem readTerm_eq_error (h : readTerm ending depth tokens = .error error) :
    readFactor ending depth tokens = .error error ∨
      ∃ first, readFactor ending depth tokens = .ok first ∧
        readFactors ending depth tokens first = .error error := by
  rw [readTerm] at h
  split at h
  · next hfactor => exact .inl (hfactor.trans h)
  · next first hfirst => exact .inr ⟨first, hfirst, h⟩

theorem readFactors_eq_error {left : Reading tokens}
    (h : readFactors ending depth tokens left = .error error) :
    ∃ next rest, left.rest = next :: rest ∧
      (readFactor ending depth rest = .error error ∨
        ∃ (right : Reading rest) (joined : Reading tokens),
          readFactor ending depth rest = .ok right ∧ joined.rest = right.rest ∧
          readFactors ending depth tokens joined = .error error) := by
  rw [readFactors] at h
  split at h
  · cases h
  · next next rest hrest =>
    refine ⟨next, rest, hrest, ?_⟩
    split at h
    · cases h
    · split at h
      · next hright =>
        cases h
        exact .inl hright
      · next right hright => exact .inr ⟨right, _, hright, rfl, h⟩

theorem readFactor_eq_error (h : readFactor ending depth tokens = .error error) :
    readOperand ending depth tokens = .error error ∨
      ∃ next rest, tokens = next :: rest ∧
        (enter ending depth rest = .error error ∨
          readFactor ending (depth + 1) rest = .error error) := by
  rw [readFactor.eq_def] at h
  split at h
  case h_3 => exact .inl h
  -- after a minus as after a plus
  all_goals
    refine .inr ⟨_, _, rfl, ?_⟩
    split at h
    · next henter =>
      cases h
      exact .inl henter
    · split at h
      · next hinner =>
        cases h
        exact .inr hinner
      · cases h

theorem readOperand_eq_error (h : readOperand ending depth tokens = .error error) :
    StandsAt ending tokens error ∨
      ∃ next rest, tokens = next :: rest ∧
        (enter ending depth rest = .error error ∨
          readExpression ending (depth + 1) rest = .error error ∨
          ∃ inner : Reading rest, readExpression ending (depth + 1) rest = .ok inner ∧
            StandsAt ending inner.rest error) := by
  rw [readOperand.eq_def] at h
  split at h
  · cases h
  · cases h
  · next position rest =>
    refine .inr ⟨_, rest, rfl, ?_⟩
    split at h
    · next henter =>
      cases h
      exact .inl henter
    · split at h
      · next hinner =>
        cases h
        exact .inr (.inl hinner)
      · next inner hinner =>
        refine .inr (.inr ⟨inner, hinner, ?_⟩)
        split at h
        · cases h
        · cases h
          exact standsAt_errorAt ..
  · cases h
    exact .inl (standsAt_errorAt ..)

end

-- The readers call one another, and so do the proofs: by the measure of the readers.
mutual

/-- **An error of the reader stands at a token that it was given, or where the scan ended.** -/
theorem readExpression_stands {ending : Ending} {depth : Nat} {tokens : List Placed}
    {error : FormulaError} (h : readExpression ending depth tokens = .error error) :
    StandsAt ending tokens error := by
  obtain hterm | ⟨first, hfirst, hmore⟩ := readExpression_eq_error h
  · exact readTerm_stands hterm
  · exact (readTerms_stands hmore).mono (suffix_of_readTerm hfirst)
termination_by 4 * tokens.length + 3
decreasing_by
  · omega
  · have := first.shorter
    omega

theorem readTerms_stands {ending : Ending} {depth : Nat} {tokens : List Placed}
    {left : Reading tokens} {error : FormulaError}
    (h : readTerms ending depth tokens left = .error error) :
    StandsAt ending left.rest error := by
  obtain ⟨next, rest, hrest, hfailed⟩ := readTerms_eq_error h
  have hsuffix : rest <:+ left.rest := hrest ▸ List.suffix_cons next rest
  obtain hright | ⟨right, joined, hright, hjoined, hmore⟩ := hfailed
  · exact (readTerm_stands hright).mono hsuffix
  · have hover : joined.rest <:+ rest := hjoined ▸ suffix_of_readTerm hright
    exact (readTerms_stands hmore).mono (hover.trans hsuffix)
termination_by 4 * left.rest.length + 3
decreasing_by
  · rw [hrest, List.length_cons]
    omega
  · have := right.shorter
    rw [hjoined, hrest, List.length_cons]
    omega

theorem readTerm_stands {ending : Ending} {depth : Nat} {tokens : List Placed}
    {error : FormulaError} (h : readTerm ending depth tokens = .error error) :
    StandsAt ending tokens error := by
  obtain hfactor | ⟨first, hfirst, hmore⟩ := readTerm_eq_error h
  · exact readFactor_stands hfactor
  · exact (readFactors_stands hmore).mono (suffix_of_readFactor hfirst)
termination_by 4 * tokens.length + 2
decreasing_by
  · omega
  · have := first.shorter
    omega

theorem readFactors_stands {ending : Ending} {depth : Nat} {tokens : List Placed}
    {left : Reading tokens} {error : FormulaError}
    (h : readFactors ending depth tokens left = .error error) :
    StandsAt ending left.rest error := by
  obtain ⟨next, rest, hrest, hfailed⟩ := readFactors_eq_error h
  have hsuffix : rest <:+ left.rest := hrest ▸ List.suffix_cons next rest
  obtain hright | ⟨right, joined, hright, hjoined, hmore⟩ := hfailed
  · exact (readFactor_stands hright).mono hsuffix
  · have hover : joined.rest <:+ rest := hjoined ▸ suffix_of_readFactor hright
    exact (readFactors_stands hmore).mono (hover.trans hsuffix)
termination_by 4 * left.rest.length + 2
decreasing_by
  · rw [hrest, List.length_cons]
    omega
  · have := right.shorter
    rw [hjoined, hrest, List.length_cons]
    omega

theorem readFactor_stands {ending : Ending} {depth : Nat} {tokens : List Placed}
    {error : FormulaError} (h : readFactor ending depth tokens = .error error) :
    StandsAt ending tokens error := by
  obtain hoperand | ⟨next, rest, htokens, henter | hinner⟩ := readFactor_eq_error h
  · exact readOperand_stands hoperand
  · exact (enter_stands henter).mono (htokens ▸ List.suffix_cons next rest)
  · exact (readFactor_stands hinner).mono (htokens ▸ List.suffix_cons next rest)
termination_by 4 * tokens.length + 1
decreasing_by
  · omega
  · rw [htokens, List.length_cons]
    omega

theorem readOperand_stands {ending : Ending} {depth : Nat} {tokens : List Placed}
    {error : FormulaError} (h : readOperand ending depth tokens = .error error) :
    StandsAt ending tokens error := by
  obtain hstands | ⟨next, rest, htokens, hfailed⟩ := readOperand_eq_error h
  · exact hstands
  · have hsuffix : rest <:+ tokens := htokens ▸ List.suffix_cons next rest
    obtain henter | hinner | ⟨inner, hinner, hstands⟩ := hfailed
    · exact (enter_stands henter).mono hsuffix
    · exact (readExpression_stands hinner).mono hsuffix
    · exact hstands.mono ((suffix_of_readExpression hinner).trans hsuffix)
termination_by 4 * tokens.length
decreasing_by
  rw [htokens, List.length_cons]
  omega

end

/-! ### Errors of a formula -/

theorem locates_of_standsAt {text : List Char} {scan : Scan} (hscan : scan.Located text)
    {error : FormulaError} (h : StandsAt scan.ending scan.tokens error) :
    Scan.Locates text error := by
  obtain ⟨rest, kind, hsuffix, rfl⟩ := h
  cases rest with
  | cons next rest =>
    obtain ⟨after, hreach⟩ := hscan.tokens next (hsuffix.subset (List.mem_cons_self ..))
    exact .malformed _ hreach
  | nil =>
    cases hending : scan.ending with
    | finish position =>
      obtain ⟨after, hreach⟩ := hscan.finish position hending
      exact .malformed _ hreach
    | fault error => exact hscan.fault error hending

/-- **The errors of a formula point into its text.** -/
theorem locates_of_parse {source : String} {error : FormulaError}
    (h : parse source = .error error) : Scan.Locates source.toList error := by
  have hstart := Scan.reaches_zero source.toList
  have hscan := Scan.located_scan hstart
  unfold parse at h
  split at h
  · next found hfound =>
    obtain rfl := Except.error.inj h
    unfold ofScan at hfound
    split at hfound
    · cases hfound
      exact .malformed _ hstart
    · split at hfound
      · next hread =>
        cases hfound
        exact locates_of_standsAt hscan (readExpression_stands hread)
      · next reading hreading =>
        split at hfound
        · cases hfound
        · cases hfound
          exact locates_of_standsAt hscan
            ((standsAt_errorAt ..).mono (suffix_of_readExpression hreading))
  · cases h

theorem isValid_of_reaches {source : String} {position : Nat} {rest : List Char}
    (h : Scan.Reaches source.toList position rest) :
    (String.Pos.Raw.mk position).IsValid source := by
  obtain ⟨before, htext, rfl, -⟩ := h
  rw [String.Pos.Raw.isValid_iff_exists_append]
  refine ⟨String.ofList before, String.ofList rest, ?_, ?_⟩
  · rw [← String.ofList_append, ← htext, String.ofList_toList]
  · rw [String.rawEndPos, Scan.utf8ByteSize_ofList]

/-- **The characters of a formula, and the places of its errors.**  Outside of references, a text
that reads as a formula holds white space, digits, marks and symbols only.  A text that does not has
an error at one of its boundaries of characters.  A character that is reported as forbidden is the
one that stands there, outside of references; it is none of those, or is a mark that no digit
follows. -/
theorem parse_places (source : String) :
    match parse source with
    | .ok _ => ∀ before c after, source.toList = before ++ c :: after →
        Scan.IsOutside before c → Scan.isAllowed c = true
    | .error (.forbidden token position) =>
        (String.Pos.Raw.mk position).IsValid source ∧
        ∃ before c after, source.toList = before ++ c :: after ∧
          (String.ofList before).utf8ByteSize = position ∧ token = c.toString ∧
          Scan.IsOutside before c ∧
          (Scan.isAllowed c = false ∨ isMark c = true ∧ Scan.startsWithDigit after = false)
    | .error (.malformed _ position) =>
        position ≤ source.utf8ByteSize ∧ (String.Pos.Raw.mk position).IsValid source
    | .error _ => False := by
  cases hparse : parse source with
  | ok formula =>
    obtain ⟨phrase, htokens, -, -⟩ := exists_phrase_of_parse hparse
    exact Scan.allowsOnly_of_tokenizes htokens
  | error error =>
    cases locates_of_parse hparse with
    | @forbidden position c after hreach hopening hreason =>
      refine ⟨isValid_of_reaches hreach, ?_⟩
      obtain ⟨before, htext, hposition, hbefore⟩ := hreach
      exact ⟨before, c, after, htext, (Scan.utf8ByteSize_ofList before).trans hposition, rfl,
        ⟨hbefore, hopening⟩, hreason⟩
    | malformed kind hreach =>
      have hvalid := isValid_of_reaches hreach
      exact ⟨hvalid.le_rawEndPos, hvalid⟩

example : parse "[é] % 2" = .error (.forbidden "%" 5) := by decide +kernel

example : parse " \u00a0(1 + 2" = .error (.malformed (.closingExpected none) 9) := by
  decide +kernel

end Formula

end PeriodSheet
