import PeriodSheet.Proofs.FieldName
import PeriodSheet.Proofs.Formula.Reading
import PeriodSheet.Proofs.NameMap

/-!
# References to fields

A reference is the name of a field in brackets.  Of the brackets the closing one ends it and neither
may be in the name, so that a text in brackets is a reference exactly where it reads as a name
(`parse_enclosed_iff`).  Together with what a text means as a name (`FieldName.isSpelledBy_iff`)
this makes the link from formulas to data: a field is found by the reference that it gives itself,
and by any text in brackets that means it (`references_resolve`).
-/

namespace PeriodSheet

open Text

namespace Scan

/-- A name in brackets is one token. -/
theorem tokenizes_reference {name : List Char} {field : FieldName} (hname : ∀ c ∈ name, c ≠ ']')
    (hfield : FieldName.parse (String.ofList name) = .ok field) :
    Tokenizes ('[' :: (name ++ [']'])) [.field field] :=
  .token (.reference hname hfield) .done

/-- Nothing but a reference begins with an opening bracket. -/
theorem exists_reference_of_tokenizes {tail : List Char} {tokens : List Token}
    (h : Tokenizes ('[' :: tail) tokens) :
    ∃ name rest field more, tail = name ++ ']' :: rest ∧
      FieldName.parse (String.ofList name) = .ok field ∧ tokens = .field field :: more ∧
      Tokenizes rest more := by
  generalize htext : '[' :: tail = text at h
  cases h with
  | done => cases htext
  | blank hblank _ =>
    obtain ⟨rfl, -⟩ := List.cons.inj htext
    cases hblank
  | token htoken hrest =>
    cases htoken with
    | symbol hsymbol =>
      obtain ⟨rfl, -⟩ := List.cons.inj htext
      cases hsymbol
    | reference _ hfield =>
      exact ⟨_, _, _, _, (List.cons.inj htext).2, hfield, rfl, hrest⟩
    | @number _ digits _ _ hnumeral _ _ =>
      cases digits with
      | nil => exact absurd rfl (numeral_ne_nil hnumeral)
      | cons c digits =>
        have hstarts := startsNumber_of_numeral hnumeral []
        exact absurd (List.cons.inj htext).1.symm (head_of_startsNumber hstarts).2.2

/-- Where only white space follows a closing bracket, it is the last one. -/
theorem eq_of_closing {text name rest : List Char} (h : text ++ [']'] = name ++ ']' :: rest)
    (hblank : ∀ c ∈ rest, isBlank c = true) : text = name := by
  rcases rest.eq_nil_or_concat with rfl | ⟨init, last, rfl⟩
  · exact List.append_cancel_right h
  · -- the bracket that ends the text would be white space
    have hsplit : text ++ [']'] = (name ++ ']' :: init) ++ [last] := by simpa using h
    obtain ⟨-, hlast⟩ := List.append_inj' hsplit rfl
    obtain rfl := List.singleton_inj.1 hlast
    exact absurd (hblank ']' (by simp)) (by decide)

end Scan

/-- Trimming takes away nothing but white space. -/
theorem Text.mem_trim_iff {c : Char} (hc : isBlank c = false) (s : String) :
    c ∈ (trim s).toList ↔ c ∈ s.toList := by
  have hkept : ∀ cs : List Char, c ∈ cs.filter (!isBlank ·) ↔ c ∈ cs := fun cs => by
    simp [List.mem_filter, hc]
  rw [trim, String.toList_ofList, ← hkept, Decimal.filter_trimChars, hkept]

/-- A text that reads as a name has no closing bracket, not even where it is trimmed. -/
theorem FieldName.closing_notMem_of_parse {text : String} {name : FieldName}
    (h : parse text = .ok name) : ']' ∉ text.toList := by
  rw [← mem_trim_iff (by decide), ← parse?_eq_some_iff.1 (parse_eq_ok.1 h)]
  exact name.isSpelling.2.2.2

namespace Formula

/-- The phrase of a reference. -/
def Phrase.ofField (name : FieldName) : Phrase .expression :=
  .expression (.term (.operand (.field name)) .noProduct) .noSum

/-- Terms that follow an operation leave it an operation. -/
theorem Phrase.meaning_sums_ne_field (left right : Expr) (operation : Operation)
    (name : FieldName) :
    (sums : Phrase .sums) → sums.meaning (.binary left operation right) ≠ .field name
  | .noSum => nofun
  | .sum _ _ rest => meaning_sums_ne_field _ _ _ name rest

/-- Factors that follow an operation leave it an operation. -/
theorem Phrase.meaning_products_ne_field (left right : Expr) (operation : Operation)
    (name : FieldName) :
    (products : Phrase .products) → products.meaning (.binary left operation right) ≠ .field name
  | .noProduct => nofun
  | .product _ _ rest => meaning_products_ne_field _ _ _ name rest

/-- A phrase that begins with a reference and stands for one is nothing more. -/
theorem Phrase.eq_ofField {phrase : Phrase .expression} {found name : FieldName}
    {more : List Token} (htokens : phrase.tokens = .field found :: more)
    (hmeaning : phrase.meaning = .field name) : phrase = .ofField name := by
  cases phrase with
  | expression first sums =>
    cases sums with
    | sum _ _ rest => exact absurd hmeaning (meaning_sums_ne_field _ _ _ name rest)
    | noSum =>
      cases first with
      | term factor products =>
        cases products with
        | product _ _ rest => exact absurd hmeaning (meaning_products_ne_field _ _ _ name rest)
        | noProduct =>
          -- signs and parentheses do not begin with a reference
          cases factor with
          | signed _ _ => simp [tokens] at htokens
          | operand operand =>
            cases operand with
            | number _ => simp [tokens] at htokens
            | parentheses _ => simp [tokens] at htokens
            | field own =>
              obtain rfl : own = name := Expr.field.inj hmeaning
              rfl

/-- **A text in brackets is a reference exactly where it reads as a name**, and refers to that. -/
theorem parse_enclosed_iff {text : String} {name : FieldName} :
    parse ("[" ++ text ++ "]") = .ok ⟨"[" ++ text ++ "]", .field name⟩ ↔
      FieldName.parse text = .ok name := by
  have htext : ("[" ++ text ++ "]").toList = '[' :: (text.toList ++ [']']) := by simp
  constructor
  · intro h
    obtain ⟨phrase, hphrase, -, hmeaning⟩ := exists_phrase_of_parse h
    rw [htext] at hphrase
    obtain ⟨front, rest, field, more, hsplit, hfield, htokens, hrest⟩ :=
      Scan.exists_reference_of_tokenizes hphrase
    rw [Phrase.eq_ofField htokens hmeaning] at htokens
    obtain ⟨hhead, rfl⟩ := List.cons.inj htokens
    obtain rfl := Token.field.inj hhead
    rw [← Scan.eq_of_closing hsplit (Scan.isBlank_of_tokenizes_nil hrest),
      String.ofList_toList] at hfield
    exact hfield
  · intro h
    have hclosing : ∀ c ∈ text.toList, c ≠ ']' := fun c hc heq =>
      FieldName.closing_notMem_of_parse h (heq ▸ hc)
    have htokens := Scan.tokenizes_reference hclosing (by rwa [String.ofList_toList])
    rw [← htext] at htokens
    exact parse_of_phrase (.ofField name) htokens (Nat.zero_le _)

end Formula

namespace FieldName

/-- **References resolve to their fields.**  The reference of a field reads as a formula that is
this field, with the spelling that it was typed with.  A text means the field exactly where it reads
as the name of the same field, and exactly where it does so as a formula, in brackets. -/
theorem references_resolve (name : FieldName) :
    Formula.parse name.reference = .ok ⟨name.reference, .field name⟩ ∧
    ∀ text : String,
      (name.isSpelledBy text = true ↔
        ∃ other, parse text = .ok other ∧ other.same name = true) ∧
      (name.isSpelledBy text = true ↔
        ∃ other, Formula.parse ("[" ++ text ++ "]") = .ok ⟨"[" ++ text ++ "]", .field other⟩ ∧
          other.same name = true) := by
  refine ⟨Formula.parse_enclosed_iff.2 name.parse_spelling, fun text => ?_⟩
  have hmeans : name.isSpelledBy text = true ↔
      ∃ other, parse text = .ok other ∧ other.same name = true := by
    simp only [isSpelledBy_iff, parse_eq_ok, same_comm name]
  refine ⟨hmeans, hmeans.trans (exists_congr fun other => and_congr_left fun _ => ?_)⟩
  exact Formula.parse_enclosed_iff.symm

/-- Lower-casing tells a sigma at the end of a word from one within it. -/
example : (parse? "ΟΔΟΣ").map (fun name => (name.isSpelledBy " οδος ", name.isSpelledBy "οδοσ")) =
    some (true, false) := by
  decide +kernel

end FieldName

end PeriodSheet
