import Mathlib.Data.List.Nodup
import PeriodSheet.Formula.Eval
import PeriodSheet.Proofs.FieldName
import PeriodSheet.Proofs.NameMap
import PeriodSheet.Proofs.Text.ByteOrder

/-!
# Sources of values

A formula is evaluated against raw values under free-form texts, raw values under field names, or
numbers under field names.  Free-form texts come in any order, and several may mean one field.

* **`Source.Reads`** tells what a reference reads from free-form texts, without an order among them:
  the text spelled exactly like it, else the one with the smallest bytes of those that mean it.
* **`Source.ofTexts_eq_iff`**: this is what a reference stands for.
* **`Source.agree_ofTexts`**: where no two of the texts mean one field, and every value that is not
  blank is a number, the three sources agree.
-/

namespace PeriodSheet

open Text

namespace Source

/-! ### The entry of a reference -/

/-- What a reference reads from raw values under free-form texts. -/
inductive Reads (entries : List (String × String)) (name : FieldName) : Operand → Prop where
  /-- A text is spelled exactly like the reference. -/
  | verbatim {raw : String} (hmem : (name.spelling, raw) ∈ entries) :
      Reads entries name (.ofRaw raw)
  /-- None is, and of those that mean it this one has the smallest bytes. -/
  | smallest {text raw : String} (hother : ∀ entry ∈ entries, entry.1 ≠ name.spelling)
      (hmem : (text, raw) ∈ entries) (htext : name.isSpelledBy text = true)
      (hsmallest : ∀ entry ∈ entries, name.isSpelledBy entry.1 = true →
        bytes text ≤ bytes entry.1) :
      Reads entries name (.ofRaw raw)
  /-- None means it. -/
  | missing (hnone : ∀ entry ∈ entries, name.isSpelledBy entry.1 = false) :
      Reads entries name .missing

/-- Of two entries, one is kept that comes after neither. -/
theorem exists_smaller (best entry : String × String) :
    ∃ kept, smaller (some best) entry = some kept ∧ (kept = best ∨ kept = entry) ∧
      kept.1 ≤ best.1 ∧ kept.1 ≤ entry.1 := by
  unfold smaller
  by_cases h : entry.1 < best.1
  · exact ⟨entry, if_pos h, .inr rfl, le_of_lt h, le_rfl⟩
  · exact ⟨best, if_neg h, .inl rfl, le_rfl, not_lt.1 h⟩

theorem exists_foldl_smaller (best : String × String) (entries : List (String × String)) :
    ∃ kept, entries.foldl smaller (some best) = some kept ∧ (kept = best ∨ kept ∈ entries) ∧
      kept.1 ≤ best.1 ∧ ∀ entry ∈ entries, kept.1 ≤ entry.1 := by
  induction entries generalizing best with
  | nil => exact ⟨best, rfl, .inl rfl, le_rfl, List.forall_mem_nil _⟩
  | cons entry rest ih =>
    obtain ⟨first, hfirst, hfrom, hbest, hentry⟩ := exists_smaller best entry
    obtain ⟨kept, hkept, hmem, hle, hrest⟩ := ih first
    refine ⟨kept, ?_, ?_, hle.trans hbest, List.forall_mem_cons.2 ⟨hle.trans hentry, hrest⟩⟩
    · rw [List.foldl_cons, hfirst, hkept]
    · grind

theorem isSpelledBy_spelling (name : FieldName) : name.isSpelledBy name.spelling = true :=
  FieldName.isSpelledBy_iff.2 ⟨name, name.parse?_spelling, name.same_refl⟩

/-- What a reference stands for is what it reads. -/
theorem reads_ofTexts (entries : List (String × String)) (name : FieldName) :
    Reads entries name (ofTexts entries name) := by
  unfold ofTexts entryOf?
  cases hfind : entries.find? (·.1 == name.spelling) with
  | some entry =>
    obtain ⟨text, raw⟩ := entry
    have htext : text = name.spelling := by simpa using List.find?_some hfind
    exact .verbatim (htext ▸ List.mem_of_find?_eq_some hfind)
  | none =>
    have hother : ∀ entry ∈ entries, entry.1 ≠ name.spelling := by simpa using hfind
    dsimp only
    cases hmeaning : entries.filter fun entry => name.isSpelledBy entry.1 with
    | nil => exact .missing (by simpa using hmeaning)
    | cons first rest =>
      obtain ⟨⟨text, raw⟩, hkept, hmem, hle, hrest⟩ := exists_foldl_smaller first rest
      -- the entry that is kept is one of those that mean the field, and comes after none of them
      have hfilter : ∀ entry, entry ∈ first :: rest ↔
          entry ∈ entries ∧ name.isSpelledBy entry.1 = true := fun entry => by
        rw [← hmeaning, List.mem_filter]
      obtain ⟨hmem, htext⟩ := (hfilter _).1 (List.mem_cons.2 hmem)
      rw [List.foldl_cons, smaller, hkept]
      refine .smallest hother hmem htext fun entry hentry hname => bytes_le_iff.2 ?_
      rcases List.mem_cons.1 ((hfilter entry).2 ⟨hentry, hname⟩) with rfl | hentry
      · exact hle
      · exact hrest entry hentry

section

variable {entries : List (String × String)} {name : FieldName}

/-- Under distinct texts, a reference reads one thing. -/
theorem Reads.unique (hkeys : (entries.map (·.1)).Nodup) {a b : Operand}
    (ha : Reads entries name a) (hb : Reads entries name b) : a = b := by
  have hvalue : ∀ {text raw raw' : String}, (text, raw) ∈ entries → (text, raw') ∈ entries →
      raw = raw' := by
    intro text raw raw' h h'
    exact congrArg Prod.snd (List.inj_on_of_nodup_map hkeys h h' rfl)
  have hnever : ∀ {text raw : String}, (∀ entry ∈ entries, name.isSpelledBy entry.1 = false) →
      (text, raw) ∈ entries → ¬ name.isSpelledBy text = true := fun {text raw} hnone hmem => by
    rw [hnone (text, raw) hmem]
    decide
  cases ha with
  | verbatim hmem =>
    cases hb with
    | verbatim hmem' => rw [hvalue hmem hmem']
    | smallest hother => exact absurd rfl (hother _ hmem)
    | missing hnone => exact absurd (isSpelledBy_spelling name) (hnever hnone hmem)
  | smallest hother hmem htext hsmallest =>
    cases hb with
    | verbatim hmem' => exact absurd rfl (hother _ hmem')
    | smallest _ hmem' htext' hsmallest' =>
      have hle := bytes_le_iff.1 (hsmallest _ hmem' htext')
      have hge := bytes_le_iff.1 (hsmallest' _ hmem htext)
      obtain rfl := le_antisymm hle hge
      rw [hvalue hmem hmem']
    | missing hnone => exact absurd htext (hnever hnone hmem)
  | missing hnone =>
    cases hb with
    | verbatim hmem => exact absurd (isSpelledBy_spelling name) (hnever hnone hmem)
    | smallest _ hmem htext => exact absurd htext (hnever hnone hmem)
    | missing => rfl

theorem ofTexts_eq_iff (hkeys : (entries.map (·.1)).Nodup) {operand : Operand} :
    ofTexts entries name = operand ↔ Reads entries name operand := by
  constructor
  · rintro rfl
    exact reads_ofTexts entries name
  · exact (reads_ofTexts entries name).unique hkeys

/-- What a reference reads does not depend on the order of the entries. -/
theorem Reads.of_perm {order : List (String × String)} (hperm : order.Perm entries)
    {operand : Operand} (h : Reads order name operand) : Reads entries name operand := by
  have hmem : ∀ entry, entry ∈ order ↔ entry ∈ entries := fun _ => hperm.mem_iff
  cases h with
  | verbatim h => exact .verbatim ((hmem _).1 h)
  | smallest hother h htext hsmallest =>
    exact .smallest (fun entry hentry => hother entry ((hmem entry).2 hentry)) ((hmem _).1 h) htext
      fun entry hentry => hsmallest entry ((hmem entry).2 hentry)
  | missing hnone => exact .missing fun entry hentry => hnone entry ((hmem entry).2 hentry)

theorem Reads.exists_entry {operand : Operand} (h : Reads entries name operand) :
    (∃ text raw, (text, raw) ∈ entries ∧ name.isSpelledBy text = true ∧ operand = .ofRaw raw) ∨
      (∀ entry ∈ entries, name.isSpelledBy entry.1 = false) ∧ operand = .missing := by
  cases h with
  | verbatim hmem => exact .inl ⟨_, _, hmem, isSpelledBy_spelling name, rfl⟩
  | smallest _ hmem htext => exact .inl ⟨_, _, hmem, htext, rfl⟩
  | missing hnone => exact .inr ⟨hnone, rfl⟩

end

/-! ### Maps of the entries -/

/-- The raw values of those texts that are field names. -/
def named (entries : List (String × String)) : List (FieldName × String) :=
  entries.filterMap fun entry => (FieldName.parse? entry.1).map fun name => (name, entry.2)

/-- The numbers among raw values that are not blank. -/
def numbers (entries : List (FieldName × String)) : List (FieldName × Decimal) :=
  (entries.filter fun entry => !isBlankText entry.2).filterMap fun entry =>
    (Decimal.ofEntered? entry.2).map fun value => (entry.1, value)

section

variable {entries : List (String × String)}

theorem mem_named {name : FieldName} {raw : String} :
    (name, raw) ∈ named entries ↔ ∃ text, (text, raw) ∈ entries ∧
      FieldName.parse? text = some name := by
  simp only [named, List.mem_filterMap, Option.map_eq_some_iff, Prod.mk.injEq]
  grind

theorem ofRaw_eq_ofTexts
    (hnames : (named entries).Pairwise fun a b => a.1.same b.1 = false) (name : FieldName) :
    ofRaw (.ofList (named entries)) name = ofTexts entries name := by
  unfold ofRaw
  rcases (reads_ofTexts entries name).exists_entry with
    ⟨text, raw, hmem, htext, hoperand⟩ | ⟨hnone, hoperand⟩
  · obtain ⟨other, hother, hsame⟩ := FieldName.isSpelledBy_iff.1 htext
    have hnamed : (other, raw) ∈ named entries := mem_named.2 ⟨text, hmem, hother⟩
    rw [NameMap.get?_ofList_of_mem hnames hnamed ((other.same_comm name).trans hsame), hoperand]
  · rw [NameMap.get?_ofList_of_forall, hoperand]
    rintro ⟨other, raw⟩ hother
    obtain ⟨text, hmem, htext⟩ := mem_named.1 hother
    rw [Bool.eq_false_iff]
    intro hsame
    have hmeans : name.isSpelledBy text = true :=
      FieldName.isSpelledBy_iff.2 ⟨other, htext, (name.same_comm other).trans hsame⟩
    rw [hnone _ hmem] at hmeans
    cases hmeans

end

section

variable {entries : List (FieldName × String)}

theorem mem_numbers {name : FieldName} {value : Decimal} :
    (name, value) ∈ numbers entries ↔ ∃ raw, (name, raw) ∈ entries ∧ isBlankText raw = false ∧
      Decimal.ofEntered? raw = some value := by
  simp only [numbers, List.mem_filterMap, List.mem_filter, Option.map_eq_some_iff, Prod.mk.injEq]
  grind

theorem pairwise_numbers (hnames : entries.Pairwise fun a b => a.1.same b.1 = false) :
    (numbers entries).Pairwise fun a b => a.1.same b.1 = false := by
  refine List.pairwise_filterMap.2 ((hnames.filter _).imp fun {a b} hdiffer e he e' he' => ?_)
  obtain ⟨_, -, rfl⟩ := Option.map_eq_some_iff.1 he
  obtain ⟨_, -, rfl⟩ := Option.map_eq_some_iff.1 he'
  exact hdiffer

theorem ofNumbers_eq_ofRaw (hnames : entries.Pairwise fun a b => a.1.same b.1 = false)
    (hvalues : ∀ entry ∈ entries, isBlankText entry.2 = false →
      (Decimal.ofEntered? entry.2).isSome = true) (name : FieldName) :
    ofNumbers (.ofList (numbers entries)) name = ofRaw (.ofList entries) name := by
  unfold ofNumbers ofRaw
  by_cases hfound : ∃ entry ∈ entries, entry.1.same name = true
  · obtain ⟨⟨other, raw⟩, hmem, hsame⟩ := hfound
    have hraw := NameMap.get?_ofList_of_mem hnames hmem hsame
    rw [hraw]
    cases hblank : isBlankText raw with
    | true =>
      have hnone : (NameMap.ofList (numbers entries)).get? name = none := by
        refine NameMap.get?_ofList_of_forall fun ⟨other', value⟩ hvalue => ?_
        obtain ⟨raw', hmem', hblank', -⟩ := mem_numbers.1 hvalue
        rw [Bool.eq_false_iff]
        intro hsame'
        -- its raw value would be the blank one
        have hraw' := NameMap.get?_ofList_of_mem hnames hmem' hsame'
        obtain rfl : raw = raw' := Option.some.inj (hraw.symm.trans hraw')
        rw [hblank] at hblank'
        cases hblank'
      simp [hnone, Operand.ofRaw, hblank]
    | false =>
      obtain ⟨value, hvalue⟩ := Option.isSome_iff_exists.1 (hvalues _ hmem hblank)
      have hnumber : (other, value) ∈ numbers entries := mem_numbers.2 ⟨raw, hmem, hblank, hvalue⟩
      rw [NameMap.get?_ofList_of_mem (pairwise_numbers hnames) hnumber hsame]
      simp [Operand.ofRaw, hblank, hvalue]
  · have hother : ∀ entry ∈ entries, entry.1.same name = false := by simpa using hfound
    rw [NameMap.get?_ofList_of_forall hother, NameMap.get?_ofList_of_forall]
    rintro ⟨other, value⟩ hvalue
    obtain ⟨raw, hmem, -⟩ := mem_numbers.1 hvalue
    exact hother _ hmem

end

/-! ### Agreement -/

/-- Two sources agree where every formula comes to the same value or error against both, and every
text that is evaluated does. -/
def Agree (a b : Source) : Prop :=
  (∀ formula : Formula, formula.eval a = formula.eval b) ∧
    ∀ text, Formula.evalText a text = Formula.evalText b text

theorem Agree.of_forall {a b : Source} (h : ∀ name, a name = b name) : Agree a b := by
  obtain rfl : a = b := funext h
  exact ⟨fun _ => rfl, fun _ => rfl⟩

/-- **All sources of values agree.**  What a formula comes to against raw values under distinct
free-form texts does not depend on their order: a reference reads the one that is spelled exactly
like it, or else the one with the smallest bytes of those that mean it.  Where no two of the texts
are names of one field, the raw values under these names come to the same; and where every raw value
that is not blank is a number, so do the numbers under these names. -/
theorem agree_ofTexts {entries : List (String × String)} (hkeys : (entries.map (·.1)).Nodup) :
    (∀ order, order.Perm entries → Agree (ofTexts order) (ofTexts entries)) ∧
      (∀ name operand, ofTexts entries name = operand ↔ Reads entries name operand) ∧
      ((named entries).Pairwise (fun a b => a.1.same b.1 = false) →
        Agree (ofRaw (.ofList (named entries))) (ofTexts entries) ∧
        ((∀ entry ∈ named entries, isBlankText entry.2 = false →
            (Decimal.ofEntered? entry.2).isSome = true) →
          Agree (ofNumbers (.ofList (numbers (named entries)))) (ofTexts entries))) := by
  refine ⟨fun order hperm => .of_forall fun name => ?_, fun name operand => ofTexts_eq_iff hkeys,
    fun hnames => ⟨.of_forall (ofRaw_eq_ofTexts hnames), fun hvalues => .of_forall fun name => ?_⟩⟩
  · exact ((reads_ofTexts order name).of_perm hperm).unique hkeys (reads_ofTexts entries name)
  · exact (ofNumbers_eq_ofRaw hnames hvalues name).trans (ofRaw_eq_ofTexts hnames name)

/-- Texts with white space around them, one with a blank value and one that is no field name, are
read in another case; and of the texts that mean a field, none spelled like it, a capital one comes
first. -/
theorem agree_ofTexts_payments :
    let entries := [(" paid", "10,50"), ("ÉTÉ", " \t"), ("[x]", "none"), ("Due\u00A0", "-3.5")]
    let text := "[PAID] - [été] * 2 + [due]"
    let result : Except FormulaError Decimal := .ok ⟨false, 700, 2, by decide, by decide⟩
    (Formula.evalText (ofTexts entries.reverse) text = result ∧
      Formula.evalText (ofRaw (.ofList (named entries))) text = result ∧
      Formula.evalText (ofNumbers (.ofList (numbers (named entries)))) text = result) ∧
    ∃ name, FieldName.parse? " Ab" = some name ∧
      Reads [("aB", "1"), ("AB ", "2"), ("ab", "3")] name
        (.number ⟨false, 2, 0, by decide, by decide⟩) := by
  intro entries text result
  obtain ⟨horder, -, hnames⟩ := @agree_ofTexts entries (by decide)
  obtain ⟨hraw, hnumbers⟩ := hnames (by decide +kernel)
  have hresult : Formula.evalText (ofTexts entries) text = result := by decide +kernel
  refine ⟨⟨((horder _ entries.reverse_perm).2 text).trans hresult, (hraw.2 text).trans hresult,
    ((hnumbers (by decide +kernel)).2 text).trans hresult⟩, ?_⟩
  obtain ⟨-, hreads, -⟩ :=
    @agree_ofTexts [("aB", "1"), ("AB ", "2"), ("ab", "3")] (by decide)
  have hoperand : (FieldName.parse? " Ab").map (ofTexts [("aB", "1"), ("AB ", "2"), ("ab", "3")]) =
      some (.number ⟨false, 2, 0, by decide, by decide⟩) := by decide +kernel
  obtain ⟨name, hname, hread⟩ := Option.map_eq_some_iff.1 hoperand
  exact ⟨name, hname, (hreads name _).1 hread⟩

end Source

end PeriodSheet
