import Mathlib.Data.List.Count
import PeriodSheet.Proofs.Decimal.Reading

/-!
# Spellings of one number

Ways to type a number that are read alike, whether they are read as a number or not.  What the two
marks mean is told from the last of them (`canonicalMarks_of_last`): either the text has that mark
only and has it several times, and then no mark counts (`unmarked`), or that mark is the decimal one
(`pointed`).  Three freedoms follow.

* The marks may be exchanged (`ofEntered?_exchangeMarks`).
* White space may stand anywhere (`ofEntered?_of_sameButBlank`).
* The digits before the decimal mark may be grouped (`ofEntered?_grouped`), and so may those of a
  number without fraction, if two marks show it (`ofEntered?_grouped_whole`).
-/

namespace PeriodSheet.Decimal

open PeriodSheet.Text

/-! ### What the marks mean -/

/-- The characters with the decimal mark as a point and without the other mark. -/
def pointed (decimal : Char) (cs : List Char) : List Char :=
  cs.filterMap fun c => if c = decimal then some '.' else if isMark c then none else some c

/-- The characters without any mark. -/
def unmarked (cs : List Char) : List Char :=
  cs.filter (!isMark ·)

theorem unmarked_append (a b : List Char) : unmarked (a ++ b) = unmarked a ++ unmarked b :=
  List.filter_append a b

theorem pointed_append (decimal : Char) (a b : List Char) :
    pointed decimal (a ++ b) = pointed decimal a ++ pointed decimal b :=
  List.filterMap_append

theorem pointed_cons_self (decimal : Char) (cs : List Char) :
    pointed decimal (decimal :: cs) = '.' :: pointed decimal cs :=
  List.filterMap_cons_some (if_pos rfl)

theorem isMark_iff_eq_or_eq {mark c : Char} (h : isMark mark = true) :
    isMark c = true ↔ c = mark ∨ c = otherMark mark := by
  rcases isMark_iff.1 h with rfl | rfl
  · exact isMark_iff
  · exact isMark_iff.trans or_comm

theorem otherMark_ne {mark : Char} (h : isMark mark = true) : otherMark mark ≠ mark := by
  rcases isMark_iff.1 h with rfl | rfl
  · decide
  · decide

/-- **The last mark decides.**  Where it is the only kind of mark and occurs several times it groups
digits; otherwise it is the decimal mark. -/
theorem canonicalMarks_of_last {cs : List Char} {mark : Char}
    (h : cs.reverse.find? isMark = some mark) :
    canonicalMarks cs =
      if otherMark mark ∉ cs ∧ 1 < cs.count mark then unmarked cs else pointed mark cs := by
  have hmark : isMark mark = true := List.find?_some h
  have hne := otherMark_ne hmark
  rw [canonicalMarks, h]
  dsimp only
  by_cases hother : otherMark mark ∈ cs
  · rw [if_pos (List.contains_iff_mem.2 hother), if_neg fun hboth => hboth.1 hother, pointed,
      ← List.filterMap_eq_map, List.filterMap_filter]
    refine List.filterMap_congr fun c _ => ?_
    have hc := isMark_iff_eq_or_eq (c := c) hmark
    grind
  · rw [if_neg fun hcontains => hother (List.contains_iff_mem.1 hcontains)]
    have hc : ∀ c ∈ cs, isMark c = true ↔ c = mark := by
      intro c hmem
      have hnot : c ≠ otherMark mark := fun heq => hother (heq ▸ hmem)
      rw [isMark_iff_eq_or_eq hmark, or_iff_left hnot]
    by_cases hcount : 1 < cs.count mark
    · rw [if_pos hcount, if_pos ⟨hother, hcount⟩]
      refine List.filter_congr fun c hmem => ?_
      have := hc c hmem
      grind
    · rw [if_neg hcount, if_neg fun hboth => hcount hboth.2, pointed, ← List.filterMap_eq_map]
      refine List.filterMap_congr fun c hmem => ?_
      have := hc c hmem
      grind

/-! ### The other mark for each -/

/-- The comma for the point and the point for the comma. -/
def exchangeMark (c : Char) : Char :=
  if c = ',' then '.' else if c = '.' then ',' else c

/-- A text with its commas and points exchanged. -/
def exchangeMarks (s : String) : String :=
  String.ofList (s.toList.map exchangeMark)

theorem exchangeMark_exchangeMark (c : Char) : exchangeMark (exchangeMark c) = c := by
  unfold exchangeMark
  grind

theorem exchangeMark_injective : Function.Injective exchangeMark :=
  Function.LeftInverse.injective exchangeMark_exchangeMark

theorem exchangeMark_of_isMark {mark : Char} (h : isMark mark = true) :
    exchangeMark mark = otherMark mark := by
  rcases isMark_iff.1 h with rfl | rfl
  · rfl
  · rfl

theorem exchangeMark_of_not_isMark {c : Char} (h : isMark c = false) : exchangeMark c = c := by
  have hc := isMark_iff (c := c)
  unfold exchangeMark
  grind

@[simp]
theorem isMark_exchangeMark (c : Char) : isMark (exchangeMark c) = isMark c := by
  cases h : isMark c with
  | true =>
    rw [exchangeMark_of_isMark h]
    exact (isMark_iff_eq_or_eq h).2 (.inr rfl)
  | false => rw [exchangeMark_of_not_isMark h, h]

@[simp]
theorem isBlank_exchangeMark (c : Char) : isBlank (exchangeMark c) = isBlank c := by
  cases h : isMark c with
  | true =>
    rcases isMark_iff.1 h with rfl | rfl
    · decide
    · decide
  | false => rw [exchangeMark_of_not_isMark h]

theorem unmarked_exchangeMark (cs : List Char) :
    unmarked (cs.map exchangeMark) = unmarked cs := by
  rw [unmarked, List.filter_map]
  have hkept : ∀ c ∈ cs.filter (!isMark ·), exchangeMark c = c := by
    intro c hc
    exact exchangeMark_of_not_isMark (by simpa using (List.mem_filter.1 hc).2)
  have hsame : ((!isMark ·) ∘ exchangeMark) = (!isMark ·) := by
    funext c
    rw [Function.comp_apply, isMark_exchangeMark]
  rw [hsame, List.map_congr_left hkept, List.map_id', unmarked]

theorem pointed_exchangeMark (decimal : Char) (cs : List Char) :
    pointed (exchangeMark decimal) (cs.map exchangeMark) = pointed decimal cs := by
  rw [pointed, List.filterMap_map]
  refine List.filterMap_congr fun c _ => ?_
  rw [Function.comp_apply, isMark_exchangeMark]
  simp only [exchangeMark_injective.eq_iff]
  cases h : isMark c with
  | true => rfl
  | false => rw [exchangeMark_of_not_isMark h]

theorem canonicalMarks_exchangeMark (cs : List Char) :
    canonicalMarks (cs.map exchangeMark) = canonicalMarks cs := by
  have hfind : (cs.map exchangeMark).reverse.find? isMark =
      (cs.reverse.find? isMark).map exchangeMark := by
    have hsame : isMark ∘ exchangeMark = isMark := funext isMark_exchangeMark
    rw [← List.map_reverse, List.find?_map, hsame]
  cases hlast : cs.reverse.find? isMark with
  | none =>
    have hnone : ∀ c ∈ cs, isMark c = false := by
      intro c hc
      simpa using List.find?_eq_none.1 hlast c (List.mem_reverse.2 hc)
    rw [List.map_congr_left fun c hc => exchangeMark_of_not_isMark (hnone c hc), List.map_id']
  | some mark =>
    have hmark : isMark mark = true := List.find?_some hlast
    rw [hlast, Option.map_some] at hfind
    have hother : otherMark (exchangeMark mark) = exchangeMark (otherMark mark) := by
      have hmark' : isMark (otherMark mark) = true := (isMark_iff_eq_or_eq hmark).2 (.inr rfl)
      rw [← exchangeMark_of_isMark (by simpa using hmark), ← exchangeMark_of_isMark hmark]
    have hmem : exchangeMark (otherMark mark) ∈ cs.map exchangeMark ↔ otherMark mark ∈ cs :=
      List.mem_map_of_injective exchangeMark_injective
    have hcount : (cs.map exchangeMark).count (exchangeMark mark) = cs.count mark :=
      List.count_map_of_injective cs exchangeMark exchangeMark_injective mark
    rw [canonicalMarks_of_last hfind, canonicalMarks_of_last hlast, unmarked_exchangeMark,
      pointed_exchangeMark]
    simp only [hother, hmem, hcount]

/-- **The marks may be exchanged.** -/
theorem ofEntered?_exchangeMarks (s : String) : ofEntered? (exchangeMarks s) = ofEntered? s := by
  have hsame : ((!isBlank ·) ∘ exchangeMark) = (!isBlank ·) := by
    funext c
    rw [Function.comp_apply, isBlank_exchangeMark]
  rw [ofEntered?, exchangeMarks, String.toList_ofList, List.filter_map, hsame, ofEnteredChars?,
    canonicalMarks_exchangeMark, List.isEmpty_map]
  rfl

/-! ### White space -/

/-- Texts that are the same but for white space, which is inserted in either of them at any
places. -/
inductive SameButBlank : List Char → List Char → Prop
  | nil : SameButBlank [] []
  | cons (c : Char) {a b : List Char} (h : SameButBlank a b) : SameButBlank (c :: a) (c :: b)
  | insert {c : Char} (hc : isBlank c = true) {a b : List Char} (h : SameButBlank a b) :
    SameButBlank a (c :: b)
  | delete {c : Char} (hc : isBlank c = true) {a b : List Char} (h : SameButBlank a b) :
    SameButBlank (c :: a) b

theorem SameButBlank.refl (cs : List Char) : SameButBlank cs cs := by
  induction cs with
  | nil => exact .nil
  | cons c rest ih => exact .cons c ih

/-- White space at the end. -/
theorem SameButBlank.append_blank {rest : List Char} (h : ∀ c ∈ rest, isBlank c = true)
    (cs : List Char) : SameButBlank (cs ++ rest) cs := by
  induction cs with
  | nil =>
    induction rest with
    | nil => exact .nil
    | cons c rest ih =>
      exact .delete (h c List.mem_cons_self) (ih fun d hd => h d (List.mem_cons_of_mem c hd))
  | cons c cs ih => exact .cons c ih

theorem SameButBlank.filter_eq {a b : List Char} (h : SameButBlank a b) :
    a.filter (!isBlank ·) = b.filter (!isBlank ·) := by
  induction h with
  | nil => rfl
  | cons c h ih => rw [List.filter_cons, List.filter_cons, ih]
  | insert hc h ih => rw [ih, List.filter_cons_of_neg (by simp [hc])]
  | delete hc h ih => rw [← ih, List.filter_cons_of_neg (by simp [hc])]

/-- **White space may stand anywhere.** -/
theorem ofEntered?_of_sameButBlank {s t : String} (h : SameButBlank s.toList t.toList) :
    ofEntered? s = ofEntered? t := by
  rw [ofEntered?, ofEntered?, h.filter_eq]

/-! ### Groups of digits -/

/-- A sign, or none. -/
def IsSign (cs : List Char) : Prop :=
  cs = [] ∨ cs = ['+'] ∨ cs = ['-']

/-- One of the marks groups digits and the other is the decimal mark. -/
def Roles (group decimal : Char) : Prop :=
  group = ',' ∧ decimal = '.' ∨ group = '.' ∧ decimal = ','

/-- A text is made of others by inserting a mark any number of times, at any places. -/
def IsGrouped (group : Char) (cs text : List Char) : Prop :=
  text.filter (· != group) = cs

theorem roles_of_isMark {mark : Char} (h : isMark mark = true) : Roles (otherMark mark) mark := by
  rcases isMark_iff.1 h with rfl | rfl
  · exact .inr ⟨rfl, rfl⟩
  · exact .inl ⟨rfl, rfl⟩

theorem Roles.isMark_group {group decimal : Char} (h : Roles group decimal) :
    isMark group = true :=
  isMark_iff.2 (h.imp And.left And.left)

theorem Roles.isMark_decimal {group decimal : Char} (h : Roles group decimal) :
    isMark decimal = true :=
  isMark_iff.2 (h.symm.imp And.right And.right)

theorem Roles.otherMark_decimal {group decimal : Char} (h : Roles group decimal) :
    otherMark decimal = group := by
  rcases h with ⟨rfl, rfl⟩ | ⟨rfl, rfl⟩
  · rfl
  · rfl

theorem Roles.otherMark_group {group decimal : Char} (h : Roles group decimal) :
    otherMark group = decimal := by
  rcases h with ⟨rfl, rfl⟩ | ⟨rfl, rfl⟩
  · rfl
  · rfl

/-- Characters that are neither marks nor white space are read as they stand. -/
structure Steady (c : Char) : Prop where
  notMark : isMark c = false
  notBlank : isBlank c = false

theorem steady_of_isDigit {c : Char} (h : c.isDigit = true) : Steady c :=
  ⟨isMark_of_isDigit h, isBlank_of_isDigit h⟩

theorem IsSign.steady {sign : List Char} (h : IsSign sign) {c : Char} (hc : c ∈ sign) :
    Steady c := by
  rcases h with rfl | rfl | rfl
  · cases hc
  · rw [List.mem_singleton.1 hc]
    exact ⟨by decide, by decide⟩
  · rw [List.mem_singleton.1 hc]
    exact ⟨by decide, by decide⟩

theorem isNumberText_append {sign body : List Char} (hsign : IsSign sign)
    (hbody : ∀ c ∈ body, isNumberChar c = true) : isNumberText (sign ++ body) = true := by
  have hall : body.all isNumberChar = true := List.all_eq_true.2 hbody
  rcases hsign with rfl | rfl | rfl
  · cases body with
    | nil => rfl
    | cons c rest =>
      rw [List.all_cons, Bool.and_eq_true] at hall
      rw [List.nil_append, isNumberText, hall.1, hall.2]
      rfl
  · exact hall
  · exact hall

theorem Steady.ne {c mark : Char} (h : Steady c) (hmark : isMark mark = true) : c ≠ mark := by
  rintro rfl
  rw [h.notMark] at hmark
  cases hmark

/-! Steady characters are kept whatever the marks mean. -/

theorem unmarked_of_steady {cs : List Char} (h : ∀ c ∈ cs, Steady c) : unmarked cs = cs :=
  List.filter_eq_self.2 fun c hc => by rw [(h c hc).notMark, Bool.not_false]

theorem pointed_of_steady {decimal : Char} (hmark : isMark decimal = true) {cs : List Char}
    (h : ∀ c ∈ cs, Steady c) : pointed decimal cs = cs := by
  conv_rhs => rw [← List.filterMap_some (l := cs)]
  refine List.filterMap_congr fun c hc => ?_
  rw [if_neg ((h c hc).ne hmark), (h c hc).notMark]
  rfl

/-- The last mark is the one that only steady characters follow. -/
theorem find?_reverse_mark {mark : Char} (hmark : isMark mark = true) (front : List Char)
    {back : List Char} (hback : ∀ c ∈ back, Steady c) :
    (front ++ mark :: back).reverse.find? isMark = some mark := by
  have hnone : back.reverse.find? isMark = none := by
    rw [List.find?_eq_none]
    intro c hc
    simp [(hback c (List.mem_reverse.1 hc)).notMark]
  simp [List.find?_append, hnone, hmark]

theorem find?_reverse_of_only {mark : Char} (hmark : isMark mark = true) {cs : List Char}
    (hmem : mark ∈ cs) (honly : ∀ c ∈ cs, isMark c = true → c = mark) :
    cs.reverse.find? isMark = some mark := by
  cases hfind : cs.reverse.find? isMark with
  | none => exact absurd hmark (List.find?_eq_none.1 hfind mark (List.mem_reverse.2 hmem))
  | some c =>
    have hc := List.mem_reverse.1 (List.mem_of_find?_eq_some hfind)
    rw [honly c hc (List.find?_some hfind)]

section Grouped

variable {group decimal : Char} {sign whole grouped fraction : List Char}

/-- Digits are grouped by inserting nothing. -/
theorem isGrouped_self (hwhole : ∀ c ∈ whole, c.isDigit = true) (hmark : isMark group = true) :
    IsGrouped group whole whole := by
  refine List.filter_eq_self.2 fun c hc => ?_
  simpa using (steady_of_isDigit (hwhole c hc)).ne hmark

theorem unmarked_of_isGrouped (hroles : Roles group decimal) (hwhole : ∀ c ∈ whole, Steady c)
    (hgrouped : IsGrouped group whole grouped) : unmarked grouped = whole := by
  have hgroup : unmarked (grouped.filter (· != group)) = unmarked grouped := by
    rw [unmarked, unmarked, List.filter_filter]
    refine List.filter_congr fun c _ => ?_
    have := hroles.isMark_group
    grind
  rw [← hgroup, hgrouped, unmarked_of_steady hwhole]

theorem pointed_of_isGrouped (hroles : Roles group decimal) (hwhole : ∀ c ∈ whole, Steady c)
    (hgrouped : IsGrouped group whole grouped) : pointed decimal grouped = whole := by
  have hgroup : pointed decimal (grouped.filter (· != group)) = pointed decimal grouped := by
    rw [pointed, pointed, List.filterMap_filter]
    refine List.filterMap_congr fun c _ => ?_
    have := hroles.isMark_group
    have := hroles.otherMark_decimal ▸ otherMark_ne hroles.isMark_decimal
    grind
  rw [← hgroup, hgrouped, pointed_of_steady hroles.isMark_decimal hwhole]

theorem decimal_notMem_of_isGrouped (hroles : Roles group decimal)
    (hwhole : ∀ c ∈ whole, Steady c) (hgrouped : IsGrouped group whole grouped) :
    decimal ∉ grouped := by
  intro hmem
  have hne : decimal ≠ group := by
    rw [← hroles.otherMark_decimal]
    exact (otherMark_ne hroles.isMark_decimal).symm
  have hkept : decimal ∈ whole := by
    rw [← hgrouped]
    exact List.mem_filter.2 ⟨hmem, by simpa using hne⟩
  exact (hwhole _ hkept).ne hroles.isMark_decimal rfl

theorem isBlank_of_isMark {c : Char} (h : isMark c = true) : isBlank c = false := by
  rcases isMark_iff.1 h with rfl | rfl
  · decide
  · decide

theorem notBlank_of_isGrouped (hroles : Roles group decimal) (hwhole : ∀ c ∈ whole, Steady c)
    (hgrouped : IsGrouped group whole grouped) {c : Char} (hc : c ∈ grouped) :
    isBlank c = false := by
  by_cases heq : c = group
  · rw [heq]
    exact isBlank_of_isMark hroles.isMark_group
  · refine (hwhole c ?_).notBlank
    rw [← hgrouped]
    exact List.mem_filter.2 ⟨hc, by simpa using heq⟩

/-- **Digits before the decimal mark may be grouped.**  The number is read as the plain text of it
is. -/
theorem ofEntered?_grouped (hsign : IsSign sign) (hroles : Roles group decimal)
    (hwhole : ∀ c ∈ whole, c.isDigit = true) (hgrouped : IsGrouped group whole grouped)
    (hfraction : ∀ c ∈ fraction, c.isDigit = true) :
    ofEntered? (.ofList (sign ++ grouped ++ decimal :: fraction)) =
      ofChars? (sign ++ (whole ++ '.' :: fraction)) := by
  have hwhole' : ∀ c ∈ whole, Steady c := fun c hc => steady_of_isDigit (hwhole c hc)
  have hfraction' : ∀ c ∈ fraction, Steady c := fun c hc => steady_of_isDigit (hfraction c hc)
  have hmark := hroles.isMark_decimal
  have hcount : (sign ++ grouped ++ decimal :: fraction).count decimal = 1 := by
    rw [List.count_append, List.count_append, List.count_cons_self,
      List.count_eq_zero_of_not_mem fun hc => (hsign.steady hc).ne hmark rfl,
      List.count_eq_zero_of_not_mem (decimal_notMem_of_isGrouped hroles hwhole' hgrouped),
      List.count_eq_zero_of_not_mem fun hc => (hfraction' _ hc).ne hmark rfl]
  refine ofEntered?_ofList ?_ ?_ (by simp) (isNumberText_append hsign ?_)
  · rw [canonicalMarks_of_last (find?_reverse_mark hmark _ hfraction'), hcount,
      if_neg fun hgroups => Nat.lt_irrefl 1 hgroups.2, pointed_append, pointed_append,
      pointed_cons_self, pointed_of_steady hmark fun _ => hsign.steady,
      pointed_of_isGrouped hroles hwhole' hgrouped, pointed_of_steady hmark hfraction',
      List.append_assoc]
  · intro c hc
    rcases List.mem_append.1 hc with hc | hc
    · rcases List.mem_append.1 hc with hc | hc
      · exact (hsign.steady hc).notBlank
      · exact notBlank_of_isGrouped hroles hwhole' hgrouped hc
    · rcases List.mem_cons.1 hc with rfl | hc
      · exact isBlank_of_isMark hmark
      · exact (hfraction' c hc).notBlank
  · intro c hc
    rcases List.mem_append.1 hc with hc | hc
    · simp [isNumberChar, hwhole c hc]
    · rcases List.mem_cons.1 hc with rfl | hc
      · rfl
      · simp [isNumberChar, hfraction c hc]

/-- Digits alone are read as they stand. -/
theorem ofEntered?_whole (hsign : IsSign sign) (hne : whole ≠ [])
    (hwhole : ∀ c ∈ whole, c.isDigit = true) :
    ofEntered? (.ofList (sign ++ whole)) = ofChars? (sign ++ whole) := by
  have hsteady : ∀ c ∈ sign ++ whole, Steady c := fun c hc =>
    (List.mem_append.1 hc).elim hsign.steady fun hc => steady_of_isDigit (hwhole c hc)
  refine ofEntered?_ofList (canonicalMarks_of_none fun c hc => (hsteady c hc).notMark)
    (fun c hc => (hsteady c hc).notBlank) (by simp [hne]) (isNumberText_append hsign ?_)
  intro c hc
  simp [isNumberChar, hwhole c hc]

/-- **A number that is written with one mark or none is read as it stands.** -/
theorem ofEntered?_written (hmark : isMark decimal = true) (negative : Bool) (hne : whole ≠ [])
    (hwhole : ∀ c ∈ whole, c.isDigit = true) (hfraction : ∀ c ∈ fraction, c.isDigit = true) :
    ofEntered? (.ofList ((if negative then ['-'] else []) ++ whole ++
        if fraction.isEmpty then [] else decimal :: fraction)) =
      ofChars? (textOf negative whole fraction) := by
  have hminus : IsSign (if negative then ['-'] else []) := by
    cases negative with
    | true => exact .inr (.inr rfl)
    | false => exact .inl rfl
  have hroles := roles_of_isMark hmark
  rw [textOf]
  by_cases hempty : fraction.isEmpty = true
  · rw [if_pos hempty, if_pos hempty, List.append_nil]
    exact ofEntered?_whole hminus hne hwhole
  · rw [if_neg hempty, if_neg hempty, List.append_assoc _ whole ('.' :: fraction)]
    exact ofEntered?_grouped hminus hroles hwhole (isGrouped_self hwhole hroles.isMark_group)
      hfraction

/-- **Two marks show that digits are grouped where there is no fraction.** -/
theorem ofEntered?_grouped_whole (hsign : IsSign sign) (hroles : Roles group decimal)
    (hwhole : ∀ c ∈ whole, c.isDigit = true) (hgrouped : IsGrouped group whole grouped)
    (hseveral : 2 ≤ grouped.count group) :
    ofEntered? (.ofList (sign ++ grouped)) = ofChars? (sign ++ whole) := by
  have hwhole' : ∀ c ∈ whole, Steady c := fun c hc => steady_of_isDigit (hwhole c hc)
  have hmark := hroles.isMark_group
  have hmem : group ∈ grouped := List.count_pos_iff.1 (by omega)
  -- the last mark is the one that groups
  have hlast : (sign ++ grouped).reverse.find? isMark = some group := by
    refine find?_reverse_of_only hmark (List.mem_append_right sign hmem) fun c hc hother => ?_
    rcases List.mem_append.1 hc with hc | hc
    · exact absurd rfl ((hsign.steady hc).ne hother)
    · refine ((isMark_iff_eq_or_eq hmark).1 hother).resolve_right ?_
      rintro rfl
      rw [hroles.otherMark_group] at hc
      exact decimal_notMem_of_isGrouped hroles hwhole' hgrouped hc
  refine ofEntered?_ofList ?_ ?_ (by simp [List.ne_nil_of_mem hmem]) (isNumberText_append hsign ?_)
  · rw [canonicalMarks_of_last hlast, if_pos, unmarked_append]
    · rw [unmarked_of_steady fun _ => hsign.steady, unmarked_of_isGrouped hroles hwhole' hgrouped]
    · rw [hroles.otherMark_group, List.mem_append, not_or, List.count_append]
      refine ⟨⟨fun hc => (hsign.steady hc).ne hroles.isMark_decimal rfl,
        decimal_notMem_of_isGrouped hroles hwhole' hgrouped⟩, by omega⟩
  · intro c hc
    rcases List.mem_append.1 hc with hc | hc
    · exact (hsign.steady hc).notBlank
    · exact notBlank_of_isGrouped hroles hwhole' hgrouped hc
  · intro c hc
    simp [isNumberChar, hwhole c hc]

end Grouped

/-! ### All of them -/

/-- **How a number is spelled does not matter.**

* Exchanging all commas and points leaves what is read as it is.
* So does inserting and deleting white space, anywhere.
* Take a sign or none, digits for the whole part, one of the marks for groups and the other for the
  decimal mark.  However the first is inserted among the whole digits, with the decimal mark and a
  fraction after them the text is read like the one without groups and with a point; and without
  them, if the mark that groups occurs twice, like the one without groups.  Those texts are plain
  numbers: they are read as they stand. -/
theorem ofEntered?_respelled :
    (∀ s, ofEntered? (exchangeMarks s) = ofEntered? s) ∧
    (∀ s t, SameButBlank s.toList t.toList → ofEntered? s = ofEntered? t) ∧
    ∀ sign whole grouped group decimal, IsSign sign → whole ≠ [] →
      (∀ c ∈ whole, c.isDigit = true) → Roles group decimal → IsGrouped group whole grouped →
      (∀ fraction, (∀ c ∈ fraction, c.isDigit = true) →
        ofEntered? (.ofList (sign ++ grouped ++ decimal :: fraction)) =
            ofEntered? (.ofList (sign ++ whole ++ '.' :: fraction)) ∧
          ofEntered? (.ofList (sign ++ whole ++ '.' :: fraction)) =
            ofText? (.ofList (sign ++ whole ++ '.' :: fraction))) ∧
      (2 ≤ grouped.count group →
        ofEntered? (.ofList (sign ++ grouped)) = ofEntered? (.ofList (sign ++ whole)) ∧
          ofEntered? (.ofList (sign ++ whole)) = ofText? (.ofList (sign ++ whole))) := by
  refine ⟨ofEntered?_exchangeMarks, fun s t => ofEntered?_of_sameButBlank, ?_⟩
  intro sign whole grouped group decimal hsign hne hwhole hroles hgrouped
  constructor
  · intro fraction hfraction
    -- the plain text has the point for its decimal mark, and nothing inserted
    have hplain : ofEntered? (.ofList (sign ++ whole ++ '.' :: fraction)) =
        ofChars? (sign ++ (whole ++ '.' :: fraction)) :=
      ofEntered?_grouped hsign (.inl ⟨rfl, rfl⟩) hwhole (isGrouped_self hwhole (by decide))
        hfraction
    constructor
    · rw [hplain]
      exact ofEntered?_grouped hsign hroles hwhole hgrouped hfraction
    · rw [hplain, ofText?, String.toList_ofList, List.append_assoc]
  · intro hseveral
    have hplain : ofEntered? (.ofList (sign ++ whole)) = ofChars? (sign ++ whole) :=
      ofEntered?_whole hsign hne hwhole
    constructor
    · rw [hplain]
      exact ofEntered?_grouped_whole hsign hroles hwhole hgrouped hseveral
    · rw [hplain, ofText?, String.toList_ofList]

/-- An amount with its thousands in groups, in either locale, with spaces and without. -/
theorem ofEntered?_respelled_amount :
    let amount : Decimal := ⟨true, 123456789, 2, by decide, by decide⟩
    ofEntered? "-1.234.567,89" = some amount ∧ ofEntered? "-1,234,567.89" = some amount ∧
      ofEntered? "- 1.234.567,89" = some amount ∧
      ofEntered? "-1.234.567" = ofEntered? "-1234567" := by
  intro amount
  obtain ⟨hexchange, hblank, hgroups⟩ := ofEntered?_respelled
  obtain ⟨hfraction, hnone⟩ := hgroups ['-'] "1234567".toList "1.234.567".toList '.' ','
    (.inr (.inr rfl)) (by decide) (List.all_eq_true.1 (by decide)) (.inr ⟨rfl, rfl⟩)
    (by unfold IsGrouped; decide)
  obtain ⟨hpoint, hplain⟩ := hfraction "89".toList (List.all_eq_true.1 (by decide))
  have hread : ofText? "-1234567.89" = some amount := by decide +kernel
  have hcomma : ofEntered? "-1.234.567,89" = some amount := hpoint.trans (hplain.trans hread)
  refine ⟨hcomma, (hexchange "-1.234.567,89").trans hcomma, ?_, (hnone (by decide)).1⟩
  rw [← hcomma]
  exact hblank _ _ (.cons '-' (.delete (by decide) (.refl _)))

end PeriodSheet.Decimal
