import PeriodSheet.Layout

/-!
# Checked layouts

What the check of a layout says of its dates, and in which period a date lies.

The check compares each start with the end before it only.  No range that passes ends before it
starts, so each of them ends before all later ones start (`checkRanges_eq_nil_iff`).  Then a date
lies in one period at most, and the first range that holds it is the only one
(`periodOf?_eq_some_iff`).
-/

namespace PeriodSheet

namespace Date

theorem le_iff {a b : Date} : a.le b = true ↔ a.ordinal ≤ b.ordinal :=
  decide_eq_true_iff

theorem lt_iff {a b : Date} : a.lt b = true ↔ a.ordinal < b.ordinal :=
  decide_eq_true_iff

theorem lt_eq_false_iff {a b : Date} : a.lt b = false ↔ b.le a = true := by
  rw [le_iff, ← Bool.not_eq_true, lt_iff, Int.not_lt]

theorem le_eq_false_iff {a b : Date} : a.le b = false ↔ b.lt a = true := by
  rw [lt_iff, ← Bool.not_eq_true, le_iff, Int.not_le]

end Date

namespace Layout

/-- Ranges of dates that follow one another: none of them ends before it starts, and each of them
ends before any later one starts. -/
structure InTurn (ranges : List (Date × Date)) : Prop where
  start_le : ∀ range ∈ ranges, range.1.le range.2 = true
  end_lt : ranges.Pairwise fun a b => a.2.lt b.1 = true

theorem inTurn_nil : InTurn [] :=
  ⟨fun _ hrange => absurd hrange List.not_mem_nil, List.Pairwise.nil⟩

theorem inTurn_cons {range : Date × Date} {rest : List (Date × Date)} :
    InTurn (range :: rest) ↔
      range.1.le range.2 = true ∧ (∀ later ∈ rest, range.2.lt later.1 = true) ∧ InTurn rest := by
  constructor
  · rintro ⟨hle, hlt⟩
    obtain ⟨hfirst, hrest⟩ := List.pairwise_cons.1 hlt
    exact ⟨hle range List.mem_cons_self, hfirst,
      fun later hlater => hle later (List.mem_cons_of_mem _ hlater), hrest⟩
  · rintro ⟨hrange, hfirst, hle, hlt⟩
    refine ⟨fun other hother => ?_, List.pairwise_cons.2 ⟨hfirst, hlt⟩⟩
    rcases List.mem_cons.1 hother with rfl | hother
    · exact hrange
    · exact hle other hother

/-- A range passes where it does not end before it starts, and starts after the one before it. -/
theorem checkRanges_cons_eq_nil_iff {period : Nat} {previous : Option Date} {start finish : Date}
    {rest : List (Date × Date)} :
    checkRanges period previous ((start, finish) :: rest) = [] ↔
      (start.le finish = true ∧ ∀ last ∈ previous, last.lt start = true) ∧
        checkRanges (period + 1) (some finish) rest = [] := by
  conv => lhs; unfold checkRanges
  rw [List.append_eq_nil_iff, List.append_eq_nil_iff]
  refine and_congr_left fun _ => and_congr ?_ ?_
  · simp [Date.lt_eq_false_iff]
  · cases previous with
    | none => simp
    | some last => simp [Date.le_eq_false_iff]

/-- **The check of the ranges**, after one that ends on `previous`. -/
theorem checkRanges_eq_nil_iff {period : Nat} {previous : Option Date}
    {ranges : List (Date × Date)} :
    checkRanges period previous ranges = [] ↔
      InTurn ranges ∧ ∀ last ∈ previous, ∀ range ∈ ranges, last.lt range.1 = true := by
  induction ranges generalizing period previous with
  | nil => simp [checkRanges, inTurn_nil]
  | cons range rest ih =>
    obtain ⟨start, finish⟩ := range
    rw [checkRanges_cons_eq_nil_iff, ih, inTurn_cons]
    constructor
    · rintro ⟨⟨hle, hprevious⟩, hrest, hlater⟩
      refine ⟨⟨hle, hlater finish rfl, hrest⟩, fun last hlast range hrange => ?_⟩
      rcases List.mem_cons.1 hrange with rfl | hrange
      · exact hprevious last hlast
      · -- what ends before this range starts ends before the later ones do
        have hstart := Date.lt_iff.1 (hprevious last hlast)
        have hfinish := Date.lt_iff.1 (hlater finish rfl range hrange)
        have hle := Date.le_iff.1 hle
        exact Date.lt_iff.2 (by omega)
    · rintro ⟨⟨hle, hlater, hrest⟩, hprevious⟩
      refine ⟨⟨hle, fun last hlast => hprevious last hlast _ List.mem_cons_self⟩, hrest, ?_⟩
      rintro last ⟨⟩
      exact hlater

/-! ### The period of a date -/

/-- Whether a date lies in a period, which is counted from one. -/
def Covers (layout : Layout) (period : Nat) (date : Date) : Prop :=
  1 ≤ period ∧ ∃ range, layout.ranges[period - 1]? = some range ∧
    range.1.le date = true ∧ date.le range.2 = true

variable {layout : Layout} {date : Date}

/-- Of two periods that hold one date, none comes before the other. -/
theorem Covers.unique (h : InTurn layout.ranges) {period other : Nat}
    (hperiod : layout.Covers period date) (hother : layout.Covers other date) :
    other = period := by
  -- the earlier one ends before the later one starts
  have hnot : ∀ {a b : Nat}, layout.Covers a date → layout.Covers b date → ¬ a < b := by
    rintro a b ⟨ha, range, hrange, -, hend⟩ ⟨hb, later, hlater, hstart, -⟩ hlt
    obtain ⟨hi, rfl⟩ := List.getElem?_eq_some_iff.1 hrange
    obtain ⟨hj, rfl⟩ := List.getElem?_eq_some_iff.1 hlater
    have hends := List.pairwise_iff_getElem.1 h.end_lt (a - 1) (b - 1) hi hj (by omega)
    have hends := Date.lt_iff.1 hends
    have hend := Date.le_iff.1 hend
    have hstart := Date.le_iff.1 hstart
    omega
  have := hnot hperiod hother
  have := hnot hother hperiod
  omega

theorem covers_of_periodOf? {period : Nat} (h : layout.periodOf? date = some period) :
    layout.Covers period date := by
  obtain ⟨i, hi, rfl⟩ := Option.map_eq_some_iff.1 h
  obtain ⟨hlt, hholds, -⟩ := List.findIdx?_eq_some_iff_getElem.1 hi
  obtain ⟨hstart, hend⟩ := Bool.and_eq_true_iff.1 hholds
  exact ⟨Nat.le_add_left 1 i, layout.ranges[i], List.getElem?_eq_getElem hlt, hstart, hend⟩

/-- **A date lies in the period that is found for it**, and in no other one. -/
theorem periodOf?_eq_some_iff (h : InTurn layout.ranges) {period : Nat} :
    layout.periodOf? date = some period ↔ layout.Covers period date := by
  refine ⟨covers_of_periodOf?, fun hcovers => ?_⟩
  cases hfound : layout.periodOf? date with
  | some found => rw [hcovers.unique h (covers_of_periodOf? hfound)]
  | none =>
    obtain ⟨-, range, hrange, hstart, hend⟩ := hcovers
    rw [periodOf?, Option.map_eq_none_iff, List.findIdx?_eq_none_iff] at hfound
    have hnot := hfound range (List.mem_of_getElem? hrange)
    simp [hstart, hend] at hnot

/-! ### The whole check -/

theorem checkDates_eq_nil_iff {subject : String} :
    layout.checkDates subject = [] ↔
      layout.startDates = [] ∧ layout.endDates = [] ∨
        layout.startDates.length = layout.periodCount ∧
          layout.endDates.length = layout.periodCount ∧ InTurn layout.ranges := by
  unfold checkDates
  simp only [List.length_eq_zero_iff]
  split
  · next hnone => simp [hnone]
  · next hsome =>
    rw [or_iff_right hsome]
    split
    · next hcount =>
      simp only [reduceCtorEq, false_iff]
      rintro ⟨hstarts, hends, -⟩
      exact hcount.elim (· hstarts) (· hends)
    · next hcount =>
      rw [not_or, Decidable.not_not, Decidable.not_not] at hcount
      simp [checkRanges_eq_nil_iff, hcount]

theorem check_eq_nil_iff :
    layout.check = [] ↔ 1 ≤ layout.periodCount ∧ layout.labels.length = layout.periodCount ∧
      (layout.startDates = [] ∧ layout.endDates = [] ∨
        layout.startDates.length = layout.periodCount ∧
          layout.endDates.length = layout.periodCount ∧ InTurn layout.ranges) := by
  unfold check
  split
  · next hzero => simp [hzero]
  · next hzero =>
    rw [List.append_eq_nil_iff, checkDates_eq_nil_iff, Nat.one_le_iff_ne_zero]
    simp [hzero]

/-- The ranges of a layout that passes follow one another; it may have none. -/
theorem inTurn_ranges (h : layout.check = []) : InTurn layout.ranges := by
  obtain ⟨-, -, ⟨hstarts, -⟩ | ⟨-, -, hturn⟩⟩ := check_eq_nil_iff.1 h
  · rw [ranges, hstarts, List.zip_nil_left]
    exact inTurn_nil
  · exact hturn

theorem Covers.le_periodCount (h : layout.check = []) {period : Nat}
    (hcovers : layout.Covers period date) : period ≤ layout.periodCount := by
  obtain ⟨hpos, range, hrange, -⟩ := hcovers
  have hlt := (List.getElem?_eq_some_iff.1 hrange).1
  rw [ranges, List.length_zip] at hlt
  obtain ⟨-, -, ⟨hstarts, -⟩ | ⟨hstarts, -⟩⟩ := check_eq_nil_iff.1 h
  · rw [hstarts, List.length_nil] at hlt
    omega
  · omega

/-- **The check of a layout is exact.**  A layout passes where it has periods, a label for each, and
either no dates or a start and an end for each, such that no period ends before it starts and each
one ends before all later ones start.  The period of a date is then the one that it lies in: there
is one at most, and it is among those of the layout. -/
theorem check_exact (layout : Layout) :
    (layout.check = [] ↔ 1 ≤ layout.periodCount ∧ layout.labels.length = layout.periodCount ∧
      (layout.startDates = [] ∧ layout.endDates = [] ∨
        layout.startDates.length = layout.periodCount ∧
          layout.endDates.length = layout.periodCount ∧ InTurn layout.ranges)) ∧
    (layout.check = [] → ∀ date,
      (∀ period, layout.periodOf? date = some period ↔ layout.Covers period date) ∧
      ∀ period, layout.Covers period date → period ≤ layout.periodCount ∧
        ∀ other, layout.Covers other date → other = period) := by
  refine ⟨check_eq_nil_iff, fun h date => ?_⟩
  have hturn := inTurn_ranges h
  refine ⟨fun period => periodOf?_eq_some_iff hturn, fun period hperiod => ?_⟩
  exact ⟨hperiod.le_periodCount h, fun other hother => hperiod.unique hturn hother⟩

/-- Two terms with a week between them: a day of the second one, and a day of that week. -/
theorem check_exact_terms :
    let layout : Layout :=
      { name := "Terms", periodCount := 2, labels := ["Spring", "Autumn"]
        startDates := [⟨2024, 1, 1, by decide⟩, ⟨2024, 7, 8, by decide⟩]
        endDates := [⟨2024, 6, 30, by decide⟩, ⟨2024, 12, 31, by decide⟩] }
    layout.check = [] ∧ layout.periodOf? ⟨2024, 7, 8, by decide⟩ = some 2 ∧
      ∀ period, ¬ layout.Covers period ⟨2024, 7, 7, by decide⟩ := by
  intro layout
  have hcheck : layout.check = [] := rfl
  obtain ⟨-, hdates⟩ := check_exact layout
  refine ⟨hcheck, ?_, fun period hcovers => ?_⟩
  · exact ((hdates hcheck _).1 2).2 ⟨by decide, _, rfl, by decide, by decide⟩
  · have hfound := ((hdates hcheck _).1 period).2 hcovers
    have hnone : layout.periodOf? ⟨2024, 7, 7, by decide⟩ = none := by decide
    rw [hnone] at hfound
    cases hfound

end Layout

end PeriodSheet
