import Mathlib.Data.List.Basic
import PeriodSheet.Proofs.Layout.Checked

/-!
# Standard layouts

A standard layout splits a year into periods of whole months.  Each period starts so many months
after the first of January, and ends on the day before the next one starts: what months are added
and which day comes before is told by the number of a month, in which years do not matter
(`Date.addMonths?_eq_some_iff`, `Date.dayBefore?_eq_some_iff`).  So a period runs from the first day
of a month to the last day of another one (`standardRange?_eq_some_iff`), whatever the year is, and
a date is in it by its year and month alone (`SpansMonths.holds_iff`).
-/

namespace PeriodSheet

theorem daysInMonth_bounds (year : Int) (month : Nat) :
    28 ≤ daysInMonth year month ∧ daysInMonth year month ≤ 31 := by
  unfold daysInMonth
  split
  · split <;> decide
  · split <;> decide

namespace Date

theorem of?_eq_some_iff {year : Int} {month day : Nat} {date : Date} :
    of? year month day = some date ↔
      date.year = year ∧ date.month = month ∧ date.day = day := by
  unfold of?
  constructor
  · intro h
    split at h
    · cases h
      exact ⟨rfl, rfl, rfl⟩
    · cases h
  · rintro ⟨rfl, rfl, rfl⟩
    exact dif_pos date.isDate

/-! ### Months -/

/-- A number that counts months through all years. -/
def monthNumber (d : Date) : Int :=
  d.year * 12 + d.month

/-- Every month of a year that has dates has a first day. -/
theorem exists_monthNumber {number : Int} (hmin : minYear * 12 < number)
    (hmax : number ≤ maxYear * 12 + 12) : ∃ d : Date, d.monthNumber = number ∧ d.day = 1 := by
  have hdays := (daysInMonth_bounds ((number - 1) / 12) (((number - 1) % 12).toNat + 1)).1
  refine ⟨⟨(number - 1) / 12, ((number - 1) % 12).toNat + 1, 1, ⟨by omega, by omega⟩, by omega,
    Nat.le_refl 1, by omega⟩, ?_, rfl⟩
  show (number - 1) / 12 * 12 + (((number - 1) % 12).toNat + 1 : Nat) = number
  omega

variable {d e : Date}

/-- The first of a month, so many months later. -/
theorem addMonths?_eq_some_iff (h : d.day = 1) {months : Nat} :
    d.addMonths? months = some e ↔ e.monthNumber = d.monthNumber + months ∧ e.day = 1 := by
  have hd := d.isDate.2.1
  have he := e.isDate.2.1
  have hday : ∀ year month, min 1 (daysInMonth year month) = 1 := fun year month => by
    have := (daysInMonth_bounds year month).1
    omega
  simp only [addMonths?, of?_eq_some_iff, h, hday, monthNumber]
  omega

/-- The day before the first of a month is the last day of the month before, in the same year or in
the one before. -/
theorem dayBefore?_eq_some_iff (h : d.day = 1) :
    d.dayBefore? = some e ↔
      e.monthNumber + 1 = d.monthNumber ∧ e.day = daysInMonth e.year e.month := by
  have hd := d.isDate.2.1
  have he := e.isDate.2.1
  rw [dayBefore?, if_neg (by omega)]
  unfold monthNumber
  split
  · rw [of?_eq_some_iff]
    constructor
    · rintro ⟨hyear, hmonth, hday⟩
      exact ⟨by omega, by rw [hday, hyear, hmonth]⟩
    · rintro ⟨hnumber, hday⟩
      have hyear : e.year = d.year := by omega
      have hmonth : e.month = d.month - 1 := by omega
      exact ⟨hyear, hmonth, by rw [hday, hyear, hmonth]⟩
  · rw [of?_eq_some_iff]
    constructor
    · rintro ⟨hyear, hmonth, hday⟩
      exact ⟨by omega, by rw [hday, hmonth]; rfl⟩
    · rintro ⟨hnumber, hday⟩
      have hmonth : e.month = 12 := by omega
      exact ⟨by omega, hmonth, by rw [hday, hmonth]; rfl⟩

end Date

namespace Layout

/-! ### Ranges of whole months -/

/-- A range runs from the first day of one month of a year to the last day of another one. -/
structure SpansMonths (year : Int) (first last : Nat) (range : Date × Date) : Prop where
  start : range.1.year = year ∧ range.1.month = first ∧ range.1.day = 1
  finish : range.2.year = year ∧ range.2.month = last ∧ range.2.day = daysInMonth year last

namespace SpansMonths

variable {year : Int} {first last : Nat} {range : Date × Date}

theorem lt_start_iff (h : SpansMonths year first last range) (date : Date) :
    date.lt range.1 = true ↔ date.year < year ∨ date.year = year ∧ date.month < first := by
  obtain ⟨hyear, hmonth, hday⟩ := h.start
  obtain ⟨-, hmonths, hdays⟩ := date.isDate
  have hfirst := range.1.isDate.2.1
  have hmost := (daysInMonth_bounds date.year date.month).2
  rw [Date.lt_iff, Date.ordinal, Date.ordinal, hyear, hmonth, hday]
  omega

theorem le_finish_iff (h : SpansMonths year first last range) (date : Date) :
    date.le range.2 = true ↔ date.year < year ∨ date.year = year ∧ date.month ≤ last := by
  obtain ⟨hyear, hmonth, hday⟩ := h.finish
  obtain ⟨-, hmonths, hdays⟩ := date.isDate
  have hlast := range.2.isDate.2.1
  have hmost := (daysInMonth_bounds date.year date.month).2
  rw [Date.le_iff, Date.ordinal, Date.ordinal, hyear, hmonth, hday]
  by_cases hsame : date.year = year ∧ date.month = last
  · -- no day of the last month comes after its last one
    rw [hsame.1, hsame.2] at hdays
    omega
  · have := daysInMonth_bounds year last
    omega

/-- Which dates are in a range of whole months does not depend on their days. -/
theorem holds_iff (h : SpansMonths year first last range) (date : Date) :
    range.1.le date = true ∧ date.le range.2 = true ↔
      date.year = year ∧ first ≤ date.month ∧ date.month ≤ last := by
  rw [← Date.lt_eq_false_iff, ← Bool.not_eq_true, h.lt_start_iff, h.le_finish_iff]
  omega

end SpansMonths

/-- **The range of a standard period.**  It has one, unless the year after it has no dates. -/
theorem standardRange?_eq_some_iff {yearStart : Date}
    (hstart : yearStart.month = 1 ∧ yearStart.day = 1) {months index : Nat} (hpos : 0 < months)
    (hle : index * months + months ≤ 12) {range : Date × Date} :
    standardRange? yearStart months index = some range ↔
      SpansMonths yearStart.year (index * months + 1) (index * months + months) range ∧
        (index * months + months = 12 → yearStart.year < maxYear) := by
  obtain ⟨hmonth, hday⟩ := hstart
  unfold standardRange?
  generalize index * months = passed at hle ⊢
  constructor
  · intro h
    obtain ⟨start, hstart, h⟩ := Option.bind_eq_some_iff.1 h
    obtain ⟨next, hnext, h⟩ := Option.bind_eq_some_iff.1 h
    obtain ⟨finish, hfinish, h⟩ := Option.bind_eq_some_iff.1 h
    cases h
    obtain ⟨hstart, hfirst⟩ := (Date.addMonths?_eq_some_iff hday).1 hstart
    obtain ⟨hnext, hnextDay⟩ := (Date.addMonths?_eq_some_iff hfirst).1 hnext
    obtain ⟨hfinish, hlast⟩ := (Date.dayBefore?_eq_some_iff hnextDay).1 hfinish
    have hstarts := start.isDate.2.1
    have hends := finish.isDate.2.1
    obtain ⟨⟨-, hmaxYear⟩, hnexts, -⟩ := next.isDate
    simp only [Date.monthNumber, hmonth] at hstart hnext hfinish
    have hfirstYear : start.year = yearStart.year := by omega
    have hfirstMonth : start.month = passed + 1 := by omega
    have hlastYear : finish.year = yearStart.year := by omega
    have hlastMonth : finish.month = passed + months := by omega
    refine ⟨⟨⟨hfirstYear, hfirstMonth, hfirst⟩, hlastYear, hlastMonth, ?_⟩, fun htwelve => by omega⟩
    rw [hlast, hlastYear, hlastMonth]
  · rintro ⟨⟨⟨hfirstYear, hfirstMonth, hfirst⟩, hlastYear, hlastMonth, hlast⟩, hroom⟩
    obtain ⟨⟨hminYear, hmaxYear⟩, -⟩ := yearStart.isDate
    -- the first day after the period, which may be in the next year
    have hmin : minYear * 12 < yearStart.year * 12 + 1 + passed + months := by omega
    have hmax : yearStart.year * 12 + 1 + passed + months ≤ maxYear * 12 + 12 := by omega
    obtain ⟨next, hnext, hnextDay⟩ := Date.exists_monthNumber hmin hmax
    have hstart : yearStart.addMonths? passed = some range.1 := by
      rw [Date.addMonths?_eq_some_iff hday, Date.monthNumber, Date.monthNumber]
      omega
    have hafter : range.1.addMonths? months = some next := by
      rw [Date.addMonths?_eq_some_iff hfirst, hnext, Date.monthNumber]
      omega
    have hfinish : next.dayBefore? = some range.2 := by
      rw [Date.dayBefore?_eq_some_iff hnextDay, hnext, Date.monthNumber, hlast, hlastYear,
        hlastMonth]
      omega
    simp only [hstart, hafter, hfinish, Option.bind_eq_bind, Option.bind_some]
    rfl

/-! ### The layout -/

theorem mapM_eq_some_iff {α β : Type} {f : α → Option β} {as : List α} {bs : List β} :
    as.mapM f = some bs ↔ as.map f = bs.map some := by
  induction as generalizing bs with
  | nil => cases bs <;> simp
  | cons a as ih =>
    cases hf : f a with
    | none => cases bs <;> simp [List.mapM_cons, hf]
    | some b =>
      cases bs with
      | nil => simp [List.mapM_cons, hf, Option.bind_eq_some_iff]
      | cons b' bs => simp [List.mapM_cons, hf, Option.bind_eq_some_iff, ih, and_comm]

theorem exists_mapM_eq_some {α β : Type} {f : α → Option β} {as : List α}
    (h : ∀ a ∈ as, ∃ b, f a = some b) : ∃ bs, as.mapM f = some bs := by
  induction as with
  | nil => exact ⟨[], rfl⟩
  | cons a as ih =>
    obtain ⟨b, hb⟩ := h a List.mem_cons_self
    obtain ⟨bs, hbs⟩ := ih fun a' ha' => h a' (List.mem_cons_of_mem a ha')
    exact ⟨b :: bs, by simp [List.mapM_cons, hb, hbs]⟩

theorem length_standardLabels (count : Nat) : (standardLabels count).length = count := by
  unfold standardLabels
  split
  · next h => rw [h]; rfl
  · split
    · next h => rw [h]; rfl
    · rw [List.length_map, List.length_range]

/-- A layout splits a year into so many periods of whole months. -/
structure SplitsYear (layout : Layout) (count : Nat) (year : Int) : Prop where
  count_dvd : count ∣ 12
  periodCount_eq : layout.periodCount = count
  length_labels : layout.labels.length = count
  length_startDates : layout.startDates.length = count
  length_endDates : layout.endDates.length = count
  spansMonths : ∀ i range, layout.ranges[i]? = some range →
    SpansMonths year (i * (12 / count) + 1) (i * (12 / count) + 12 / count) range

variable {name : String} {count : Nat} {year : Int} {layout : Layout}

theorem count_mul_months (h : count ∣ 12) : count * (12 / count) = 12 :=
  Nat.mul_div_cancel' h

theorem months_pos (h : count ∣ 12) : 0 < 12 / count :=
  Nat.div_pos (Nat.le_of_dvd (by decide) h) (Nat.pos_of_dvd_of_pos h (by decide))

/-- The periods up to the last one make up the year. -/
theorem months_le (h : count ∣ 12) {i : Nat} (hi : i < count) :
    i * (12 / count) + 12 / count ≤ 12 := by
  have hmul := Nat.mul_le_mul_right (12 / count) (Nat.succ_le_of_lt hi)
  rw [count_mul_months h, Nat.succ_mul] at hmul
  exact hmul

theorem months_last (h : count ∣ 12) : (count - 1) * (12 / count) + 12 / count = 12 := by
  have hpos := Nat.pos_of_dvd_of_pos h (by decide)
  rw [← Nat.succ_mul, Nat.succ_eq_add_one, Nat.sub_add_cancel hpos, count_mul_months h]

/-- **What a standard layout is.**  The year after it has dates as well. -/
theorem splitsYear_of_standard? (h : standard? name count year = some layout) :
    layout.SplitsYear count year ∧ minYear ≤ year ∧ year < maxYear := by
  unfold standard? at h
  split at h
  · cases h
  · next hcount =>
    rw [not_or, not_not] at hcount
    have hdvd := Nat.dvd_of_mod_eq_zero hcount.2
    obtain ⟨yearStart, hyear, h⟩ := Option.bind_eq_some_iff.1 h
    obtain ⟨ranges, hranges, h⟩ := Option.bind_eq_some_iff.1 h
    cases h
    obtain ⟨rfl, hmonth, hday⟩ := Date.of?_eq_some_iff.1 hyear
    rw [mapM_eq_some_iff] at hranges
    have hlength : ranges.length = count := by
      have hlengths := congrArg List.length hranges
      rw [List.length_map, List.length_map, List.length_range] at hlengths
      exact hlengths.symm
    -- the range at a place is the one of the period with that index
    have hrange : ∀ i (hi : i < ranges.length),
        SpansMonths yearStart.year (i * (12 / count) + 1) (i * (12 / count) + 12 / count)
            ranges[i] ∧
          (i * (12 / count) + 12 / count = 12 → yearStart.year < maxYear) := by
      intro i hi
      have hat := congrArg (·[i]?) hranges
      simp only [List.getElem?_map, List.getElem?_range (hlength ▸ hi),
        List.getElem?_eq_getElem hi, Option.map_some, Option.some.injEq] at hat
      exact (standardRange?_eq_some_iff ⟨hmonth, hday⟩ (months_pos hdvd)
        (months_le hdvd (hlength ▸ hi))).1 hat
    have hpos := Nat.pos_of_dvd_of_pos hdvd (by decide)
    refine ⟨⟨hdvd, rfl, length_standardLabels count, ?_, ?_, fun i range hat => ?_⟩,
      yearStart.isDate.1.1, (hrange (count - 1) (by omega)).2 (months_last hdvd)⟩
    · rw [List.length_map, hlength]
    · rw [List.length_map, hlength]
    · rw [Layout.ranges, ← List.zip_of_prod rfl rfl] at hat
      obtain ⟨hi, rfl⟩ := List.getElem?_eq_some_iff.1 hat
      exact (hrange i hi).1

/-- **Which standard layouts there are.** -/
theorem exists_standard?_iff :
    (∃ layout, standard? name count year = some layout) ↔
      count ∣ 12 ∧ minYear ≤ year ∧ year < maxYear := by
  constructor
  · rintro ⟨layout, h⟩
    obtain ⟨hsplits, hyear⟩ := splitsYear_of_standard? h
    exact ⟨hsplits.count_dvd, hyear⟩
  · rintro ⟨hdvd, hminYear, hmaxYear⟩
    have hpos := Nat.pos_of_dvd_of_pos hdvd (by decide)
    have hcount : ¬ (count = 0 ∨ 12 % count ≠ 0) := by
      have := Nat.mod_eq_zero_of_dvd hdvd
      omega
    have hyears : minYear ≤ year ∧ year ≤ maxYear := ⟨hminYear, by omega⟩
    -- a year has a first day, and the months of a period have a first and a last one
    have hstart : IsDate year 1 1 := by
      have := daysInMonth_bounds year 1
      exact ⟨hyears, by decide, Nat.le_refl 1, by omega⟩
    let yearStart : Date := ⟨year, 1, 1, hstart⟩
    have hyearStart : yearStart.month = 1 ∧ yearStart.day = 1 := ⟨rfl, rfl⟩
    obtain ⟨ranges, hranges⟩ : ∃ ranges,
        (List.range count).mapM (standardRange? yearStart (12 / count)) = some ranges := by
      refine exists_mapM_eq_some fun i hi => ?_
      have hle := months_le hdvd (List.mem_range.1 hi)
      have hmonths := months_pos hdvd
      simp only [standardRange?_eq_some_iff hyearStart hmonths hle]
      generalize 12 / count = months at hle hmonths
      have hfirst := (daysInMonth_bounds year (i * months + 1)).1
      have hlast := (daysInMonth_bounds year (i * months + months)).1
      exact ⟨(⟨year, i * months + 1, 1, hyears, by omega, by omega⟩,
          ⟨year, i * months + months, daysInMonth year (i * months + months), hyears, by omega,
            by omega⟩),
        ⟨⟨rfl, rfl, rfl⟩, rfl, rfl, rfl⟩, fun _ => hmaxYear⟩
    unfold standard?
    rw [if_neg hcount, Date.of?, dif_pos hstart, Option.bind_eq_bind, Option.bind_some, hranges]
    exact ⟨_, rfl⟩

namespace SplitsYear

theorem exists_range (h : layout.SplitsYear count year) {i : Nat} (hi : i < count) :
    ∃ range, layout.ranges[i]? = some range := by
  refine ⟨_, List.getElem?_eq_getElem ?_⟩
  rw [ranges, List.length_zip, h.length_startDates, h.length_endDates, Nat.min_self]
  exact hi

/-- A period ends where the next one starts: no date is between them, and none is in both. -/
theorem le_finish_iff_lt_start (h : layout.SplitsYear count year) {i : Nat}
    {range next : Date × Date} (hrange : layout.ranges[i]? = some range)
    (hnext : layout.ranges[i + 1]? = some next) (date : Date) :
    date.le range.2 = true ↔ date.lt next.1 = true := by
  rw [(h.spansMonths i range hrange).le_finish_iff, (h.spansMonths (i + 1) next hnext).lt_start_iff,
    Nat.succ_mul]
  omega

theorem inTurn_ranges (h : layout.SplitsYear count year) : InTurn layout.ranges := by
  have hmonths := months_pos h.count_dvd
  refine ⟨fun range hmem => ?_, List.pairwise_iff_getElem.2 fun i j hi hj hlt => ?_⟩
  · obtain ⟨i, hrange⟩ := List.getElem?_of_mem hmem
    have hspans := h.spansMonths i range hrange
    rw [hspans.le_finish_iff, hspans.start.1, hspans.start.2.1]
    omega
  · have hspans := h.spansMonths i _ (List.getElem?_eq_getElem hi)
    have hlater := h.spansMonths j _ (List.getElem?_eq_getElem hj)
    have hmul := Nat.mul_le_mul_right (12 / count) (Nat.succ_le_of_lt hlt)
    rw [Nat.succ_mul] at hmul
    rw [hlater.lt_start_iff, hspans.finish.1, hspans.finish.2.1]
    omega

theorem check_eq_nil (h : layout.SplitsYear count year) : layout.check = [] := by
  rw [check_eq_nil_iff, h.periodCount_eq]
  exact ⟨Nat.pos_of_dvd_of_pos h.count_dvd (by decide), h.length_labels,
    .inr ⟨h.length_startDates, h.length_endDates, h.inTurn_ranges⟩⟩

/-- The period of a date is told by its month. -/
theorem periodOf?_eq_some_iff (h : layout.SplitsYear count year) {date : Date} {period : Nat} :
    layout.periodOf? date = some period ↔
      date.year = year ∧ (date.month - 1) / (12 / count) + 1 = period := by
  have hmonths := months_pos h.count_dvd
  obtain ⟨hone, htwelve⟩ := date.isDate.2.1
  rw [Layout.periodOf?_eq_some_iff h.inTurn_ranges]
  constructor
  · rintro ⟨hperiod, range, hrange, hholds⟩
    obtain ⟨hyear, hfirst, hlast⟩ := ((h.spansMonths _ _ hrange).holds_iff date).1 hholds
    have hdiv : (date.month - 1) / (12 / count) = period - 1 := by
      rw [Nat.div_eq_iff hmonths]
      omega
    exact ⟨hyear, by omega⟩
  · rintro ⟨hyear, rfl⟩
    have hlt : (date.month - 1) / (12 / count) < count := by
      rw [Nat.div_lt_iff_lt_mul hmonths, count_mul_months h.count_dvd]
      omega
    obtain ⟨range, hrange⟩ := h.exists_range hlt
    have hdiv := (Nat.div_eq_iff hmonths).1 (Eq.refl ((date.month - 1) / (12 / count)))
    refine ⟨Nat.le_add_left 1 _, range, hrange, ?_⟩
    rw [(h.spansMonths _ _ hrange).holds_iff]
    exact ⟨hyear, by omega, by omega⟩

/-- The first period starts on the first day of the year. -/
theorem head?_startDates (h : layout.SplitsYear count year) :
    layout.startDates.head? = Date.of? year 1 1 := by
  obtain ⟨range, hrange⟩ := h.exists_range (Nat.pos_of_dvd_of_pos h.count_dvd (by decide))
  have hspans := h.spansMonths 0 range hrange
  rw [Nat.zero_mul] at hspans
  rw [List.head?_eq_getElem?, (List.getElem?_zip_eq_some.1 hrange).1,
    Date.of?_eq_some_iff.2 hspans.start]

/-- The last period ends on the last day of the year. -/
theorem getLast?_endDates (h : layout.SplitsYear count year) :
    layout.endDates.getLast? = Date.of? year 12 31 := by
  have hpos := Nat.pos_of_dvd_of_pos h.count_dvd (by decide)
  obtain ⟨range, hrange⟩ := h.exists_range (Nat.sub_one_lt_of_lt hpos)
  have hspans := h.spansMonths (count - 1) range hrange
  rw [months_last h.count_dvd] at hspans
  -- December has 31 days in every year
  have hfinish : Date.of? year 12 31 = some range.2 := Date.of?_eq_some_iff.2 hspans.finish
  rw [List.getLast?_eq_getElem?, h.length_endDates, (List.getElem?_zip_eq_some.1 hrange).2, hfinish]

end SplitsYear

/-- **A standard layout partitions its year.**  There is one for every number of periods that
divides twelve, and every year that has dates and is followed by one that has.  It passes the check,
its fiscal year is the given one, and it has as many labels, starts and ends as periods.  The period
of a date is found where the date is in that year, and it is told by the date's month.  The periods
run from the first day of the year to the last, and each one ends where the next one starts. -/
theorem standard?_partitions (name : String) (count : Nat) (year : Int) :
    ((∃ layout, standard? name count year = some layout) ↔
      count ∣ 12 ∧ minYear ≤ year ∧ year < maxYear) ∧
    ∀ layout, standard? name count year = some layout →
      layout.check = [] ∧ layout.fiscalYear? = some year ∧
      (layout.periodCount = count ∧ layout.labels.length = count ∧
        layout.startDates.length = count ∧ layout.endDates.length = count) ∧
      (∀ date period, layout.periodOf? date = some period ↔
        date.year = year ∧ (date.month - 1) / (12 / count) + 1 = period) ∧
      (∀ i range next, layout.ranges[i]? = some range → layout.ranges[i + 1]? = some next →
        ∀ date : Date, date.le range.2 = true ↔ date.lt next.1 = true) ∧
      layout.startDates.head? = Date.of? year 1 1 ∧
      layout.endDates.getLast? = Date.of? year 12 31 := by
  refine ⟨exists_standard?_iff, fun layout hlayout => ?_⟩
  obtain ⟨h, -⟩ := splitsYear_of_standard? hlayout
  have hfiscal : layout.fiscalYear? = some year := by
    obtain ⟨range, hrange⟩ := h.exists_range (Nat.pos_of_dvd_of_pos h.count_dvd (by decide))
    rw [fiscalYear?, List.head?_eq_getElem?, (List.getElem?_zip_eq_some.1 hrange).1,
      Option.map_some, (h.spansMonths 0 range hrange).start.1]
  exact ⟨h.check_eq_nil, hfiscal,
    ⟨h.periodCount_eq, h.length_labels, h.length_startDates, h.length_endDates⟩,
    fun _ _ => h.periodOf?_eq_some_iff,
    fun _ _ _ hrange hnext date => h.le_finish_iff_lt_start hrange hnext date,
    h.head?_startDates, h.getLast?_endDates⟩

/-- The terms of a leap year, one of which ends on its longer February. -/
theorem standard?_partitions_leap_year :
    ∃ layout, standard? "Terms" 6 2024 = some layout ∧ layout.check = [] ∧
      layout.periodOf? ⟨2024, 2, 29, by decide⟩ = some 1 ∧
      layout.periodOf? ⟨2024, 3, 1, by decide⟩ = some 2 ∧
      layout.endDates.getLast? = Date.of? 2024 12 31 := by
  obtain ⟨hexists, hlayout⟩ := standard?_partitions "Terms" 6 2024
  obtain ⟨layout, h⟩ := hexists.2 (by decide)
  obtain ⟨hcheck, -, -, hperiod, -, -, hlast⟩ := hlayout layout h
  exact ⟨layout, h, hcheck, (hperiod _ _).2 (by decide), (hperiod _ _).2 (by decide), hlast⟩

end Layout

end PeriodSheet
