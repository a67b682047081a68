import PeriodSheet.Proofs.DerivedValues

/-!
# Computing a range in parts

A step reads the record alone; the rows, the events and the notices it only adds to.  A run that
goes on from the record of another one thus does what one run over both does, and nothing passes
from the one to the other but the record (`Computation.ofRecord_split`).
-/

namespace PeriodSheet

/-- A range is that of its earlier periods followed by that of its later ones. -/
theorem PeriodRange.periods_split {first middle last : Nat} (hfirst : first ≤ middle)
    (hlast : middle < last) (count : Nat) :
    PeriodRange.periods ⟨first, some last⟩ count =
      PeriodRange.periods ⟨first, some middle⟩ count ++
        PeriodRange.periods ⟨middle + 1, some last⟩ count := by
  show List.range' (max first 1) (min last count + 1 - max first 1) =
    List.range' (max first 1) (min middle count + 1 - max first 1) ++
      List.range' (max (middle + 1) 1) (min last count + 1 - max (middle + 1) 1)
  by_cases hmiddle : middle < count
  · -- the later periods start where the earlier ones end
    have hstart : max (middle + 1) 1 = max first 1 + (min middle count + 1 - max first 1) := by omega
    rw [hstart, List.range'_append_1]
    congr 1
    omega
  · have hnone : min last count + 1 - max (middle + 1) 1 = 0 := by omega
    have hall : min last count = min middle count := by omega
    rw [hnone, hall]
    simp

namespace Computing

/-- What was gathered earlier, followed by what is gathered later. -/
def followedBy (earlier later : Computing) : Computing :=
  { record := later.record
    rows := earlier.rows ++ later.rows
    carried := earlier.carried ++ later.carried
    notices := earlier.notices ++ later.notices }

/-- A step does the same whatever was gathered before, and adds to it. -/
theorem step_followedBy (plan : Plan) (earlier later : Computing) (period : Nat) :
    (earlier.followedBy later).step plan period = earlier.followedBy (later.step plan period) := by
  simp only [step, carryOver, followedBy]
  -- there is a next period, or a rule that would carry into it, or neither
  split
  · simp
  · split <;> simp

/-- Steps do the same whatever was gathered before, by induction on their periods. -/
theorem foldl_step_followedBy (plan : Plan) (earlier later : Computing) (periods : List Nat) :
    periods.foldl (step plan) (earlier.followedBy later) =
      earlier.followedBy (periods.foldl (step plan) later) := by
  induction periods generalizing later with
  | nil => rfl
  | cons period rest ih => rw [List.foldl_cons, List.foldl_cons, step_followedBy, ih]

/-- Steps go on from a record as they do from one that nothing was gathered with. -/
theorem foldl_step_eq (plan : Plan) (computing : Computing) (periods : List Nat) :
    periods.foldl (step plan) computing =
      computing.followedBy (periods.foldl (step plan) { record := computing.record }) := by
  rw [← foldl_step_followedBy]
  simp [followedBy]

/-- A run over a range gathers what a run over its earlier periods and one over its later periods,
from the record that the first one leaves, gather one after the other. -/
theorem gathered_split (plan : Plan) (record : Record) {first middle last : Nat}
    (hfirst : first ≤ middle) (hlast : middle < last) :
    let head := ofRecord plan record ⟨first, some middle⟩
    let tail := ofRecord plan head.record ⟨middle + 1, some last⟩
    let whole := ofRecord plan record ⟨first, some last⟩
    whole.record = tail.record ∧ whole.rows = head.rows ++ tail.rows ∧
      whole.carried = head.carried ++ tail.carried := by
  intro head tail whole
  let rest := (PeriodRange.periods ⟨middle + 1, some last⟩ plan.activity.periodCount).foldl
    (step plan) { record := head.record }
  have htail : tail =
      followedBy { record := head.record, notices := Computation.foreignNotice plan head.record }
        rest :=
    foldl_step_eq plan { record := head.record, notices := _ } _
  have hwhole : whole = head.followedBy rest := by
    show (PeriodRange.periods ⟨first, some last⟩ _).foldl (step plan) _ = _
    rw [PeriodRange.periods_split hfirst hlast, List.foldl_append]
    exact foldl_step_eq plan head _
  rw [hwhole, htail]
  exact ⟨rfl, rfl, rfl⟩

end Computing

namespace Computation

/-- **Computing in parts is computing at once.**  The periods from `first` to `last`, computed up to
`middle` and then, from the record that comes out, on from there: the record is the same as that of
one computation, and the rows, and likewise the events, of the two parts follow one another.  The
sheet is summed up from all these rows.

What is computed depends on where a range is cut to the periods that exist: it makes no difference
whether a range starts at zero or one, and whether its end is open, at the last period or past it. -/
theorem ofRecord_split (activity : Activity) (settings : Settings) (record : Record) :
    let compute := ofRecord (Plan.ofActivity settings activity)
    (∀ first middle last, first ≤ middle → middle < last →
      let head := compute record ⟨first, some middle⟩
      let tail := compute head.record ⟨middle + 1, some last⟩
      let whole := compute record ⟨first, some last⟩
      whole.record = tail.record ∧
        whole.sheet.rows = head.sheet.rows ++ tail.sheet.rows ∧
        whole.sheet = .ofRows (Plan.ofActivity settings activity) tail.record whole.sheet.rows ∧
        whole.carried = head.carried ++ tail.carried) ∧
    (∀ range range' : PeriodRange, range.start = range'.start →
      range.stop activity.periodCount = range'.stop activity.periodCount →
      compute record range = compute record range') ∧
    (∀ last, compute record ⟨0, last⟩ = compute record ⟨1, last⟩) ∧
    ∀ first last, activity.periodCount ≤ last →
      compute record ⟨first, some last⟩ = compute record ⟨first, none⟩ := by
  intro compute
  have hbounds (range range' : PeriodRange) (hstart : range.start = range'.start)
      (hstop : range.stop activity.periodCount = range'.stop activity.periodCount) :
      compute record range = compute record range' := by
    have hperiods : range.periods activity.periodCount = range'.periods activity.periodCount := by
      rw [PeriodRange.periods, PeriodRange.periods, hstart, hstop]
    simp only [compute, ofRecord]
    rw [show (Plan.ofActivity settings activity).activity = activity from rfl, hperiods]
  refine ⟨fun first middle last hfirst hlast => ?_, hbounds, fun last => ?_,
    fun first last hlast => ?_⟩
  · obtain ⟨hrecord, hrows, hcarried⟩ :=
      Computing.gathered_split (.ofActivity settings activity) record hfirst hlast
    exact ⟨hrecord, hrows, congrArg (Sheet.ofRows _ · _) hrecord, hcarried⟩
  · exact hbounds _ _ rfl rfl
  · refine hbounds _ _ rfl ?_
    show min last activity.periodCount = min activity.periodCount activity.periodCount
    omega

/-- Computing the two half-years one after the other.  The credit of the first one is carried into
the second one while only the first one is computed, and the computation of the second one finds it
in the record. -/
theorem ofRecord_split_credits :
    let compute := ofRecord (.ofActivity {} (Credits.activity [Credits.creditRule]))
    let entered := Credits.record "300" .empty .empty
    let head := compute entered ⟨1, some 1⟩
    let tail := compute head.record ⟨2, some 2⟩
    (1 ≤ 1 ∧ 1 < 2) ∧
      (head.record.opened 2).raw? Credits.previous = some "300" ∧
      (compute entered ⟨1, some 2⟩).record = tail.record ∧
      (compute entered ⟨1, some 2⟩).sheet.rows = head.sheet.rows ++ tail.sheet.rows ∧
      (compute entered ⟨1, some 2⟩).carried = head.carried ++ tail.carried ∧
      compute entered ⟨0, some 7⟩ = compute entered .all := by
  intro compute entered head tail
  obtain ⟨hsplit, hbounds, -⟩ :=
    ofRecord_split (Credits.activity [Credits.creditRule]) {} entered
  obtain ⟨hrecord, hrows, -, hcarried⟩ := hsplit 1 1 2 (by decide) (by decide)
  refine ⟨by decide, ?_, hrecord, hrows, hcarried, hbounds _ _ rfl rfl⟩
  simp only [head, compute]
  rw [show Plan.ofActivity {} (Credits.activity [Credits.creditRule]) = Credits.plan _ from
    Credits.plan_eq _]
  decide +kernel

end Computation

end PeriodSheet
