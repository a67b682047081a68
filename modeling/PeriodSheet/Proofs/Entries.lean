import Mathlib.Data.List.Forall2
import PeriodSheet.Record
import PeriodSheet.Proofs.NameMap

/-!
# Entries of a record

How the entry that a period shows, and the entry that a change of a period starts from, relate to
what was put into a record before.  Where the entries do not descend, both are the period's first
entry; a period without an entry is opened as a blank one.

Two records are the *same* when they agree in all but the spellings under which their maps keep the
names.
-/

namespace PeriodSheet

/-! ### Sameness -/

namespace PeriodEntry

/-- Two entries are the same when they are of one period and their maps are the same. -/
structure Same (a b : PeriodEntry) : Prop where
  period : a.period = b.period
  raw : a.raw.Same b.raw
  computed : a.computed.Same b.computed
  carried : a.carried.Same b.carried

theorem Same.refl (a : PeriodEntry) : a.Same a :=
  ⟨rfl, fun _ => rfl, fun _ => rfl, fun _ => rfl⟩

theorem Same.trans {a b c : PeriodEntry} (hab : a.Same b) (hbc : b.Same c) : a.Same c :=
  ⟨hab.period.trans hbc.period, fun name => (hab.raw name).trans (hbc.raw name),
    fun name => (hab.computed name).trans (hbc.computed name),
    fun name => (hab.carried name).trans (hbc.carried name)⟩

end PeriodEntry

namespace Record

/-- Two records are the same when they are of one client, activity, year and version and their
entries are the same, one by one. -/
structure Same (a b : Record) : Prop where
  client : a.client = b.client
  activity : a.activity = b.activity
  fiscalYear : a.fiscalYear = b.fiscalYear
  version : a.version = b.version
  entries : List.Forall₂ PeriodEntry.Same a.entries b.entries

theorem Same.refl (a : Record) : a.Same a :=
  ⟨rfl, rfl, rfl, rfl, List.forall₂_same.2 fun e _ => .refl e⟩

theorem Same.trans {a b c : Record} (hab : a.Same b) (hbc : b.Same c) : a.Same c := by
  have trans : ∀ {l m n : List PeriodEntry}, List.Forall₂ PeriodEntry.Same l m →
      List.Forall₂ PeriodEntry.Same m n → List.Forall₂ PeriodEntry.Same l n := by
    intro l m n hlm hmn
    induction hlm generalizing n with
    | nil => exact hmn
    | cons hhead _ ih =>
      cases hmn with
      | cons hhead' htail' => exact .cons (hhead.trans hhead') (ih htail')
  exact ⟨hab.client.trans hbc.client, hab.activity.trans hbc.activity,
    hab.fiscalYear.trans hbc.fiscalYear, hab.version.trans hbc.version,
    trans hab.entries hbc.entries⟩

/-! ### Opening and putting -/

/-- A record's entries are sorted where their periods never descend. -/
def Sorted (record : Record) : Prop :=
  record.entries.Pairwise fun a b => a.period ≤ b.period

instance (record : Record) : Decidable record.Sorted :=
  inferInstanceAs (Decidable (List.Pairwise _ _))

/-- A record's entries are ascending where they are sorted and no two are of one period. -/
def Ascending (record : Record) : Prop :=
  record.entries.Pairwise fun a b => a.period < b.period

instance (record : Record) : Decidable record.Ascending :=
  inferInstanceAs (Decidable (List.Pairwise _ _))

theorem Ascending.sorted {record : Record} (h : record.Ascending) : record.Sorted :=
  h.imp Nat.le_of_lt

/-- Whether a record has an entry of a period. -/
def Has (record : Record) (period : Nat) : Prop :=
  ∃ entry ∈ record.entries, entry.period = period

@[simp]
theorem period_opened (record : Record) (period : Nat) :
    (record.opened period).period = period :=
  openEntry_period period record.entries

/-- A change of one period does not change what another period is opened with. -/
theorem openEntry_putEntry_of_ne {changed : PeriodEntry} {period : Nat}
    (h : period ≠ changed.period) (entries : List PeriodEntry) :
    openEntry period (putEntry changed entries) = openEntry period entries := by
  induction entries with
  | nil =>
    -- a new entry is passed over, or stands behind the period, as its own period says
    rcases Nat.lt_or_gt_of_ne h with hlt | hgt
    · simp [putEntry, openEntry, h.symm, Nat.not_lt_of_gt hlt]
    · simp [putEntry, openEntry, hgt]
  | cons entry rest ih =>
    unfold putEntry
    split
    · simp only [openEntry, ih]
    · rename_i hle
      split
      · -- the entry that is replaced is of the changed period, so both are passed over alike
        rename_i heq
        simp only [openEntry, heq]
        split
        · rfl
        · rw [if_neg h.symm, if_neg h.symm]
      · rename_i hne
        -- the change stands before the entry: an earlier period finds neither
        rcases Nat.lt_or_gt_of_ne h with hlt | hgt
        · have hentry : period < entry.period := by omega
          simp [openEntry, h.symm, Nat.not_lt_of_gt hlt, Nat.not_lt_of_gt hentry,
            Nat.ne_of_gt hentry]
        · simp [openEntry, hgt]

/-- What a period is opened with after a change. -/
theorem opened_put (record : Record) (changed : PeriodEntry) (period : Nat) :
    (record.put changed).opened period =
      if period = changed.period then changed else record.opened period := by
  split
  · rename_i h
    rw [h]
    exact openEntry_putEntry changed record.entries
  · rename_i h
    exact openEntry_putEntry_of_ne h record.entries

theorem opened_mem_or_blank (record : Record) (period : Nat) :
    record.opened period ∈ record.entries ∨ record.opened period = .blank period := by
  have key : ∀ entries : List PeriodEntry,
      openEntry period entries ∈ entries ∨ openEntry period entries = .blank period := by
    intro entries
    fun_induction openEntry period entries with
    | case1 => exact .inr rfl
    | case2 head rest _ ih => exact ih.imp_left (List.mem_cons_of_mem head)
    | case3 head rest _ _ => exact .inl List.mem_cons_self
    | case4 => exact .inr rfl
  exact key record.entries

theorem mem_putEntry {changed entry : PeriodEntry} {entries : List PeriodEntry}
    (h : entry ∈ putEntry changed entries) : entry = changed ∨ entry ∈ entries := by
  fun_induction putEntry changed entries with
  | case1 => exact .inl (List.mem_singleton.1 h)
  | case2 head rest _ ih =>
    rcases List.mem_cons.1 h with rfl | h
    · exact .inr List.mem_cons_self
    · exact (ih h).imp_right (List.mem_cons_of_mem head)
  | case3 head rest _ _ =>
    rcases List.mem_cons.1 h with rfl | h
    · exact .inl rfl
    · exact .inr (List.mem_cons_of_mem head h)
  | case4 => exact List.mem_cons.1 h

/-- A change adds the period that it is of, and no other. -/
theorem has_put (record : Record) (changed : PeriodEntry) (period : Nat) :
    (record.put changed).Has period ↔ period = changed.period ∨ record.Has period := by
  have key : ∀ entries : List PeriodEntry,
      (∃ entry ∈ putEntry changed entries, entry.period = period) ↔
        period = changed.period ∨ ∃ entry ∈ entries, entry.period = period := by
    intro entries
    induction entries with
    | nil => simp [putEntry, eq_comm]
    | cons head rest ih =>
      unfold putEntry
      split
      · simp only [List.mem_cons, exists_eq_or_imp, ih]
        exact or_left_comm
      · split
        · rename_i heq
          simp only [List.mem_cons, exists_eq_or_imp, heq, eq_comm (a := period), ← or_assoc,
            or_self]
        · simp only [List.mem_cons, exists_eq_or_imp, eq_comm (a := period)]
  exact key record.entries

/-- A change keeps the entries in an order of their periods, as long as that order goes at least as
far as the places of the changes do. -/
theorem pairwise_putEntry {R : Nat → Nat → Prop} (hlt : ∀ {a b : Nat}, a < b → R a b)
    (htrans : ∀ {a b c : Nat}, a < b → R b c → R a c) (changed : PeriodEntry)
    {entries : List PeriodEntry} (h : entries.Pairwise fun a b => R a.period b.period) :
    (putEntry changed entries).Pairwise fun a b => R a.period b.period := by
  induction entries with
  | nil => exact List.pairwise_singleton _ _
  | cons head rest ih =>
    obtain ⟨hhead, hrest⟩ := List.pairwise_cons.1 h
    unfold putEntry
    split
    · -- the change goes further back, where it is still behind the head
      rename_i hbefore
      refine List.pairwise_cons.2 ⟨fun entry hmem => ?_, ih hrest⟩
      rcases mem_putEntry hmem with rfl | hmem
      · exact hlt hbefore
      · exact hhead entry hmem
    · rename_i hle
      split
      · rename_i heq
        exact List.pairwise_cons.2 ⟨fun entry hmem => heq ▸ hhead entry hmem, hrest⟩
      · -- the change goes in before the head, and so before all that follows it
        rename_i hne
        have hbefore : changed.period < head.period := by omega
        refine List.pairwise_cons.2 ⟨fun entry hmem => ?_, h⟩
        rcases List.mem_cons.1 hmem with rfl | hmem
        · exact hlt hbefore
        · exact htrans hbefore (hhead entry hmem)

theorem Sorted.put {record : Record} (h : record.Sorted) (changed : PeriodEntry) :
    (record.put changed).Sorted :=
  pairwise_putEntry Nat.le_of_lt (fun hab hbc => Nat.le_trans (Nat.le_of_lt hab) hbc) changed h

theorem Ascending.put {record : Record} (h : record.Ascending) (changed : PeriodEntry) :
    (record.put changed).Ascending :=
  pairwise_putEntry id Nat.lt_trans changed h

theorem openEntry_of_forall_ne {period : Nat} {entries : List PeriodEntry}
    (h : ∀ entry ∈ entries, entry.period ≠ period) :
    openEntry period entries = .blank period := by
  fun_induction openEntry period entries with
  | case1 => rfl
  | case2 head rest _ ih => exact ih fun entry hmem => h entry (List.mem_cons_of_mem head hmem)
  | case3 head rest _ heq => exact absurd heq (h head List.mem_cons_self)
  | case4 => rfl

/-- Where sorted entries have one of a period, the first such one stands behind entries of earlier
periods only. -/
theorem Sorted.exists_first {record : Record} (hsorted : record.Sorted) {period : Nat}
    (h : record.Has period) :
    ∃ before entry after, record.entries = before ++ entry :: after ∧
      (∀ earlier ∈ before, earlier.period < period) ∧ entry.period = period := by
  have key : ∀ entries : List PeriodEntry, entries.Pairwise (fun a b => a.period ≤ b.period) →
      (∃ entry ∈ entries, entry.period = period) →
        ∃ before entry after, entries = before ++ entry :: after ∧
          (∀ earlier ∈ before, earlier.period < period) ∧ entry.period = period := by
    intro entries hentries hhas
    induction entries with
    | nil => obtain ⟨_, hmem, _⟩ := hhas; cases hmem
    | cons head rest ih =>
      obtain ⟨hhead, hrest⟩ := List.pairwise_cons.1 hentries
      obtain ⟨entry, hmem, hperiod⟩ := hhas
      by_cases heq : head.period = period
      · exact ⟨[], head, rest, rfl, by simp, heq⟩
      · have hmem : entry ∈ rest := by
          rcases List.mem_cons.1 hmem with rfl | hmem
          · exact absurd hperiod heq
          · exact hmem
        -- the period's entry stands behind this one, which is thus of an earlier period
        have hlt : head.period < period := by
          have hle := hhead entry hmem
          omega
        obtain ⟨before, first, after, rfl, hbefore, hfirst⟩ := ih hrest ⟨entry, hmem, hperiod⟩
        exact ⟨head :: before, first, after, rfl, List.forall_mem_cons.2 ⟨hlt, hbefore⟩, hfirst⟩
  exact key record.entries hsorted h

theorem openEntry_append {period : Nat} {before : List PeriodEntry}
    (h : ∀ earlier ∈ before, earlier.period < period) (rest : List PeriodEntry) :
    openEntry period (before ++ rest) = openEntry period rest := by
  induction before with
  | nil => rfl
  | cons head before ih =>
    obtain ⟨hhead, hbefore⟩ := List.forall_mem_cons.1 h
    rw [List.cons_append, openEntry, if_pos hhead, ih hbefore]

/-- A change is made behind the entries of earlier periods. -/
theorem putEntry_append {changed : PeriodEntry} {before : List PeriodEntry}
    (h : ∀ earlier ∈ before, earlier.period < changed.period) (rest : List PeriodEntry) :
    putEntry changed (before ++ rest) = before ++ putEntry changed rest := by
  induction before with
  | nil => rfl
  | cons head before ih =>
    obtain ⟨hhead, hbefore⟩ := List.forall_mem_cons.1 h
    rw [List.cons_append, putEntry, if_pos hhead, ih hbefore, List.cons_append]

/-- Where the entries are sorted, a period that has an entry shows the one it is opened with. -/
theorem Sorted.entry?_of_has {record : Record} (hsorted : record.Sorted) {period : Nat}
    (h : record.Has period) : record.entry? period = some (record.opened period) := by
  obtain ⟨before, entry, after, hentries, hbefore, hperiod⟩ := hsorted.exists_first h
  -- the look-up passes over the entries of earlier periods, as opening does
  have hnone : before.find? (·.period == period) = none := by
    rw [List.find?_eq_none]
    intro earlier hmem heq
    have hlt := hbefore earlier hmem
    rw [eq_of_beq heq] at hlt
    exact Nat.lt_irrefl period hlt
  unfold entry?
  rw [opened, hentries, openEntry_append hbefore, List.find?_append, hnone, Option.none_or,
    List.find?_cons_of_pos (by rw [hperiod]; exact beq_self_eq_true period), openEntry,
    if_neg (by omega), if_pos hperiod]

theorem entry?_of_not_has {record : Record} {period : Nat} (h : ¬ record.Has period) :
    record.entry? period = none := by
  unfold entry?
  rw [List.find?_eq_none]
  intro entry hmem hperiod
  exact h ⟨entry, hmem, eq_of_beq hperiod⟩

theorem opened_of_not_has {record : Record} {period : Nat} (h : ¬ record.Has period) :
    record.opened period = .blank period :=
  openEntry_of_forall_ne fun entry hmem hperiod => h ⟨entry, hmem, hperiod⟩

theorem has_of_entry? {record : Record} {period : Nat} {entry : PeriodEntry}
    (h : record.entry? period = some entry) : record.Has period := by
  have hperiod := List.find?_some (p := fun e : PeriodEntry => e.period == period) h
  exact ⟨entry, List.mem_of_find?_eq_some h, eq_of_beq hperiod⟩

/-- Putting back what a period is opened with changes nothing, where it has an entry. -/
theorem Sorted.put_opened {record : Record} (hsorted : record.Sorted) {period : Nat}
    (h : record.Has period) : record.put (record.opened period) = record := by
  obtain ⟨before, entry, after, hentries, hbefore, hperiod⟩ := hsorted.exists_first h
  have hopened : record.opened period = entry := by
    rw [opened, hentries, openEntry_append hbefore, openEntry, if_neg (by omega), if_pos hperiod]
  -- the change takes the place of the entry that is equal to it
  have hput : putEntry entry record.entries = record.entries := by
    rw [hentries, putEntry_append (hperiod.symm ▸ hbefore), putEntry,
      if_neg (Nat.lt_irrefl entry.period), if_pos rfl]
  rw [hopened, Record.put, hput]

/-! ### Related records -/

theorem forall₂_putEntry {R : PeriodEntry → PeriodEntry → Prop}
    (hperiod : ∀ {a b}, R a b → a.period = b.period) {c d : PeriodEntry} (hchanged : R c d)
    {l m : List PeriodEntry} (h : List.Forall₂ R l m) :
    List.Forall₂ R (putEntry c l) (putEntry d m) := by
  induction h with
  | nil => exact .cons hchanged .nil
  | cons hhead htail ih =>
    simp only [putEntry, hperiod hchanged, hperiod hhead]
    split
    · exact .cons hhead ih
    · split
      · exact .cons hchanged htail
      · exact .cons hchanged (.cons hhead htail)

theorem forall₂_openEntry {R : PeriodEntry → PeriodEntry → Prop}
    (hperiod : ∀ {a b}, R a b → a.period = b.period) {period : Nat}
    (hblank : R (.blank period) (.blank period)) {l m : List PeriodEntry}
    (h : List.Forall₂ R l m) : R (openEntry period l) (openEntry period m) := by
  induction h with
  | nil => exact hblank
  | cons hhead htail ih =>
    simp only [openEntry, hperiod hhead]
    split
    · exact ih
    · split
      · exact hhead
      · exact hblank

theorem Same.put {a b : Record} (h : a.Same b) {c d : PeriodEntry} (hchanged : c.Same d) :
    (a.put c).Same (b.put d) :=
  ⟨h.client, h.activity, h.fiscalYear, h.version, forall₂_putEntry (·.period) hchanged h.entries⟩

/-- Ascending entries of the same periods are the same where their periods are opened with the same
ones. -/
theorem forall₂_of_opened {l m : List PeriodEntry}
    (hl : l.Pairwise fun a b => a.period < b.period)
    (hm : m.Pairwise fun a b => a.period < b.period)
    (hhas : ∀ period, (∃ entry ∈ l, entry.period = period) ↔ ∃ entry ∈ m, entry.period = period)
    (hopened : ∀ period, (openEntry period l).Same (openEntry period m)) :
    List.Forall₂ PeriodEntry.Same l m := by
  induction l generalizing m with
  | nil =>
    cases m with
    | nil => exact .nil
    | cons b m =>
      obtain ⟨_, hmem, _⟩ := (hhas b.period).2 ⟨b, List.mem_cons_self, rfl⟩
      cases hmem
  | cons a l ih =>
    cases m with
    | nil =>
      obtain ⟨_, hmem, _⟩ := (hhas a.period).1 ⟨a, List.mem_cons_self, rfl⟩
      cases hmem
    | cons b m =>
      obtain ⟨ha, hl⟩ := List.pairwise_cons.1 hl
      obtain ⟨hb, hm⟩ := List.pairwise_cons.1 hm
      -- each head's period is found in the other list, so neither stands before the other
      have hheads : a.period = b.period := by
        obtain ⟨e, he, heq⟩ := (hhas a.period).1 ⟨a, List.mem_cons_self, rfl⟩
        obtain ⟨f, hf, hfeq⟩ := (hhas b.period).2 ⟨b, List.mem_cons_self, rfl⟩
        rcases List.mem_cons.1 he with rfl | he
        · exact heq.symm
        · rcases List.mem_cons.1 hf with rfl | hf
          · exact hfeq
          · have := hb e he
            have := ha f hf
            omega
      -- up to the period of the heads, the tails are opened with blank entries
      have hbehind : ∀ period, period ≤ a.period →
          openEntry period l = .blank period ∧ openEntry period m = .blank period := by
        intro period hle
        constructor
        · refine openEntry_of_forall_ne fun entry hmem => ?_
          have := ha entry hmem
          omega
        · refine openEntry_of_forall_ne fun entry hmem => ?_
          have := hb entry hmem
          omega
      refine .cons ?_ (ih hl hm (fun period => ?_) fun period => ?_)
      · have hhead := hopened a.period
        simpa [openEntry, hheads] using hhead
      · have hcons := hhas period
        simp only [List.mem_cons, exists_eq_or_imp, ← hheads] at hcons
        -- the period of the heads is in neither tail
        by_cases hhead : a.period = period
        · have hla : ¬ ∃ e ∈ l, e.period = period := by
            rintro ⟨e, he, heq⟩
            have := ha e he
            omega
          have hmb : ¬ ∃ e ∈ m, e.period = period := by
            rintro ⟨e, he, heq⟩
            have := hb e he
            omega
          exact iff_of_false hla hmb
        · simpa only [hhead, false_or] using hcons
      · by_cases hle : period ≤ a.period
        · rw [(hbehind period hle).1, (hbehind period hle).2]
          exact .refl _
        · have htail := hopened period
          rwa [openEntry, if_pos (by omega), openEntry, if_pos (by omega)] at htail

theorem Same.opened {a b : Record} (h : a.Same b) (period : Nat) :
    (a.opened period).Same (b.opened period) :=
  forall₂_openEntry (·.period) (.refl _) h.entries

/-- Putting an entry that is the same as what its period is opened with gives the same record. -/
theorem Sorted.put_same {record : Record} (hsorted : record.Sorted) {period : Nat}
    (h : record.Has period) {changed : PeriodEntry} (hsame : changed.Same (record.opened period)) :
    (record.put changed).Same record := by
  have hput := (Same.refl record).put hsame
  rwa [hsorted.put_opened h] at hput

end Record

end PeriodSheet
