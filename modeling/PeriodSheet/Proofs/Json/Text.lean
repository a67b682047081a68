import Mathlib.Data.List.DropRight
import PeriodSheet.Proofs.Json.Leaves

/-!
# Written values read back

The text of a plain value is read as that value, whatever follows it that does not go on with a
number (`Plain.readsBack`).  Between brackets the reader meets the lines of the entries one after
another, each behind a line break and some spaces; `readItems_lines` and `readMembers_lines` follow
them, given what the reader makes of each entry.
-/

namespace PeriodSheet.Json

open PeriodSheet.Text

/-! ### Spaces between tokens -/

theorem skipSpace_cons {c : Char} (cs : List Char) (h : isSpace c = false) :
    skipSpace (c :: cs) = c :: cs :=
  List.dropWhile_cons_of_neg (by simp [h])

theorem skipSpace_line (depth : Nat) (cs : List Char) :
    skipSpace ('\n' :: ((indent depth).toList ++ cs)) = skipSpace cs := by
  have hspaces : ∀ c ∈ '\n' :: (indent depth).toList, isSpace c = true := by
    intro c hc
    rw [indent, String.toList_ofList, List.mem_cons] at hc
    obtain rfl | hc := hc
    · rfl
    · rw [List.eq_of_mem_replicate hc]
      rfl
  rw [← List.cons_append]
  exact List.dropWhile_append_of_pos hspaces

theorem skipSpace_skipSpace (cs : List Char) : skipSpace (skipSpace cs) = skipSpace cs :=
  List.dropWhile_idempotent isSpace cs

theorem readValue_skipSpace (fuel depth : Nat) (cs : List Char) :
    readValue fuel depth (skipSpace cs) = readValue fuel depth cs := by
  cases fuel with
  | zero => rfl
  | succ fuel => simp only [readValue, skipSpace_skipSpace]

theorem readValue_space (fuel depth : Nat) (cs : List Char) :
    readValue fuel depth (' ' :: cs) = readValue fuel depth cs := by
  rw [← readValue_skipSpace, ← readValue_skipSpace fuel depth cs]
  rfl

theorem readItems_skipSpace (fuel depth : Nat) (cs : List Char) :
    readItems fuel depth (skipSpace cs) = readItems fuel depth cs := by
  cases fuel with
  | zero => rfl
  | succ fuel => simp only [readItems, readValue_skipSpace]

theorem readMembers_skipSpace (fuel depth : Nat) (cs : List Char) :
    readMembers fuel depth (skipSpace cs) = readMembers fuel depth cs := by
  cases fuel with
  | zero => rfl
  | succ fuel => simp only [readMembers, skipSpace_skipSpace]

/-! ### Lines between brackets -/

/-- The characters of a block after its opening bracket, in front of others. -/
def blockRest (closing : Char) (depth : Nat) (entries : List String) (rest : List Char) :
    List Char :=
  (",".intercalate (entries.map fun entry => "\n" ++ indent (depth + 1) ++ entry)).toList ++
    '\n' :: ((indent depth).toList ++ closing :: rest)

theorem toList_block (opening closing : Char) (depth : Nat) (entries : List String)
    (rest : List Char) :
    (block (String.singleton opening) (String.singleton closing) depth entries).toList ++ rest =
      opening :: blockRest closing depth entries rest := by
  simp [block, blockRest]

theorem blockRest_singleton (closing : Char) (depth : Nat) (entry : String) (rest : List Char) :
    blockRest closing depth [entry] rest = '\n' :: ((indent (depth + 1)).toList ++
      (entry.toList ++ '\n' :: ((indent depth).toList ++ closing :: rest))) := by
  simp [blockRest]

theorem blockRest_cons (closing : Char) (depth : Nat) (entry next : String)
    (entries : List String) (rest : List Char) :
    blockRest closing depth (entry :: next :: entries) rest =
      '\n' :: ((indent (depth + 1)).toList ++
        (entry.toList ++ ',' :: blockRest closing depth (next :: entries) rest)) := by
  simp [blockRest]

/-! ### Entries -/

/-- Whether the text of a value is read as that value, with fuel for each of its characters. -/
def ReadsBack (level depth : Nat) (value : Json) : Prop :=
  ∀ fuel rest, (prettyAt level value).toList.length ≤ fuel → EndsNumber rest →
    readValue fuel depth ((prettyAt level value).toList ++ rest) = some (value, rest)

theorem readItems_lines {level depth : Nat} {item : Json} {items : List Json}
    (hread : ∀ i ∈ item :: items, ReadsBack (level + 1) depth i) {fuel : Nat} (rest : List Char)
    (hfuel : (blockRest ']' level (prettyItems (level + 1) (item :: items)) []).length ≤ fuel) :
    readItems fuel depth (blockRest ']' level (prettyItems (level + 1) (item :: items)) rest) =
      some (item :: items, rest) := by
  -- over the items behind the first one, so that every list met is a block of lines
  induction items generalizing item fuel with
  | nil =>
    simp only [prettyItems, blockRest_singleton, List.length_cons, List.length_append] at hfuel ⊢
    obtain ⟨fuel, rfl⟩ : ∃ n, fuel = n + 1 := ⟨fuel - 1, by omega⟩
    have hitem := hread item List.mem_cons_self fuel
      ('\n' :: ((indent level).toList ++ ']' :: rest)) (by omega) (endsNumber_cons (by decide))
    rw [readItems, ← readValue_skipSpace, skipSpace_line, readValue_skipSpace, hitem]
    simp only [skipSpace_line]
    rfl
  | cons next items ih =>
    rw [prettyItems, prettyItems, blockRest_cons] at hfuel ⊢
    simp only [List.length_cons, List.length_append] at hfuel
    obtain ⟨fuel, rfl⟩ : ∃ n, fuel = n + 1 := ⟨fuel - 1, by omega⟩
    have hitem := hread item List.mem_cons_self fuel
      (',' :: blockRest ']' level (prettyItems (level + 1) (next :: items)) rest) (by omega)
      (endsNumber_cons (by decide))
    have hitems : readItems fuel depth
        (blockRest ']' level (prettyItems (level + 1) (next :: items)) rest) =
          some (next :: items, rest) :=
      ih (fun i hi => hread i (List.mem_cons_of_mem _ hi)) (by rw [prettyItems]; omega)
    rw [prettyItems] at hitem hitems
    rw [readItems, ← readValue_skipSpace, skipSpace_line, readValue_skipSpace, hitem]
    simp only [skipSpace_cons _ (show isSpace ',' = false by decide), hitems, Option.map_some]

section
variable {fuel depth : Nat} {name : String} {value : Json} {text after : List Char}

/-- A written member in front of others, from the quote of its name on. -/
def memberRest (name : String) (text : List Char) : List Char :=
  '"' :: (name.toList.flatMap escapeChar ++ '"' :: ':' :: ' ' :: text)

theorem toList_member (name value : String) (rest : List Char) :
    (quote name ++ ": " ++ value).toList ++ rest = memberRest name (value.toList ++ rest) := by
  simp [memberRest, toList_quote]

theorem readMembers_last (hvalue : readValue fuel depth text = some (value, after))
    {rest : List Char} (hafter : skipSpace after = '\x7d' :: rest) :
    readMembers (fuel + 1) depth (memberRest name text) = some (some [(name, value)], rest) := by
  rw [readMembers, memberRest, skipSpace_cons _ (by decide)]
  simp only [readString_quote, skipSpace_cons _ (show isSpace ':' = false by decide),
    readValue_space, hvalue, hafter]
  rfl

theorem readMembers_more (hvalue : readValue fuel depth text = some (value, after))
    {others rest : List Char} {members : List (String × Json)}
    (hafter : skipSpace after = ',' :: others)
    (hothers : readMembers fuel depth others = some (some members, rest)) :
    readMembers (fuel + 1) depth (memberRest name text) =
      some (some ((name, value) :: members), rest) := by
  rw [readMembers, memberRest, skipSpace_cons _ (by decide)]
  simp only [readString_quote, skipSpace_cons _ (show isSpace ':' = false by decide),
    readValue_space, hvalue, hafter, hothers]
  rfl

end

theorem readMembers_lines {level depth : Nat} {m : String × Json} {members : List (String × Json)}
    (hread : ∀ m' ∈ m :: members, ReadsBack (level + 1) depth m'.2)
    {fuel : Nat} (rest : List Char)
    (hfuel : (blockRest '\x7d' level (prettyMembers (level + 1) (m :: members)) []).length ≤ fuel) :
    readMembers fuel depth
        (blockRest '\x7d' level (prettyMembers (level + 1) (m :: members)) rest) =
      some (some (m :: members), rest) := by
  induction members generalizing m fuel with
  | nil =>
    obtain ⟨name, value⟩ := m
    simp only [prettyMembers, blockRest_singleton, List.length_cons, List.length_append,
      String.toList_append] at hfuel
    obtain ⟨fuel, rfl⟩ : ∃ n, fuel = n + 1 := ⟨fuel - 1, by omega⟩
    have hvalue := hread (name, value) List.mem_cons_self fuel
      ('\n' :: ((indent level).toList ++ '\x7d' :: rest)) (by simp only; omega)
      (endsNumber_cons (by decide))
    rw [prettyMembers, prettyMembers, blockRest_singleton, toList_member, ← readMembers_skipSpace,
      skipSpace_line, readMembers_skipSpace]
    exact readMembers_last hvalue (by rw [skipSpace_line]; rfl)
  | cons next members ih =>
    obtain ⟨name, value⟩ := m
    obtain ⟨nextName, nextValue⟩ := next
    simp only [prettyMembers, blockRest_cons, List.length_cons, List.length_append,
      String.toList_append] at hfuel
    obtain ⟨fuel, rfl⟩ : ∃ n, fuel = n + 1 := ⟨fuel - 1, by omega⟩
    have hvalue := hread (name, value) List.mem_cons_self fuel (',' :: blockRest '\x7d' level
      (prettyMembers (level + 1) ((nextName, nextValue) :: members)) rest) (by simp only; omega)
      (endsNumber_cons (by decide))
    have hmembers : readMembers fuel depth (blockRest '\x7d' level
        (prettyMembers (level + 1) ((nextName, nextValue) :: members)) rest) =
          some (some ((nextName, nextValue) :: members), rest) :=
      ih (fun m hm => hread m (List.mem_cons_of_mem _ hm)) (by rw [prettyMembers]; omega)
    rw [prettyMembers, prettyMembers, blockRest_cons, ← prettyMembers, toList_member,
      ← readMembers_skipSpace, skipSpace_line, readMembers_skipSpace]
    exact readMembers_more hvalue (skipSpace_cons _ (by decide)) hmembers

/-! ### Values -/

theorem exists_cons_ofInt (n : Int) :
    ∃ c cs, (ofInt n).toList = c :: cs ∧ (c = '-' ∨ c.isDigit = true) := by
  obtain ⟨c, cs, hcs⟩ := List.exists_cons_of_ne_nil (digits_ne_nil n.natAbs)
  have hc : c.isDigit = true := isDigit_of_mem_digits (hcs ▸ List.mem_cons_self)
  rw [ofInt, String.toList_ofList]
  split
  · exact ⟨'-', digits n.natAbs, rfl, .inl rfl⟩
  · exact ⟨c, cs, hcs, .inr hc⟩

/-- A character that begins a number begins no other value, and is no space. -/
theorem of_beginsNumber {c : Char} (h : c = '-' ∨ c.isDigit = true) :
    isSpace c = false ∧ c ∉ ['n', 't', 'f', '"', '[', '\x7b', ']'] := by
  obtain rfl | hc := h
  · decide
  · refine ⟨?_, fun hmem => ?_⟩
    · rw [← Bool.not_eq_true]
      intro hspace
      simp only [isSpace, Bool.or_eq_true, beq_iff_eq] at hspace
      obtain ((rfl | rfl) | rfl) | rfl := hspace <;> exact absurd hc (by decide)
    · simp only [List.mem_cons, List.not_mem_nil, or_false] at hmem
      obtain rfl | rfl | rfl | rfl | rfl | rfl | rfl := hmem <;> exact absurd hc (by decide)

theorem readValue_number (fuel depth : Nat) {c : Char} (cs : List Char)
    (h : c = '-' ∨ c.isDigit = true) :
    readValue (fuel + 1) depth (c :: cs) = readNumber (c :: cs) := by
  obtain ⟨hspace, hc⟩ := of_beginsNumber h
  simp only [List.mem_cons, List.not_mem_nil, or_false, not_or] at hc
  obtain ⟨hnull, htrue, hfalse, htext, hlist, hrecord, -⟩ := hc
  rw [readValue, skipSpace_cons cs hspace]
  split <;> rename_i heq
  · exact absurd (List.cons.inj heq).1 hnull
  · exact absurd (List.cons.inj heq).1 htrue
  · exact absurd (List.cons.inj heq).1 hfalse
  · exact absurd (List.cons.inj heq).1 htext
  · exact absurd (List.cons.inj heq).1 hlist
  · exact absurd (List.cons.inj heq).1 hrecord
  · rfl

theorem readValue_list {fuel depth : Nat} {cs rest : List Char} {items : List Json}
    (hopen : ∀ tail, skipSpace cs ≠ ']' :: tail)
    (hread : readItems fuel (depth + 1) cs = some (items, rest)) :
    readValue (fuel + 1) depth ('[' :: cs) = some (nested depth (.list items), rest) := by
  rw [readValue, skipSpace_cons cs (by decide)]
  simp only [readItems_skipSpace, hread, Option.map_some]

theorem readValue_record {fuel depth : Nat} {cs rest : List Char}
    {members : List (String × Json)} (hopen : ∀ tail, skipSpace cs ≠ '\x7d' :: tail)
    (hread : readMembers fuel (depth + 1) cs = some (some members, rest)) :
    readValue (fuel + 1) depth ('\x7b' :: cs) = some (nested depth (.record members), rest) := by
  rw [readValue, skipSpace_cons cs (by decide)]
  simp only [readMembers_skipSpace, hread, Option.map_some, recordOrUnreadable]

@[simp]
theorem toList_prettyAt_null (level : Nat) :
    (prettyAt level .null).toList = ['n', 'u', 'l', 'l'] := by
  simp [prettyAt, leafText]

@[simp]
theorem toList_prettyAt_true (level : Nat) :
    (prettyAt level (.bool true)).toList = ['t', 'r', 'u', 'e'] := by
  simp [prettyAt, leafText]

@[simp]
theorem toList_prettyAt_false (level : Nat) :
    (prettyAt level (.bool false)).toList = ['f', 'a', 'l', 's', 'e'] := by
  simp [prettyAt, leafText]

@[simp]
theorem toList_prettyAt_list_nil (level : Nat) :
    (prettyAt level (.list [])).toList = ['[', ']'] := by
  simp [prettyAt]

@[simp]
theorem toList_prettyAt_record_nil (level : Nat) :
    (prettyAt level (.record [])).toList = ['\x7b', '\x7d'] := by
  simp [prettyAt]

theorem toList_prettyAt_list (level : Nat) (item : Json) (items : List Json) (rest : List Char) :
    (prettyAt level (.list (item :: items))).toList ++ rest =
      '[' :: blockRest ']' level (prettyItems (level + 1) (item :: items)) rest :=
  toList_block '[' ']' level _ rest

theorem toList_prettyAt_record (level : Nat) (m : String × Json) (members : List (String × Json))
    (rest : List Char) :
    (prettyAt level (.record (m :: members))).toList ++ rest =
      '\x7b' :: blockRest '\x7d' level (prettyMembers (level + 1) (m :: members)) rest :=
  toList_block '\x7b' '\x7d' level _ rest

/-- The first character of a written value is neither a space nor a closing bracket. -/
theorem exists_cons_prettyAt {room : Nat} {value : Json} (h : Plain room value) (level : Nat) :
    ∃ c cs, (prettyAt level value).toList = c :: cs ∧ isSpace c = false ∧ c ≠ ']' := by
  cases h with
  | null => exact ⟨'n', _, toList_prettyAt_null level, by decide⟩
  | bool _ b =>
    cases b with
    | true => exact ⟨'t', _, toList_prettyAt_true level, by decide⟩
    | false => exact ⟨'f', _, toList_prettyAt_false level, by decide⟩
  | @integer _ n _ _ =>
    obtain ⟨c, cs, hcs, hc⟩ := exists_cons_ofInt n
    obtain ⟨hspace, hmem⟩ := of_beginsNumber hc
    refine ⟨c, cs, hcs, hspace, ?_⟩
    rintro rfl
    exact hmem (by decide)
  | text _ s => exact ⟨'"', _, toList_quote s, by decide⟩
  | @list _ items _ =>
    cases items with
    | nil => exact ⟨'[', _, toList_prettyAt_list_nil level, by decide⟩
    | cons item items =>
      have htext := toList_prettyAt_list level item items []
      rw [List.append_nil] at htext
      exact ⟨'[', _, htext, by decide⟩
  | @record _ members _ =>
    cases members with
    | nil => exact ⟨'\x7b', _, toList_prettyAt_record_nil level, by decide⟩
    | cons m members =>
      have htext := toList_prettyAt_record level m members []
      rw [List.append_nil] at htext
      exact ⟨'\x7b', _, htext, by decide⟩

theorem exists_succ_of_length_prettyAt {room : Nat} {value : Json} (h : Plain room value)
    {level fuel : Nat} (hfuel : (prettyAt level value).toList.length ≤ fuel) :
    ∃ n, fuel = n + 1 := by
  obtain ⟨c, cs, hcs, -⟩ := exists_cons_prettyAt h level
  rw [hcs, List.length_cons] at hfuel
  exact ⟨fuel - 1, by omega⟩

/-- The first line of a list does not close it. -/
theorem skipSpace_items_ne {room : Nat} {item : Json} (h : Plain room item) (level : Nat)
    (items : List Json) (rest tail : List Char) :
    skipSpace (blockRest ']' level (prettyItems (level + 1) (item :: items)) rest) ≠
      ']' :: tail := by
  obtain ⟨c, cs, hcs, hspace, hc⟩ := exists_cons_prettyAt h (level + 1)
  intro heq
  cases items with
  | nil =>
    rw [prettyItems, prettyItems, blockRest_singleton, skipSpace_line, hcs, List.cons_append,
      skipSpace_cons _ hspace] at heq
    exact hc (List.cons.inj heq).1
  | cons next items =>
    rw [prettyItems, prettyItems, blockRest_cons, skipSpace_line, hcs, List.cons_append,
      skipSpace_cons _ hspace] at heq
    exact hc (List.cons.inj heq).1

/-- The first line of an object, which begins with a name, does not close it. -/
theorem skipSpace_members_ne (level : Nat) (m : String × Json) (members : List (String × Json))
    (rest tail : List Char) :
    skipSpace (blockRest '\x7d' level (prettyMembers (level + 1) (m :: members)) rest) ≠
      '\x7d' :: tail := by
  intro heq
  cases members with
  | nil =>
    rw [prettyMembers, prettyMembers, blockRest_singleton, skipSpace_line, toList_member,
      memberRest, skipSpace_cons _ (by decide)] at heq
    exact absurd (List.cons.inj heq).1 (by decide)
  | cons next members =>
    rw [prettyMembers, prettyMembers, blockRest_cons, skipSpace_line, toList_member,
      memberRest, skipSpace_cons _ (by decide)] at heq
    exact absurd (List.cons.inj heq).1 (by decide)

theorem Plain.readsBack {room : Nat} {value : Json} (h : Plain room value) {level depth : Nat}
    (hdepth : depth + room ≤ maxDepth) : ReadsBack level depth value := by
  intro fuel rest hfuel hrest
  obtain ⟨fuel, rfl⟩ := exists_succ_of_length_prettyAt h hfuel
  -- over the value; each level of nesting takes one from the room, and adds one to the depth
  induction h generalizing level depth fuel rest with
  | null =>
    rw [toList_prettyAt_null, readValue, List.cons_append, skipSpace_cons _ (by decide)]
    rfl
  | bool _ b =>
    cases b with
    | true =>
      rw [toList_prettyAt_true, readValue, List.cons_append, skipSpace_cons _ (by decide)]
      rfl
    | false =>
      rw [toList_prettyAt_false, readValue, List.cons_append, skipSpace_cons _ (by decide)]
      rfl
  | @integer _ n hlow hhigh =>
    obtain ⟨c, cs, hcs, hc⟩ := exists_cons_ofInt n
    show readValue (fuel + 1) depth ((ofInt n).toList ++ rest) = _
    rw [hcs, List.cons_append, readValue_number fuel depth (cs ++ rest) hc, ← List.cons_append,
      ← hcs, readNumber_ofInt hlow hhigh hrest]
  | text _ s =>
    show readValue (fuel + 1) depth ((quote s).toList ++ rest) = _
    rw [toList_quote, List.cons_append, List.append_assoc, List.singleton_append, readValue,
      skipSpace_cons _ (by decide)]
    simp only [readString_quote]
    rfl
  | @list room items hitems ih =>
    have hnested (value : Json) : nested depth value = value := if_pos (by omega)
    have hread : ∀ i ∈ items, ReadsBack (level + 1) (depth + 1) i := by
      intro i hi fuel rest hfuel hrest
      obtain ⟨fuel, rfl⟩ := exists_succ_of_length_prettyAt (hitems i hi) hfuel
      exact ih i hi (by omega) _ hrest fuel hfuel
    cases items with
    | nil =>
      rw [toList_prettyAt_list_nil, readValue, List.cons_append, skipSpace_cons _ (by decide)]
      simp only [List.cons_append, List.nil_append,
        skipSpace_cons _ (show isSpace ']' = false by decide), hnested]
    | cons item items =>
      have hlength := congrArg List.length (toList_prettyAt_list level item items [])
      rw [List.append_nil, List.length_cons] at hlength
      rw [toList_prettyAt_list, readValue_list
        (skipSpace_items_ne (hitems item List.mem_cons_self) level items rest)
        (readItems_lines hread rest (by omega)), hnested]
  | @record room members hmembers ih =>
    have hnested (value : Json) : nested depth value = value := if_pos (by omega)
    have hread : ∀ m ∈ members, ReadsBack (level + 1) (depth + 1) m.2 := by
      intro m hm fuel rest hfuel hrest
      obtain ⟨fuel, rfl⟩ := exists_succ_of_length_prettyAt (hmembers m hm) hfuel
      exact ih m hm (by omega) _ hrest fuel hfuel
    cases members with
    | nil =>
      rw [toList_prettyAt_record_nil, readValue, List.cons_append, skipSpace_cons _ (by decide)]
      simp only [List.cons_append, List.nil_append,
        skipSpace_cons _ (show isSpace '\x7d' = false by decide), hnested]
    | cons m members =>
      have hlength := congrArg List.length (toList_prettyAt_record level m members [])
      rw [List.append_nil, List.length_cons] at hlength
      rw [toList_prettyAt_record, readValue_record (skipSpace_members_ne level m members rest)
        (readMembers_lines hread rest (by omega)), hnested]

/-- The text of a plain value holds that value. -/
theorem parse?_pretty {room : Nat} {value : Json} (h : Plain room value) (hroom : room ≤ maxDepth) :
    parse? (pretty value) = some value := by
  have hread : readValue (2 * (pretty value).toList.length + 2) 0 ((pretty value).toList ++ []) =
      some (value, []) :=
    h.readsBack (by omega) _ _ (by rw [pretty]; omega) nofun
  rw [List.append_nil] at hread
  simp only [parse?, hread]
  rfl

end PeriodSheet.Json
