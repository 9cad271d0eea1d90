import Patchwright.Core.InstantOrder

/-!
# Stored timestamps

A timestamp in a column is the text of an instant as the time library writes it,
or, in rows of earlier versions, the date and the clock around a space, which
the reader of a snapshot's time still accepts.  Both are compared as texts.  On
one day a text with the space comes before every other one, whatever the clock
says, so the two forms are in order only where the earlier version's row is the
earlier one or the days differ.
-/

namespace Patchwright

/-- The text of an instant in the form `YYYY-MM-DD HH:MM:SS`. -/
def legacyText (instant : DateTime) : String :=
  let second := instant / nanosPerSecond
  let (year, month, day) := civilFromDays (second / 86400)
  let clock := (second % 86400).toNat
  padLeft 4 year.toNat ++ "-" ++ padLeft 2 month ++ "-" ++ padLeft 2 day ++ " " ++
    padLeft 2 (clock / 3600) ++ ":" ++ padLeft 2 (clock / 60 % 60) ++ ":" ++
    padLeft 2 (clock % 60)

inductive TimestampForm where
  | rfc3339
  | legacy
  deriving DecidableEq, Repr

/-- A timestamp of a row: an instant of a year with four digits, on a whole
second in the form that has no fraction. -/
structure StoredTimestamp where
  form : TimestampForm
  instant : DateTime
  short : ShortYear instant
  whole : form = .legacy → instant % nanosPerSecond = 0

namespace StoredTimestamp

def text (stored : StoredTimestamp) : String :=
  match stored.form with
  | .rfc3339 => rfc3339 stored.instant
  | .legacy => legacyText stored.instant

/-- The day of the instant, counted from the epoch. -/
def day (stored : StoredTimestamp) : Int := stored.instant / nanosPerSecond / 86400

/-- The texts compare as the instants do. -/
def InOrder (first second : StoredTimestamp) : Prop :=
  compare first.text second.text = compare first.instant second.instant

/-- The one timestamp is in the earlier form, the other is not, and it is the
earlier one. -/
def LegacyFirst (first second : StoredTimestamp) : Prop :=
  first.form = .legacy ∧ second.form = .rfc3339 ∧ first.instant < second.instant

/-! ## Texts, field by field -/

def datePart (days : Int) : List Char :=
  (padLeft 4 (civilFromDays days).1.toNat).toList ++ '-' ::
    ((padLeft 2 (civilFromDays days).2.1).toList ++ '-' ::
      (padLeft 2 (civilFromDays days).2.2).toList)

/-- What separates the date from the clock. -/
def separator : TimestampForm → Char
  | .rfc3339 => 'T'
  | .legacy => ' '

def clockPart (stored : StoredTimestamp) (rest : List Char) : List Char :=
  let clock := (stored.instant / nanosPerSecond % 86400).toNat
  (padLeft 2 (clock / 3600)).toList ++ ':' :: ((padLeft 2 (clock / 60 % 60)).toList ++
    ':' :: ((padLeft 2 (clock % 60)).toList ++ rest))

/-- A text is its date, the separator of its form and its clock. -/
theorem toList_text (stored : StoredTimestamp) : ∃ rest,
    stored.text.toList = datePart stored.day ++ separator stored.form :: clockPart stored rest := by
  have hdash : "-".toList = ['-'] := rfl
  have hcolon : ":".toList = [':'] := rfl
  have hspace : " ".toList = [' '] := rfl
  rcases hform : stored.form with _ | _
  · rw [text, hform]
    dsimp only
    rcases hcivil : civilFromDays (stored.instant / nanosPerSecond / 86400) with ⟨year, month, date⟩
    rw [stored.short.rfc3339_eq, Rfc3339.toList_toRfc3339 hcivil]
    refine ⟨(fraction (stored.instant % nanosPerSecond).toNat).toList ++
      ['+', '0', '0', ':', '0', '0'], ?_⟩
    simp only [datePart, clockPart, separator, day, hcivil, List.append_assoc, List.cons_append]
  · refine ⟨[], ?_⟩
    rw [text, hform]
    simp only [legacyText, datePart, clockPart, separator, day, String.toList_append, hdash, hcolon,
      hspace, List.append_assoc, List.cons_append, List.nil_append, List.append_nil]

variable {first second : StoredTimestamp}

theorem text_lt_of_day_lt (hday : first.day < second.day) : first.text < second.text := by
  obtain ⟨rest, hfirst⟩ := toList_text first
  obtain ⟨more, hsecond⟩ := toList_text second
  rw [String.lt_iff_toList_lt, hfirst, hsecond]
  simp only [datePart, List.append_assoc, List.cons_append]
  exact date_lt (civilFromDays_lt hday) first.short.1 second.short.2 (civilFromDays_valid _) _ _

/-- On one day the space comes before the letter. -/
theorem text_lt_of_legacy (hday : first.day = second.day) (hfirst : first.form = .legacy)
    (hsecond : second.form = .rfc3339) : first.text < second.text := by
  obtain ⟨rest, hfirstText⟩ := toList_text first
  obtain ⟨more, hsecondText⟩ := toList_text second
  rw [String.lt_iff_toList_lt, hfirstText, hsecondText, hday, hfirst, hsecond]
  apply List.append_left_lt
  exact List.cons_lt_cons_iff.mpr (.inl (by decide))

/-- Two texts of one form are in the order of the instants. -/
theorem text_lt_of_form (hform : first.form = second.form) (hlt : first.instant < second.instant) :
    first.text < second.text := by
  rcases hsecond : second.form with _ | _
  · rw [text, text, hform, hsecond]
    exact (rfc3339_lt_iff first.short second.short).mpr hlt
  · have hseconds : first.instant / nanosPerSecond < second.instant / nanosPerSecond := by
      have hfirstWhole := Int.emod_add_mul_ediv first.instant nanosPerSecond
      have hsecondWhole := Int.emod_add_mul_ediv second.instant nanosPerSecond
      rw [first.whole (hform.trans hsecond)] at hfirstWhole
      rw [second.whole hsecond] at hsecondWhole
      have hpos : (0 : Int) < nanosPerSecond := by decide
      rw [← hfirstWhole, ← hsecondWhole, zero_add, zero_add] at hlt
      exact lt_of_mul_lt_mul_left hlt hpos.le
    have hdays : first.day ≤ second.day := Int.ediv_le_ediv (by decide) hseconds.le
    rcases hdays.lt_or_eq with hday | hday
    · exact text_lt_of_day_lt hday
    · obtain ⟨rest, hfirstText⟩ := toList_text first
      obtain ⟨more, hsecondText⟩ := toList_text second
      rw [String.lt_iff_toList_lt, hfirstText, hsecondText, hday, hform]
      apply List.append_left_lt
      refine List.cons_lt_cons_iff.mpr (.inr ⟨rfl, clock_lt ?_ (by omega) _ _⟩)
      exact toNat_emod_lt (by decide) hday hseconds

theorem LegacyFirst.lt_text (hfirst : LegacyFirst first second) : first.text < second.text := by
  have hseconds : first.instant / nanosPerSecond ≤ second.instant / nanosPerSecond :=
    Int.ediv_le_ediv (by decide) hfirst.2.2.le
  have hdays : first.day ≤ second.day := Int.ediv_le_ediv (by decide) hseconds
  rcases hdays.lt_or_eq with hday | hday
  · exact text_lt_of_day_lt hday
  · exact text_lt_of_legacy hday hfirst.1 hfirst.2.1

/-! ## The order of the texts -/

theorem inOrder_of_lt (htext : first.text < second.text) :
    InOrder first second ↔ first.instant < second.instant := by
  rw [InOrder, compare_lt_iff_lt.mpr htext, eq_comm, compare_lt_iff_lt]

theorem InOrder.symm_iff : InOrder first second ↔ InOrder second first := by
  rw [InOrder, InOrder, Std.OrientedOrd.eq_swap (a := first.text),
    Std.OrientedOrd.eq_swap (a := first.instant), Ordering.swap_inj]

theorem instant_lt_of_day_lt (hday : first.day < second.day) : first.instant < second.instant := by
  by_contra hle
  have hseconds : second.instant / nanosPerSecond ≤ first.instant / nanosPerSecond :=
    Int.ediv_le_ediv (by decide) (not_lt.mp hle)
  exact absurd (Int.ediv_le_ediv (by decide) hseconds) (not_le.mpr hday)

/-- On one day two forms are in order where the one with the space is the
earlier. -/
theorem inOrder_of_forms (hday : first.day = second.day) (hform : first.form ≠ second.form) :
    InOrder first second ↔ LegacyFirst first second ∨ LegacyFirst second first := by
  rcases hfirst : first.form with _ | _ <;> rcases hsecond : second.form with _ | _
  · exact absurd (hfirst.trans hsecond.symm) hform
  · rw [InOrder.symm_iff, inOrder_of_lt (text_lt_of_legacy hday.symm hsecond hfirst)]
    exact ⟨fun hlt => .inr ⟨hsecond, hfirst, hlt⟩, fun hor => hor.elim
      (fun hlegacy => absurd (hfirst.symm.trans hlegacy.1) (by decide)) fun hlegacy => hlegacy.2.2⟩
  · rw [inOrder_of_lt (text_lt_of_legacy hday hfirst hsecond)]
    exact ⟨fun hlt => .inl ⟨hfirst, hsecond, hlt⟩, fun hor => hor.elim
      (fun hlegacy => hlegacy.2.2) fun hlegacy => absurd (hsecond.symm.trans hlegacy.1) (by decide)⟩
  · exact absurd (hfirst.trans hsecond.symm) hform

/-- Two stored texts compare as their instants do exactly where they have one
form, fall on different days, or the one in the earlier form is the earlier. -/
theorem inOrder_iff (first second : StoredTimestamp) : InOrder first second ↔
    first.form = second.form ∨ first.day ≠ second.day ∨
      LegacyFirst first second ∨ LegacyFirst second first := by
  rcases lt_trichotomy first.day second.day with hday | hday | hday
  · rw [inOrder_of_lt (text_lt_of_day_lt hday)]
    exact iff_of_true (instant_lt_of_day_lt hday) (.inr (.inl hday.ne))
  · by_cases hform : first.form = second.form
    · refine iff_of_true ?_ (.inl hform)
      rcases lt_trichotomy first.instant second.instant with hlt | heq | hgt
      · exact (inOrder_of_lt (text_lt_of_form hform hlt)).mpr hlt
      · rw [InOrder, text, text, hform, heq, compare_eq_iff_eq.mpr rfl, compare_eq_iff_eq.mpr rfl]
      · rw [InOrder.symm_iff]
        exact (inOrder_of_lt (text_lt_of_form hform.symm hgt)).mpr hgt
    · rw [inOrder_of_forms hday hform]
      refine ⟨fun hfirst => .inr (.inr hfirst), ?_⟩
      rintro (hsame | hdays | hfirst)
      exacts [absurd hsame hform, absurd hday hdays, hfirst]
  · rw [InOrder.symm_iff, inOrder_of_lt (text_lt_of_day_lt hday)]
    exact iff_of_true (instant_lt_of_day_lt hday) (.inr (.inl hday.ne'))

/-- Timestamps that are all written by the time library are in order. -/
theorem inOrder_of_rfc3339 (hfirst : first.form = .rfc3339) (hsecond : second.form = .rfc3339) :
    InOrder first second :=
  (inOrder_iff first second).mpr (.inl (hfirst.trans hsecond.symm))

end StoredTimestamp

namespace Sample

/-- 1 July 2026, 23:00:00, in a row of an earlier version. -/
def legacyEvening : StoredTimestamp where
  form := .legacy
  instant := seconds 1782946800
  short := ⟨by decide +kernel, by decide +kernel⟩
  whole := fun _ => by decide +kernel

/-- The morning of the same day. -/
def rfc3339Morning : StoredTimestamp where
  form := .rfc3339
  instant := seconds 1782867600
  short := ⟨by decide +kernel, by decide +kernel⟩
  whole := nofun

end Sample

/-- The text `2026-07-01 23:00:00` is less than `2026-07-01T01:00:00+00:00`. -/
theorem storedTexts_misordered :
    Sample.legacyEvening.text = "2026-07-01 23:00:00" ∧
      Sample.rfc3339Morning.text = "2026-07-01T01:00:00+00:00" ∧
      ¬ ∀ first second : StoredTimestamp, StoredTimestamp.InOrder first second := by
  refine ⟨by decide, by decide, fun hall => ?_⟩
  have htext := StoredTimestamp.text_lt_of_legacy
    (by decide : Sample.legacyEvening.day = Sample.rfc3339Morning.day) rfl rfl
  have hearlier := (StoredTimestamp.inOrder_of_lt htext).mp (hall _ _)
  exact absurd hearlier (by decide)

end Patchwright
