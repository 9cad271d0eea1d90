import Mathlib
import Patchwright.Core.Rfc3339

/-!
# The order of instants and of their texts

A database that keeps instants as texts compares the texts.  In the years 0 to
9999 the fields of a text have fixed widths, from the year down to the second,
and a shorter fraction ends in a sign that is below every digit, so the order
of the texts is the order of the instants.
-/

namespace Patchwright

/-! ## Texts of digits -/

section Digits

theorem append_lt_append {first second : List Char} (hlength : first.length = second.length)
    (hlt : first < second) (rest other : List Char) : first ++ rest < second ++ other := by
  induction first generalizing second with
  | nil =>
      rw [List.length_nil] at hlength
      rw [List.eq_nil_of_length_eq_zero hlength.symm] at hlt
      exact absurd hlt (lt_irrefl _)
  | cons head first ih =>
      cases second with
      | nil => exact absurd hlength nofun
      | cons lead second =>
          rw [List.cons_append, List.cons_append, List.cons_lt_cons_iff]
          cases List.cons_lt_cons_iff.mp hlt with
          | inl hhead => exact .inl hhead
          | inr htail =>
              exact .inr ⟨htail.1, ih (Nat.succ.inj hlength) htail.2⟩

theorem digit_le {char : Char} (hdigit : char.isDigit) :
    '0'.toNat ≤ char.toNat ∧ char.toNat ≤ '9'.toNat :=
  Char.isDigit_iff_toNat.mp hdigit

/-- Of two numbers of one width, the one with the greater leading digits is
greater. -/
theorem ofDigitChars_lt {first second : List Char} (hlength : first.length = second.length)
    (hfirst : ∀ char ∈ first, char.isDigit) {low high : Nat} (hlt : low < high) :
    Nat.ofDigitChars 10 first low < Nat.ofDigitChars 10 second high := by
  induction first generalizing second low high with
  | nil =>
      rw [List.length_nil] at hlength
      rwa [List.eq_nil_of_length_eq_zero hlength.symm, Nat.ofDigitChars_nil, Nat.ofDigitChars_nil]
  | cons head first ih =>
      cases second with
      | nil => exact absurd hlength nofun
      | cons lead second =>
          rw [Nat.ofDigitChars_cons, Nat.ofDigitChars_cons]
          apply ih (Nat.succ.inj hlength) fun char hchar => hfirst char (List.mem_cons_of_mem _ hchar)
          have hhead := (digit_le (hfirst head List.mem_cons_self)).2
          have hnine : '9'.toNat = 57 := rfl
          have hzero : '0'.toNat = 48 := rfl
          omega

/-- Digits are ordered as the numbers they write. -/
theorem digits_lt {first second : List Char} (hlength : first.length = second.length)
    (hfirst : ∀ char ∈ first, char.isDigit) (hsecond : ∀ char ∈ second, char.isDigit)
    {init : Nat} (hlt : Nat.ofDigitChars 10 first init < Nat.ofDigitChars 10 second init) :
    first < second := by
  induction first generalizing second init with
  | nil =>
      rw [List.length_nil] at hlength
      rw [List.eq_nil_of_length_eq_zero hlength.symm] at hlt
      exact absurd hlt (Nat.lt_irrefl _)
  | cons head first ih =>
      cases second with
      | nil => exact absurd hlength nofun
      | cons lead second =>
          rw [Nat.ofDigitChars_cons, Nat.ofDigitChars_cons] at hlt
          have hhead := digit_le (hfirst head List.mem_cons_self)
          have hlead := digit_le (hsecond lead List.mem_cons_self)
          have htail : ∀ char ∈ second, char.isDigit :=
            fun char hchar => hsecond char (List.mem_cons_of_mem _ hchar)
          rw [List.cons_lt_cons_iff]
          rcases lt_trichotomy head.toNat lead.toNat with hbelow | hsame | habove
          · exact .inl hbelow
          · rw [hsame] at hlt
            refine .inr ⟨Char.toNat_inj.mp hsame, ?_⟩
            exact ih (Nat.succ.inj hlength)
              (fun char hchar => hfirst char (List.mem_cons_of_mem _ hchar)) htail hlt
          · have hgreater := ofDigitChars_lt (Nat.succ.inj hlength).symm htail
              (by omega : 10 * init + (lead.toNat - '0'.toNat) <
                10 * init + (head.toNat - '0'.toNat))
            exact absurd hlt (lt_asymm hgreater)

theorem padLeft_lt {width first second : Nat} (hpos : 0 < width) (hlt : first < second)
    (hsecond : second < 10 ^ width) (rest other : List Char) :
    (padLeft width first).toList ++ rest < (padLeft width second).toList ++ other := by
  obtain ⟨hlength, hdigits, hread⟩ := Rfc3339.toList_padLeft hpos (hlt.trans hsecond)
  obtain ⟨hotherLength, hotherDigits, hotherRead⟩ := Rfc3339.toList_padLeft hpos hsecond
  apply append_lt_append (hlength.trans hotherLength.symm)
  apply digits_lt (hlength.trans hotherLength.symm) hdigits hotherDigits
  rwa [hread, hotherRead]

end Digits

/-! ## Fractions -/

section Fractions

/-- Digits of one width that write the same number are the same. -/
theorem digits_inj {first second : List Char} (hlength : first.length = second.length)
    (hfirst : ∀ char ∈ first, char.isDigit) (hsecond : ∀ char ∈ second, char.isDigit)
    {init : Nat} (heq : Nat.ofDigitChars 10 first init = Nat.ofDigitChars 10 second init) :
    first = second := by
  induction first generalizing second init with
  | nil =>
      rw [List.length_nil] at hlength
      exact (List.eq_nil_of_length_eq_zero hlength.symm).symm
  | cons head first ih =>
      cases second with
      | nil => exact absurd hlength nofun
      | cons lead second =>
          rw [Nat.ofDigitChars_cons, Nat.ofDigitChars_cons] at heq
          have hhead := digit_le (hfirst head List.mem_cons_self)
          have hlead := digit_le (hsecond lead List.mem_cons_self)
          have hinit : ∀ char ∈ first, char.isDigit :=
            fun char hchar => hfirst char (List.mem_cons_of_mem _ hchar)
          have htail : ∀ char ∈ second, char.isDigit :=
            fun char hchar => hsecond char (List.mem_cons_of_mem _ hchar)
          rcases lt_trichotomy head.toNat lead.toNat with hbelow | hsame | habove
          · have hless := ofDigitChars_lt (Nat.succ.inj hlength) hinit
              (by omega : 10 * init + (head.toNat - '0'.toNat) <
                10 * init + (lead.toNat - '0'.toNat))
            exact absurd heq hless.ne
          · rw [hsame] at heq
            rw [Char.toNat_inj.mp hsame, ih (Nat.succ.inj hlength) hinit htail heq]
          · have hgreater := ofDigitChars_lt (Nat.succ.inj hlength).symm htail
              (by omega : 10 * init + (lead.toNat - '0'.toNat) <
                10 * init + (head.toNat - '0'.toNat))
            exact absurd heq hgreater.ne'

theorem padLeft_mul {width value : Nat} (zeros : Nat) (hpos : 0 < width)
    (hvalue : value < 10 ^ width) :
    (padLeft (width + zeros) (value * 10 ^ zeros)).toList =
      (padLeft width value).toList ++ List.replicate zeros '0' := by
  have hbound : value * 10 ^ zeros < 10 ^ (width + zeros) := by
    rw [Nat.pow_add]
    exact Nat.mul_lt_mul_of_pos_right hvalue (Nat.pow_pos (by decide))
  obtain ⟨hlength, hdigits, hread⟩ := Rfc3339.toList_padLeft (by omega) hbound
  obtain ⟨hshort, hshortDigits, hshortRead⟩ := Rfc3339.toList_padLeft hpos hvalue
  refine @digits_inj _ _ ?_ ?_ ?_ 0 ?_
  · rw [hlength, List.length_append, hshort, List.length_replicate]
  · exact hdigits
  · intro char hchar
    cases List.mem_append.mp hchar with
    | inl hnumber => exact hshortDigits char hnumber
    | inr hzero =>
        rw [List.eq_of_mem_replicate hzero]
        rfl
  · rw [hread, Nat.ofDigitChars_append, Nat.ofDigitChars_replicate_zero, hshortRead, Nat.mul_comm]

/-- A fraction is the nine digits of its nanoseconds with zeros cut off. -/
theorem fraction_digits {nanos : Nat} (hpos : nanos ≠ 0) (hnanos : nanos < 10 ^ 9) :
    ∃ kept zeros, (fraction nanos).toList = '.' :: (padLeft 9 nanos).toList.take kept ∧
      (padLeft 9 nanos).toList.drop kept = List.replicate zeros '0' := by
  have hcut : ∀ width zeros value, 0 < width → width + zeros = 9 → nanos = value * 10 ^ zeros →
      value < 10 ^ width → (padLeft 9 nanos).toList.take width = (padLeft width value).toList ∧
        (padLeft 9 nanos).toList.drop width = List.replicate zeros '0' := by
    intro width zeros value hwidth hsum hvalue hbound
    have hlength := (Rfc3339.toList_padLeft hwidth hbound).1
    rw [← hsum, hvalue, padLeft_mul zeros hwidth hbound]
    exact ⟨List.take_left' hlength, List.drop_left' hlength⟩
  rw [fraction, if_neg hpos]
  split
  · rename_i hmillis
    obtain ⟨htake, hdrop⟩ := hcut 3 6 (nanos / 1000000) (by decide) rfl (by omega) (by omega)
    exact ⟨3, 6, by rw [htake, String.toList_append]; rfl, hdrop⟩
  · split
    · rename_i hmicros
      obtain ⟨htake, hdrop⟩ := hcut 6 3 (nanos / 1000) (by decide) rfl (by omega) (by omega)
      exact ⟨6, 3, by rw [htake, String.toList_append]; rfl, hdrop⟩
    · obtain ⟨htake, hdrop⟩ := hcut 9 0 nanos (by decide) rfl (by omega) hnanos
      exact ⟨9, 0, by rw [htake, String.toList_append]; rfl, hdrop⟩

theorem not_lt_zeros {first second : List Char} (hlength : first.length = second.length)
    (hfirst : ∀ char ∈ first, char.isDigit) (hzeros : ∀ char ∈ second, char = '0') :
    ¬ first < second := by
  induction first generalizing second with
  | nil =>
      rw [List.length_nil] at hlength
      rw [List.eq_nil_of_length_eq_zero hlength.symm]
      exact lt_irrefl _
  | cons head first ih =>
      cases second with
      | nil => exact absurd hlength nofun
      | cons lead second =>
          have hhead := (digit_le (hfirst head List.mem_cons_self)).1
          rw [List.cons_lt_cons_iff, hzeros lead List.mem_cons_self]
          rintro (hbelow | ⟨-, htail⟩)
          · exact absurd hhead (not_le.mpr hbelow)
          · exact ih (Nat.succ.inj hlength) (fun char hchar => hfirst char (List.mem_cons_of_mem _ hchar))
              (fun char hchar => hzeros char (List.mem_cons_of_mem _ hchar)) htail

/-- Digits behind which only zeros were cut off, and a sign behind them, are
ordered as the digits: the sign is below every digit. -/
theorem take_lt {first second : List Char} (hlength : first.length = second.length)
    (hfirst : ∀ char ∈ first, char.isDigit) (hsecond : ∀ char ∈ second, char.isDigit)
    (hlt : first < second) {other : Nat} (hcut : ∀ char ∈ second.drop other, char = '0')
    (kept : Nat) (rest more : List Char) :
    first.take kept ++ '+' :: rest < second.take other ++ '+' :: more := by
  induction first generalizing second kept other with
  | nil =>
      rw [List.length_nil] at hlength
      rw [List.eq_nil_of_length_eq_zero hlength.symm] at hlt
      exact absurd hlt (lt_irrefl _)
  | cons head first ih =>
      cases other with
      | zero => exact absurd hlt (not_lt_zeros hlength hfirst hcut)
      | succ other =>
          cases second with
          | nil => exact absurd hlength nofun
          | cons lead second =>
              rw [List.take_succ_cons, List.cons_append]
              cases kept with
              | zero =>
                  rw [List.take_zero, List.nil_append, List.cons_lt_cons_iff]
                  have hlead := (digit_le (hsecond lead List.mem_cons_self)).1
                  exact .inl (lt_of_lt_of_le (by decide : '+'.toNat < '0'.toNat) hlead)
              | succ kept =>
                  rw [List.take_succ_cons, List.cons_append, List.cons_lt_cons_iff]
                  cases List.cons_lt_cons_iff.mp hlt with
                  | inl hhead => exact .inl hhead
                  | inr htail =>
                      refine .inr ⟨htail.1, ih (Nat.succ.inj hlength) ?_ ?_ htail.2 hcut kept⟩
                      · exact fun char hchar => hfirst char (List.mem_cons_of_mem _ hchar)
                      · exact fun char hchar => hsecond char (List.mem_cons_of_mem _ hchar)

theorem fraction_lt {first second : Nat} (hlt : first < second) (hsecond : second < 10 ^ 9)
    (rest more : List Char) :
    (fraction first).toList ++ '+' :: rest < (fraction second).toList ++ '+' :: more := by
  obtain ⟨other, zeros, hother, hzeros⟩ := fraction_digits (by omega : second ≠ 0) hsecond
  by_cases hzero : first = 0
  · rw [hzero, hother, List.cons_append]
    change '+' :: rest < '.' :: _
    exact List.cons_lt_cons_iff.mpr (.inl (by decide))
  · obtain ⟨kept, -, hkept, -⟩ := fraction_digits hzero (hlt.trans hsecond)
    obtain ⟨hlength, hdigits, hread⟩ := Rfc3339.toList_padLeft (by decide : 0 < 9) (hlt.trans hsecond)
    obtain ⟨hotherLength, hotherDigits, hotherRead⟩ :=
      Rfc3339.toList_padLeft (by decide : 0 < 9) hsecond
    rw [hkept, hother, List.cons_append, List.cons_append, List.cons_lt_cons_iff]
    refine .inr ⟨rfl, take_lt (hlength.trans hotherLength.symm) hdigits hotherDigits ?_ ?_ kept
      rest more⟩
    · apply digits_lt (hlength.trans hotherLength.symm) hdigits hotherDigits
      rwa [hread, hotherRead]
    · rw [hzeros]
      exact fun char hchar => List.eq_of_mem_replicate hchar

end Fractions

/-! ## Dates -/

section Dates

/-- A date that comes before another: year, month and day in this order. -/
def DateBefore (first second : Int × Nat × Nat) : Prop :=
  first.1 < second.1 ∨ first.1 = second.1 ∧
    (first.2.1 < second.2.1 ∨ first.2.1 = second.2.1 ∧ first.2.2 < second.2.2)

/-- A day of a year that begins in March, as a date of the calendar. -/
def marchDate (year : Int) (dayOfYear : Nat) : Int × Nat × Nat :=
  let shifted := (5 * dayOfYear + 2) / 153
  let month := if shifted < 10 then shifted + 3 else shifted - 9
  (year + (if month ≤ 2 then 1 else 0), month, dayOfYear - (153 * shifted + 2) / 5 + 1)

theorem marchDate_lt_year {year later : Int} {first second : Nat} (hfirst : first ≤ 365)
    (hyear : year < later) : DateBefore (marchDate year first) (marchDate later second) := by
  have hbound : (5 * first + 2) / 153 ≤ 11 := by omega
  unfold DateBefore marchDate
  dsimp only
  generalize (5 * first + 2) / 153 = shifted at *
  generalize (5 * second + 2) / 153 = other
  split_ifs <;> omega

theorem marchDate_lt_day {year : Int} {first second : Nat} (hsecond : second ≤ 365)
    (hday : first < second) : DateBefore (marchDate year first) (marchDate year second) := by
  have hbound : (5 * second + 2) / 153 ≤ 11 := by omega
  have hmono : (5 * first + 2) / 153 ≤ (5 * second + 2) / 153 := Nat.div_le_div_right (by omega)
  have hlower : 153 * ((5 * first + 2) / 153) ≤ 5 * first + 2 := Nat.mul_div_le _ _
  have hupper : 5 * first + 2 < 153 * ((5 * first + 2) / 153 + 1) :=
    Nat.lt_mul_div_succ _ (by decide)
  unfold DateBefore marchDate
  dsimp only
  generalize (5 * first + 2) / 153 = shifted at *
  generalize (5 * second + 2) / 153 = other at *
  rcases hmono.lt_or_eq with hmonth | rfl
  · split_ifs <;> omega
  · exact .inr ⟨rfl, .inr ⟨rfl, by omega⟩⟩

/-- A day of an era, as a date. -/
theorem civilFromDays_eq (days : Int) :
    let era := (days + 719468) / 146097
    let dayOfEra := ((days + 719468) % 146097).toNat
    let yearOfEra := commonDays dayOfEra / 365
    civilFromDays days = marchDate (yearOfEra + era * 400) (dayOfEra - yearStart yearOfEra) ∧
      yearOfEra < 400 ∧ yearStart yearOfEra ≤ dayOfEra ∧
      dayOfEra - yearStart yearOfEra ≤ 365 := by
  intro era dayOfEra yearOfEra
  have hera : dayOfEra < 146097 := by omega
  obtain ⟨hyear, hstart, hend⟩ := yearStart_le hera
  have hnext := yearStart_succ_le _ hyear
  have hyearStart : yearStart yearOfEra =
      365 * yearOfEra + yearOfEra / 4 - yearOfEra / 100 := by
    rw [yearStart]
    omega
  have hday : dayOfEra - yearStart yearOfEra ≤ 365 := by
    change dayOfEra - yearStart (commonDays dayOfEra / 365) ≤ 365
    omega
  refine ⟨?_, hyear, hstart, hday⟩
  rw [hyearStart]
  rfl

/-- A later day has a later date. -/
theorem civilFromDays_lt {first second : Int} (hlt : first < second) :
    DateBefore (civilFromDays first) (civilFromDays second) := by
  obtain ⟨hfirst, hyear, hstart, hday⟩ := civilFromDays_eq first
  obtain ⟨hsecond, hotherYear, hotherStart, hotherDay⟩ := civilFromDays_eq second
  have hera : (first + 719468) / 146097 ≤ (second + 719468) / 146097 :=
    Int.ediv_le_ediv (by decide) (by omega)
  rw [hfirst, hsecond]
  rcases hera.lt_or_eq with hlater | hsame
  · apply marchDate_lt_year hday
    omega
  · have hdays : ((first + 719468) % 146097).toNat < ((second + 719468) % 146097).toNat := by
      omega
    have hmono := Nat.div_le_div_right (c := 365) (commonDays_mono hdays.le)
    rcases hmono.lt_or_eq with hlater | hequal
    · apply marchDate_lt_year hday
      omega
    · rw [hsame, hequal]
      apply marchDate_lt_day hotherDay
      rw [hequal] at hstart
      omega

end Dates

/-! ## Texts -/

section Texts

/-- The instant falls in a year that is written in four digits. -/
def ShortYear (instant : DateTime) : Prop := 0 ≤ civilYear instant ∧ civilYear instant ≤ 9999

variable {first second : DateTime}

/-- The clock of a day comes before another: hours, minutes and seconds. -/
theorem clock_lt {early late : Nat} (hlt : early < late) (hlate : late < 86400)
    (rest more : List Char) :
    (padLeft 2 (early / 3600)).toList ++ ':' :: ((padLeft 2 (early / 60 % 60)).toList ++
        ':' :: ((padLeft 2 (early % 60)).toList ++ rest)) <
      (padLeft 2 (late / 3600)).toList ++ ':' :: ((padLeft 2 (late / 60 % 60)).toList ++
        ':' :: ((padLeft 2 (late % 60)).toList ++ more)) := by
  have hhours : early / 3600 ≤ late / 3600 := Nat.div_le_div_right hlt.le
  rcases hhours.lt_or_eq with hhour | hhour
  · exact padLeft_lt (by decide) hhour (by omega) _ _
  rw [hhour]
  apply List.append_left_lt
  rw [List.cons_lt_cons_iff]
  refine .inr ⟨rfl, ?_⟩
  have hminutes : early / 60 % 60 ≤ late / 60 % 60 := by omega
  rcases hminutes.lt_or_eq with hminute | hminute
  · exact padLeft_lt (by decide) hminute (by omega) _ _
  rw [hminute]
  apply List.append_left_lt
  rw [List.cons_lt_cons_iff]
  exact .inr ⟨rfl, padLeft_lt (by decide) (by omega) (by omega) _ _⟩

theorem date_lt {date other : Int × Nat × Nat} (hlt : DateBefore date other)
    (hyear : 0 ≤ date.1) (hshort : other.1 ≤ 9999)
    (hvalid : ValidDate other.1 other.2.1 other.2.2) (rest more : List Char) :
    (padLeft 4 date.1.toNat).toList ++ '-' :: ((padLeft 2 date.2.1).toList ++
        '-' :: ((padLeft 2 date.2.2).toList ++ rest)) <
      (padLeft 4 other.1.toNat).toList ++ '-' :: ((padLeft 2 other.2.1).toList ++
        '-' :: ((padLeft 2 other.2.2).toList ++ more)) := by
  have hday : other.2.2 < 10 ^ 2 := by
    have hlength : daysInMonth other.1 other.2.1 ≤ 31 := by
      rw [daysInMonth]
      split
      · split <;> decide
      · split <;> decide
    exact (hvalid.2.2.2.trans hlength).trans_lt (by decide)
  rcases hlt with hbefore | ⟨hsame, hlater⟩
  · exact padLeft_lt (by decide) (by omega) (by omega) _ _
  rw [hsame]
  apply List.append_left_lt
  rw [List.cons_lt_cons_iff]
  refine .inr ⟨rfl, ?_⟩
  rcases hlater with hmonth | ⟨hmonth, hlater⟩
  · exact padLeft_lt (by decide) hmonth (hvalid.2.1.trans_lt (by decide)) _ _
  rw [hmonth]
  apply List.append_left_lt
  rw [List.cons_lt_cons_iff]
  exact .inr ⟨rfl, padLeft_lt (by decide) hlater hday _ _⟩

/-- Of two numbers with one quotient, the less has the less remainder. -/
theorem toNat_emod_lt {low high size : Int} (hsize : 0 < size) (hsame : low / size = high / size)
    (hlt : low < high) : (low % size).toNat < (high % size).toNat := by
  have hlow := Int.emod_add_mul_ediv low size
  have hhigh := Int.emod_add_mul_ediv high size
  rw [hsame] at hlow
  have hlower := Int.emod_nonneg low hsize.ne'
  omega

theorem toRfc3339_lt (hlt : first < second) (hfirst : ShortYear first)
    (hsecond : ShortYear second) : toRfc3339 first < toRfc3339 second := by
  have hvalid := civilFromDays_valid (second / nanosPerSecond / 86400)
  have hseconds : first / nanosPerSecond ≤ second / nanosPerSecond :=
    Int.ediv_le_ediv (by decide) hlt.le
  have hdays : first / nanosPerSecond / 86400 ≤ second / nanosPerSecond / 86400 :=
    Int.ediv_le_ediv (by decide) hseconds
  rw [String.lt_iff_toList_lt, Rfc3339.toList_toRfc3339 (Prod.eta _).symm,
    Rfc3339.toList_toRfc3339 (Prod.eta _).symm]
  rcases hdays.lt_or_eq with hday | hday
  · exact date_lt (civilFromDays_lt hday) hfirst.1 hsecond.2 hvalid _ _
  have htail : ∀ (text : List Char) (mark : Char) {rest more : List Char}, rest < more →
      text ++ mark :: rest < text ++ mark :: more := by
    intro text mark rest more hrest
    apply List.append_left_lt
    exact List.cons_lt_cons_iff.mpr (.inr ⟨rfl, hrest⟩)
  rw [hday]
  apply htail
  apply htail
  apply htail
  rcases hseconds.lt_or_eq with hsecond | hsecond
  · have hbound := Int.emod_lt_of_pos (second / nanosPerSecond) (by decide : (0 : Int) < 86400)
    exact clock_lt (toNat_emod_lt (by decide) hday hsecond) (by omega) _ _
  rw [hsecond]
  apply htail
  apply htail
  apply List.append_left_lt
  have hbound : (second % nanosPerSecond).toNat < 10 ^ 9 := by
    have hlt := Int.emod_lt_of_pos second (by decide : (0 : Int) < 1000000000)
    simp only [nanosPerSecond]
    omega
  exact fraction_lt (toNat_emod_lt (by decide) hsecond hlt) hbound _ _

theorem ShortYear.rfc3339_eq {instant : DateTime} (hshort : ShortYear instant) :
    rfc3339 instant = toRfc3339 instant := by
  rw [rfc3339, if_neg (not_lt.mpr hshort.1), if_pos hshort.2]

/-- In the years of four digits the texts are ordered as the instants. -/
theorem rfc3339_lt_iff (hfirst : ShortYear first) (hsecond : ShortYear second) :
    rfc3339 first < rfc3339 second ↔ first < second := by
  rw [hfirst.rfc3339_eq, hsecond.rfc3339_eq]
  constructor
  · intro htext
    rcases lt_trichotomy first second with hlt | rfl | hgt
    · exact hlt
    · exact absurd htext (lt_irrefl _)
    · exact absurd htext (lt_asymm (toRfc3339_lt hgt hsecond hfirst))
  · intro hlt
    exact toRfc3339_lt hlt hfirst hsecond

end Texts

end Patchwright
