import Mathlib
import Patchwright.Core.Identity

/-!
# Reading instants

The text of an instant as the time library writes it in a year of any number of
digits, and the reader of the same format.  The reader takes exactly four
digits of a year, so it reads an instant back exactly when its year has no
more.  The calendar rests on the number of days before a year of an era of 400
years, and on counting the days of an era without its leap days.
-/

namespace Patchwright

/-! ## The calendar -/

def isLeapYear (year : Int) : Bool :=
  year % 4 = 0 && (year % 100 ≠ 0 || year % 400 = 0)

def daysInMonth (year : Int) (month : Nat) : Nat :=
  if month = 2 then if isLeapYear year then 29 else 28
  else if month = 4 ∨ month = 6 ∨ month = 9 ∨ month = 11 then 30
  else 31

/-- A day of the Gregorian calendar. -/
def ValidDate (year : Int) (month day : Nat) : Prop :=
  1 ≤ month ∧ month ≤ 12 ∧ 1 ≤ day ∧ day ≤ daysInMonth year month

instance (year : Int) (month day : Nat) : Decidable (ValidDate year month day) :=
  inferInstanceAs (Decidable (_ ∧ _ ∧ _ ∧ _))

/-- The number of a day of an era, the leap days before it left out. -/
def commonDays (dayOfEra : Nat) : Nat :=
  dayOfEra - dayOfEra / 1460 + dayOfEra / 36524 - dayOfEra / 146096

/-- The day of an era on which a year of it begins. -/
def yearStart (yearOfEra : Nat) : Nat :=
  365 * yearOfEra + yearOfEra / 4 - yearOfEra / 100 + yearOfEra / 400

theorem commonDays_mono : Monotone commonDays := by
  apply monotone_nat_of_le_succ
  intro day
  rw [commonDays, commonDays]
  omega

set_option maxRecDepth 4000 in
theorem commonDays_yearStart : ∀ year < 400, 365 * year ≤ commonDays (yearStart year) ∧
    commonDays (yearStart (year + 1) - 1) < 365 * (year + 1) := by
  decide

set_option maxRecDepth 4000 in
theorem yearStart_succ_le : ∀ year < 400, yearStart (year + 1) ≤ yearStart year + 366 := by
  decide

/-- The common days of a day tell its year: the year has begun, and the next
one has not. -/
theorem yearStart_le {dayOfEra : Nat} (hera : dayOfEra < 146097) :
    commonDays dayOfEra / 365 < 400 ∧ yearStart (commonDays dayOfEra / 365) ≤ dayOfEra ∧
      dayOfEra < yearStart (commonDays dayOfEra / 365 + 1) := by
  have hyear : commonDays dayOfEra / 365 < 400 := by
    have hlast : commonDays dayOfEra ≤ commonDays 146096 := commonDays_mono (by omega)
    have hvalue : commonDays 146096 = 145999 := rfl
    omega
  generalize hyearOfEra : commonDays dayOfEra / 365 = year at hyear ⊢
  refine ⟨hyear, ?_, ?_⟩
  · by_contra hbefore
    cases year with
    | zero => exact hbefore (Nat.zero_le _)
    | succ year =>
        have hmono : commonDays dayOfEra ≤ commonDays (yearStart (year + 1) - 1) :=
          commonDays_mono (by omega)
        have hbound := (commonDays_yearStart year (by omega)).2
        omega
  · by_contra hafter
    have hmono : commonDays (yearStart (year + 1)) ≤ commonDays dayOfEra :=
      commonDays_mono (by omega)
    by_cases hlast : year + 1 < 400
    · have hbound := (commonDays_yearStart (year + 1) hlast).1
      omega
    · have hend : yearStart (year + 1) = 146097 := by
        rw [show year + 1 = 400 by omega]
        rfl
      omega

/-- The 366th day of a year exists where the calendar year it ends in is a leap
year. -/
theorem lastDay_isLeapYear {yearOfEra : Nat} (era : Int) (hyear : yearOfEra < 400)
    (hlast : yearStart yearOfEra + 365 < yearStart (yearOfEra + 1)) :
    isLeapYear (yearOfEra + era * 400 + 1) = true := by
  rw [yearStart, yearStart] at hlast
  simp only [isLeapYear, Bool.and_eq_true, Bool.or_eq_true, decide_eq_true_iff]
  omega

/-- The months, counted from March, in the days they have. -/
theorem monthDay_valid (dayOfYear : Nat) (year : Int) (hday : dayOfYear ≤ 365)
    (hleap : dayOfYear = 365 → isLeapYear (year + 1)) :
    let shifted := (5 * dayOfYear + 2) / 153
    let day := dayOfYear - (153 * shifted + 2) / 5 + 1
    let month := if shifted < 10 then shifted + 3 else shifted - 9
    ValidDate (year + if month ≤ 2 then 1 else 0) month day := by
  intro shifted day month
  have hshifted : shifted ≤ 11 := by omega
  have hlower : 153 * shifted ≤ 5 * dayOfYear + 2 := Nat.mul_div_le _ _
  have hupper : 5 * dayOfYear + 2 < 153 * (shifted + 1) := Nat.lt_mul_div_succ _ (by decide)
  change ValidDate (year + if (if shifted < 10 then shifted + 3 else shifted - 9) ≤ 2 then 1 else 0)
    (if shifted < 10 then shifted + 3 else shifted - 9)
    (dayOfYear - (153 * shifted + 2) / 5 + 1)
  generalize shifted = count at *
  by_cases hfebruary : count = 11
  · subst hfebruary
    refine ⟨by decide, by decide, Nat.le_add_left 1 _, ?_⟩
    change dayOfYear - 337 + 1 ≤ if isLeapYear (year + 1) then 29 else 28
    split
    · omega
    · rename_i hcommon
      have hne : dayOfYear ≠ 365 := fun hlast => hcommon (hleap hlast)
      omega
  · have hmonth : count ≤ 10 := by omega
    interval_cases count
    all_goals
      refine ⟨by decide, by decide, Nat.le_add_left 1 _, ?_⟩
      simp only [daysInMonth]
      norm_num
      omega

theorem civilFromDays_valid (days : Int) :
    ValidDate (civilFromDays days).1 (civilFromDays days).2.1 (civilFromDays days).2.2 := by
  have hera : ((days + 719468) % 146097).toNat < 146097 := by omega
  have hstart := yearStart_le hera
  generalize hday : ((days + 719468) % 146097).toNat = dayOfEra at hera hstart
  have hyearStart : yearStart (commonDays dayOfEra / 365) =
      365 * (commonDays dayOfEra / 365) + commonDays dayOfEra / 365 / 4 -
        commonDays dayOfEra / 365 / 100 := by
    rw [yearStart]
    omega
  have hnext := yearStart_succ_le _ hstart.1
  have hvalid := monthDay_valid (dayOfEra - yearStart (commonDays dayOfEra / 365))
    ((commonDays dayOfEra / 365 : Nat) + (days + 719468) / 146097 * 400) (by omega)
    (fun hlast => lastDay_isLeapYear _ hstart.1 (by omega))
  rw [hyearStart] at hvalid
  rw [civilFromDays]
  dsimp only
  rw [hday]
  exact hvalid

/-! ## The text of an instant -/

def civilYear (instant : DateTime) : Int := (civilFromDays (instant / nanosPerSecond / 86400)).1

/-- The text of an instant of any year: a year outside of four digits carries
its sign. -/
def rfc3339 (instant : DateTime) : String :=
  let year := civilYear instant
  if year < 0 then
    "-" ++ padLeft 4 (-year).toNat ++ String.ofList ((toRfc3339 instant).toList.drop 4)
  else if year ≤ 9999 then toRfc3339 instant
  else "+" ++ toRfc3339 instant

/-- What the reader takes from a text. -/
structure Rfc3339 where
  year : Nat
  month : Nat
  day : Nat
  hour : Nat
  minute : Nat
  second : Nat
  nanosecond : Nat
  offsetMinutes : Int
  deriving DecidableEq, Repr

namespace Rfc3339

/-- A number of a fixed count of digits. -/
def number (width : Nat) (chars : List Char) : Option (Nat × List Char) :=
  if (chars.take width).length = width ∧ (chars.take width).all Char.isDigit then
    some (Nat.ofDigitChars 10 (chars.take width) 0, chars.drop width)
  else none

/-- One of the characters. -/
def char (allowed : List Char) : List Char → Option (List Char)
  | head :: chars => if head ∈ allowed then some chars else none
  | [] => none

def readDate (chars : List Char) : Option ((Nat × Nat × Nat) × List Char) := do
  let (year, chars) ← number 4 chars
  let chars ← char ['-'] chars
  let (month, chars) ← number 2 chars
  let chars ← char ['-'] chars
  let (day, chars) ← number 2 chars
  if ValidDate year month day then some ((year, month, day), chars) else none

def readTime (chars : List Char) : Option ((Nat × Nat × Nat) × List Char) := do
  let (hour, chars) ← number 2 chars
  let chars ← char [':'] chars
  let (minute, chars) ← number 2 chars
  let chars ← char [':'] chars
  let (second, chars) ← number 2 chars
  if hour ≤ 23 ∧ minute ≤ 59 ∧ second ≤ 60 then some ((hour, minute, second), chars) else none

/-- A fraction is optional; of its digits the first nine count. -/
def readNanosecond : List Char → Option (Nat × List Char)
  | '.' :: chars =>
      let digits := chars.takeWhile Char.isDigit
      if digits = [] then none
      else
        let kept := digits.take 9
        some (Nat.ofDigitChars 10 kept 0 * 10 ^ (9 - kept.length), chars.drop digits.length)
  | chars => some (0, chars)

def readOffset (chars : List Char) : Option (Int × List Char) :=
  match chars with
  | [] => none
  | sign :: rest =>
      if sign = 'Z' ∨ sign = 'z' then some (0, rest)
      else do
        let rest ← char ['+', '-', '\u2212'] chars
        let (hours, rest) ← number 2 rest
        let rest ← char [':'] rest
        let (minutes, rest) ← number 2 rest
        if hours ≤ 23 ∧ minutes ≤ 59 then
          let magnitude : Int := hours * 60 + minutes
          some (if sign = '+' then magnitude else -magnitude, rest)
        else none

def parse (text : String) : Option Rfc3339 := do
  let ((year, month, day), chars) ← readDate text.toList
  let chars ← char ['t', 'T', ' '] chars
  let ((hour, minute, second), chars) ← readTime chars
  let (nanosecond, chars) ← readNanosecond chars
  let (offsetMinutes, chars) ← readOffset chars
  if chars = [] then
    some { year, month, day, hour, minute, second, nanosecond, offsetMinutes }
  else none

/-! ### Reading back what is written -/

theorem toList_padLeft {width number : Nat} (hpos : 0 < width) (hnumber : number < 10 ^ width) :
    (padLeft width number).toList.length = width ∧
      (∀ char ∈ (padLeft width number).toList, char.isDigit) ∧
      Nat.ofDigitChars 10 (padLeft width number).toList 0 = number := by
  have hlength := (Nat.length_toDigits_le_iff (by decide : 1 < 10) hpos).mpr hnumber
  have hlist : (padLeft width number).toList =
      List.replicate (width - (Nat.toDigits 10 number).length) '0' ++ Nat.toDigits 10 number := by
    rw [padLeft, String.toList_ofList, Nat.toString_eq_ofList_toDigits, String.toList_ofList]
  refine ⟨?_, ?_, ?_⟩
  · rw [hlist, List.length_append, List.length_replicate]
    omega
  · rw [hlist]
    intro char hchar
    rcases List.mem_append.mp hchar with hzero | hdigit
    · rw [List.eq_of_mem_replicate hzero]
      rfl
    · exact toDigits_isDigit number char hdigit
  · rw [hlist, Nat.ofDigitChars_append, Nat.ofDigitChars_replicate_zero, Nat.mul_zero,
      Nat.ofDigitChars_ten_toDigits]

/-- A padded number is read back. -/
theorem number_padLeft {width value : Nat} (hpos : 0 < width) (hvalue : value < 10 ^ width)
    (rest : List Char) :
    number width ((padLeft width value).toList ++ rest) = some (value, rest) := by
  obtain ⟨hlength, hdigits, hread⟩ := toList_padLeft hpos hvalue
  have htake : ((padLeft width value).toList ++ rest).take width = (padLeft width value).toList :=
    List.take_left' hlength
  have hdrop : ((padLeft width value).toList ++ rest).drop width = rest :=
    List.drop_left' hlength
  rw [number, htake, hdrop, hread]
  exact if_pos ⟨hlength, List.all_eq_true.mpr hdigits⟩

theorem readDate_civil {year : Int} {month day : Nat} (hyear : 0 ≤ year ∧ year ≤ 9999)
    (hvalid : ValidDate year month day) (rest : List Char) :
    readDate ((padLeft 4 year.toNat).toList ++ '-' :: ((padLeft 2 month).toList ++
      '-' :: ((padLeft 2 day).toList ++ rest))) = some ((year.toNat, month, day), rest) := by
  have hmonth : month < 10 ^ 2 := hvalid.2.1.trans_lt (by decide)
  have hday : day < 10 ^ 2 := by
    have hlength : daysInMonth year month ≤ 31 := by
      rw [daysInMonth]
      split
      · split <;> decide
      · split <;> decide
    exact (hvalid.2.2.2.trans hlength).trans_lt (by decide)
  have hnat : (year.toNat : Int) = year := Int.toNat_of_nonneg hyear.1
  rw [readDate, number_padLeft (by decide) (by omega)]
  dsimp only [Option.bind_eq_bind, Option.bind_some, char]
  rw [if_pos List.mem_cons_self, Option.bind_some, number_padLeft (by decide) hmonth]
  dsimp only [Option.bind_some]
  rw [if_pos List.mem_cons_self, Option.bind_some, number_padLeft (by decide) hday]
  dsimp only [Option.bind_some]
  rw [hnat, if_pos hvalid]

theorem readTime_clock {hour minute second : Nat} (hhour : hour ≤ 23) (hminute : minute ≤ 59)
    (hsecond : second ≤ 59) (rest : List Char) :
    readTime ((padLeft 2 hour).toList ++ ':' :: ((padLeft 2 minute).toList ++
      ':' :: ((padLeft 2 second).toList ++ rest))) = some ((hour, minute, second), rest) := by
  rw [readTime, number_padLeft (by decide) (by omega)]
  dsimp only [Option.bind_eq_bind, Option.bind_some, char]
  rw [if_pos List.mem_cons_self, Option.bind_some, number_padLeft (by decide) (by omega)]
  dsimp only [Option.bind_some]
  rw [if_pos List.mem_cons_self, Option.bind_some, number_padLeft (by decide) (by omega)]
  dsimp only [Option.bind_some]
  rw [if_pos ⟨hhour, hminute, by omega⟩]

/-- Digits after a point, up to the sign of the offset. -/
theorem readNanosecond_digits {width value : Nat} (hpos : 0 < width) (hvalue : value < 10 ^ width)
    (rest : List Char) :
    ∃ found, readNanosecond ('.' :: ((padLeft width value).toList ++ '+' :: rest)) =
      some (found, '+' :: rest) := by
  obtain ⟨hlength, hdigits, -⟩ := toList_padLeft hpos hvalue
  have htake : ((padLeft width value).toList ++ '+' :: rest).takeWhile Char.isDigit =
      (padLeft width value).toList := by
    rw [List.takeWhile_append_of_pos hdigits, List.takeWhile_cons_of_neg (by decide),
      List.append_nil]
  have hne : (padLeft width value).toList ≠ [] := by
    intro hnil
    rw [hnil] at hlength
    exact absurd hlength hpos.ne
  rw [readNanosecond]
  dsimp only
  rw [htake, if_neg hne, List.drop_left]
  exact ⟨_, rfl⟩

theorem readNanosecond_fraction {nanos : Nat} (hnanos : nanos < 10 ^ 9) (rest : List Char) :
    ∃ found, readNanosecond ((fraction nanos).toList ++ '+' :: rest) =
      some (found, '+' :: rest) := by
  rw [fraction]
  split
  · exact ⟨0, rfl⟩
  · split
    · rw [String.toList_append]
      exact readNanosecond_digits (by decide) (by omega) rest
    · split
      · rw [String.toList_append]
        exact readNanosecond_digits (by decide) (by omega) rest
      · rw [String.toList_append]
        exact readNanosecond_digits (by decide) hnanos rest

/-- The characters of an instant, field by field. -/
theorem toList_toRfc3339 {instant : DateTime} {year : Int} {month day : Nat}
    (hcivil : civilFromDays (instant / nanosPerSecond / 86400) = (year, month, day)) :
    (toRfc3339 instant).toList =
      (padLeft 4 year.toNat).toList ++ '-' :: ((padLeft 2 month).toList ++ '-' ::
        ((padLeft 2 day).toList ++ 'T' ::
        ((padLeft 2 ((instant / nanosPerSecond % 86400).toNat / 3600)).toList ++ ':' ::
        ((padLeft 2 ((instant / nanosPerSecond % 86400).toNat / 60 % 60)).toList ++ ':' ::
        ((padLeft 2 ((instant / nanosPerSecond % 86400).toNat % 60)).toList ++
        ((fraction (instant % nanosPerSecond).toNat).toList ++
          ['+', '0', '0', ':', '0', '0'])))))) := by
  have hdash : "-".toList = ['-'] := rfl
  have hcolon : ":".toList = [':'] := rfl
  have hletter : "T".toList = ['T'] := rfl
  have hoffset : "+00:00".toList = ['+', '0', '0', ':', '0', '0'] := rfl
  rw [toRfc3339, civilText, hcivil]
  simp only [String.toList_append, List.append_assoc, hdash, hcolon, hletter, hoffset,
    List.cons_append, List.nil_append]

theorem parse_toRfc3339 {instant : DateTime} (hyear : 0 ≤ civilYear instant)
    (hshort : civilYear instant ≤ 9999) : (parse (toRfc3339 instant)).isSome := by
  have hvalid := civilFromDays_valid (instant / nanosPerSecond / 86400)
  rw [civilYear] at hyear hshort
  rcases hcivil : civilFromDays (instant / nanosPerSecond / 86400) with ⟨year, month, day⟩
  rw [hcivil] at hyear hshort hvalid
  have hnanos : (instant % nanosPerSecond).toNat < 10 ^ 9 := by
    rw [nanosPerSecond]
    omega
  obtain ⟨found, hfound⟩ := readNanosecond_fraction hnanos ['0', '0', ':', '0', '0']
  rw [parse, toList_toRfc3339 hcivil, readDate_civil ⟨hyear, hshort⟩ hvalid]
  dsimp only [Option.bind_eq_bind, Option.bind_some, char]
  rw [if_pos (by decide), Option.bind_some, readTime_clock (by omega) (by omega) (by omega)]
  dsimp only [Option.bind_some]
  rw [hfound]
  rfl

/-- The reader refuses a text that does not start with a digit. -/
theorem parse_of_not_digit {head : Char} {text : String} {rest : List Char}
    (hlist : text.toList = head :: rest) (hhead : ¬ head.isDigit) : parse text = none := by
  have hnumber : number 4 (head :: rest) = none := by
    rw [number, if_neg]
    rintro ⟨-, hall⟩
    exact hhead (List.all_eq_true.mp hall head List.mem_cons_self)
  rw [parse, hlist, readDate, hnumber]
  rfl

/-- What is written is read back where the year has at most four digits. -/
theorem parse_rfc3339_isSome {instant : DateTime} :
    (parse (rfc3339 instant)).isSome ↔ 0 ≤ civilYear instant ∧ civilYear instant ≤ 9999 := by
  rw [rfc3339]
  split
  · rename_i hnegative
    rw [parse_of_not_digit (by rw [String.toList_append, String.toList_append]; rfl) (by decide)]
    exact iff_of_false nofun (fun hyear => absurd hyear.1 (not_le.mpr hnegative))
  · rename_i hnonneg
    split
    · rename_i hshort
      exact iff_of_true (parse_toRfc3339 (not_lt.mp hnonneg) hshort) ⟨not_lt.mp hnonneg, hshort⟩
    · rename_i hlong
      rw [parse_of_not_digit (by rw [String.toList_append]; rfl) (by decide)]
      exact iff_of_false nofun (fun hyear => hlong hyear.2)

end Rfc3339

end Patchwright
