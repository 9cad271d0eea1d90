import Patchwright.Core.Text

/-!
# Identifiers and instants

Tasks, repository bindings, approvals, jobs and monitors are named by UUIDs.
Instants are nanoseconds since the Unix epoch, and a duration is a difference
of two instants.
-/

namespace Patchwright

structure Uuid where
  value : BitVec 128
  deriving DecidableEq, Repr

/-- The hyphenated lowercase form of a UUID. -/
def Uuid.toString (id : Uuid) : String :=
  let digits := hexDigits 32 id.value.toNat
  String.ofList (digits.take 8 ++ '-' :: (digits.drop 8).take 4 ++
    '-' :: (digits.drop 12).take 4 ++ '-' :: (digits.drop 16).take 4 ++
    '-' :: digits.drop 20)

structure TaskId where
  uuid : Uuid
  deriving DecidableEq, Repr

structure RepositoryBindingId where
  uuid : Uuid
  deriving DecidableEq, Repr

def TaskId.toString (id : TaskId) : String := id.uuid.toString

/-- An instant, in nanoseconds. -/
abbrev DateTime := Int

/-- A length of time, in nanoseconds. -/
abbrev Duration := Int

def nanosPerSecond : Int := 1000000000

def seconds (count : Int) : Duration := count * nanosPerSecond

def minutes (count : Int) : Duration := seconds (count * 60)

def days (count : Int) : Duration := seconds (count * 86400)

def milliseconds (count : Int) : Duration := count * 1000000

/-- An instant as a database compares it: in milliseconds, and only within the
years -4713 to 9999 of its calendar. -/
def julianMillis (instant : DateTime) : Option Int :=
  let millis := (instant + 500000) / 1000000
  if -210866760000000 ≤ millis ∧ millis ≤ 253402300799999 then some millis else none

/-- One instant is before another, as far as a database can compare them. -/
def JulianBefore (first second : DateTime) : Prop :=
  ∃ earlier ∈ julianMillis first, ∃ later ∈ julianMillis second, earlier < later

instance (first second : DateTime) : Decidable (JulianBefore first second) :=
  inferInstanceAs (Decidable (∃ earlier ∈ julianMillis first, ∃ later ∈ julianMillis second, _))

/-- The Gregorian year, month and day of a day counted from the Unix epoch. -/
def civilFromDays (days : Int) : Int × Nat × Nat :=
  let shifted := days + 719468
  let era := shifted / 146097
  let dayOfEra := (shifted % 146097).toNat
  let yearOfEra := (dayOfEra - dayOfEra / 1460 + dayOfEra / 36524 - dayOfEra / 146096) / 365
  let dayOfYear := dayOfEra - (365 * yearOfEra + yearOfEra / 4 - yearOfEra / 100)
  let shiftedMonth := (5 * dayOfYear + 2) / 153
  let day := dayOfYear - (153 * shiftedMonth + 2) / 5 + 1
  let month := if shiftedMonth < 10 then shiftedMonth + 3 else shiftedMonth - 9
  (yearOfEra + era * 400 + (if month ≤ 2 then 1 else 0), month, day)

def padLeft (width : Nat) (number : Nat) : String :=
  let digits := (toString number).toList
  String.ofList (List.replicate (width - digits.length) '0' ++ digits)

/-- The fraction of a second in zero, three, six or nine digits, the shortest
of these that is exact. -/
def fraction (nanos : Nat) : String :=
  if nanos = 0 then ""
  else if nanos % 1000000 = 0 then "." ++ padLeft 3 (nanos / 1000000)
  else if nanos % 1000 = 0 then "." ++ padLeft 6 (nanos / 1000)
  else "." ++ padLeft 9 nanos

/-- The RFC 3339 text of an instant of a year with at most four digits, without
the offset. -/
def civilText (instant : DateTime) : String :=
  let second := instant / nanosPerSecond
  let nanos := (instant % nanosPerSecond).toNat
  let (year, month, day) := civilFromDays (second / 86400)
  let clock := (second % 86400).toNat
  padLeft 4 year.toNat ++ "-" ++ padLeft 2 month ++ "-" ++ padLeft 2 day ++ "T" ++
    padLeft 2 (clock / 3600) ++ ":" ++ padLeft 2 (clock / 60 % 60) ++ ":" ++
    padLeft 2 (clock % 60) ++ fraction nanos

/-- The text of an instant in a column. -/
def toRfc3339 (instant : DateTime) : String := civilText instant ++ "+00:00"

/-- The text of an instant in a payload. -/
def toRfc3339Z (instant : DateTime) : String := civilText instant ++ "Z"

end Patchwright
