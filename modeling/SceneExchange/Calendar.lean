/-!
# Dates of instants

An instant is a number of seconds since the start of the year 1970 in universal time.
-/

namespace SceneExchange.Calendar

structure Date where
  year : Int
  month : Nat
  day : Nat
  deriving Repr, DecidableEq

/-- The date of a number of days since the start of 1970. Years are counted from March on, in eras
of 400 years, which all have the same number of days. -/
def dateOfDays (days : Int) : Date :=
  let z := days + 719468
  let era := z.fdiv 146097
  let dayOfEra := (z - era * 146097).toNat
  let yearOfEra :=
    (dayOfEra - dayOfEra / 1460 + dayOfEra / 36524 - dayOfEra / 146096) / 365
  let dayOfYear := dayOfEra - (365 * yearOfEra + yearOfEra / 4 - yearOfEra / 100)
  let shifted := (5 * dayOfYear + 2) / 153
  let month := if shifted < 10 then shifted + 3 else shifted - 9
  let year := (yearOfEra : Int) + era * 400
  ⟨if month ≤ 2 then year + 1 else year, month, dayOfYear - (153 * shifted + 2) / 5 + 1⟩

def twoDigits (n : Nat) : String := (if n < 10 then "0" else "") ++ toString n

def stamp (seconds : Int) : String :=
  let days := seconds.fdiv 86400
  let second := (seconds - days * 86400).toNat
  let date := dateOfDays days
  toString date.year ++ twoDigits date.month ++ twoDigits date.day ++ "_" ++
    twoDigits (second / 3600) ++ twoDigits (second / 60 % 60) ++ twoDigits (second % 60)

end SceneExchange.Calendar
