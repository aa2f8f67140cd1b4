/-! Times of the day as log lines show them, in the form of RFC 3339 and always in UTC. -/
namespace HoverServer.Log.Stamp

structure Date where
  year : Nat
  month : Nat
  day : Nat
  deriving DecidableEq

/-- The date of a day counted from the first of January 1970. Years are taken to begin in March,
so that a leap day ends one. -/
def Date.ofDay (day : Nat) : Date :=
  let shifted := day + 719468
  let era := shifted / 146097
  let dayOfEra := shifted % 146097
  let year := (dayOfEra - dayOfEra / 1460 + dayOfEra / 36524 - dayOfEra / 146096) / 365
  let dayOfYear := dayOfEra - (365 * year + year / 4 - year / 100)
  let month := (5 * dayOfYear + 2) / 153
  { year := year + 400 * era + if month < 10 then 0 else 1
    month := if month < 10 then month + 3 else month - 9
    day := dayOfYear - (153 * month + 2) / 5 + 1 }

def padded (width n : Nat) : List Char :=
  let digits := Nat.toDigits 10 n
  List.replicate (width - digits.length) '0' ++ digits

/-- The digits of a fraction of a second, without zeros at the end. -/
def fraction (nanoseconds : Nat) : List Char :=
  let digits := ((padded 9 nanoseconds).reverse.dropWhile (· = '0')).reverse
  if digits = [] then [] else '.' :: digits

/-- A time counted in nanoseconds. -/
def text (nanoseconds : Nat) : String :=
  let second := nanoseconds / 1000000000
  let date := Date.ofDay (second / 86400)
  let clock := second % 86400
  String.ofList (padded 4 date.year ++ '-' :: padded 2 date.month ++ '-' :: padded 2 date.day ++
    'T' :: padded 2 (clock / 3600) ++ ':' :: padded 2 (clock / 60 % 60) ++
    ':' :: padded 2 (clock % 60) ++ fraction (nanoseconds % 1000000000) ++ ['Z'])

end HoverServer.Log.Stamp
