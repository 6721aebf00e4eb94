import ServiceScaffold.Number.Decimal

/-!
# Moments

A moment is counted in whole seconds from the beginning of the year 1970.  Its text
(`Instant.text`) names the date of the Gregorian calendar and the time of day, both of the zero
meridian.
-/

namespace ServiceScaffold

/-- Whole seconds from the beginning of the year 1970. -/
structure Instant where
  seconds : Nat
  deriving DecidableEq, Repr, Inhabited

/-- A date of the calendar. -/
structure Date where
  year : Nat
  month : Nat
  day : Nat
  deriving DecidableEq, Repr, Inhabited

/-- The date that many days after the first of March of the year zero.  Years are counted from
March on, so that the day that leap years add is the last one; 400 years have 146097 days. -/
def Date.afterMarch (days : Nat) : Date :=
  let inCycle := days % 146097
  let year := (inCycle - inCycle / 1460 + inCycle / 36524 - inCycle / 146096) / 365
  let inYear := inCycle - (365 * year + year / 4 - year / 100)
  let month := (5 * inYear + 2) / 153
  let day := inYear - (153 * month + 2) / 5 + 1
  let year := year + days / 146097 * 400
  if month < 10 then ⟨year, month + 3, day⟩ else ⟨year + 1, month - 9, day⟩

namespace Instant

/-- Days from the first of March of the year zero to the beginning of the year 1970. -/
def daysBefore1970 : Nat := 719468

/-- The date of a moment. -/
def date (t : Instant) : Date := .afterMarch (t.seconds / 86400 + daysBefore1970)

/-- The decimal text of a number, with zeros in front up to a width. -/
def padded (width n : Nat) : List Char :=
  let digits := Number.digitsOf n
  List.replicate (width - digits.length) '0' ++ digits

/-- Date and time of a moment. -/
def text (t : Instant) : String :=
  let d := t.date
  String.ofList (padded 4 d.year ++ '-' :: padded 2 d.month ++ '-' :: padded 2 d.day ++
    'T' :: padded 2 (t.seconds / 3600 % 24) ++ ':' :: padded 2 (t.seconds / 60 % 60) ++
    ':' :: padded 2 (t.seconds % 60) ++ ['Z'])

end Instant

end ServiceScaffold
