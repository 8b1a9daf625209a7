/-!
Points in time by the calendar, written as date and time of day in UTC (RFC 3339).
-/
namespace Provision

/-- Seconds since the start of 1970 and nanoseconds into the second. Those beyond its end are in a
leap second that follows. -/
structure Timestamp where
  seconds : Int
  nanos : Nat
  deriving DecidableEq

namespace Timestamp

/-- Year, month and day of a day counted from the start of 1970. Years are taken to begin in March,
so that the leap day ends one, and four centuries always hold 146097 days. -/
def civil (day : Int) : Int × Nat × Nat :=
  let z := day + 719468
  let era := Int.fdiv z 146097
  let doe := (z - era * 146097).toNat
  let yoe := (doe - doe / 1460 + doe / 36524 - doe / 146096) / 365
  let doy := doe - (365 * yoe + yoe / 4 - yoe / 100)
  let mp := (5 * doy + 2) / 153
  let d := doy - (153 * mp + 2) / 5 + 1
  let m := if mp < 10 then mp + 3 else mp - 9
  let y := (yoe : Int) + era * 400
  (if m ≤ 2 then y + 1 else y, m, d)

/-- `n` with zeros in front up to `width` digits. -/
def padded (width n : Nat) : String :=
  let ds := Nat.toDigits 10 n
  String.ofList (List.replicate (width - ds.length) '0' ++ ds)

/-- Years outside 0 to 9999 carry a sign. -/
def yearText (y : Int) : String :=
  if 0 ≤ y ∧ y ≤ 9999 then padded 4 y.toNat
  else (if y < 0 then "-" else "+") ++ padded 4 y.natAbs

/-- No fraction, or as few of 3, 6 and 9 digits as are exact. -/
def fractionText (nanos : Nat) : String :=
  if nanos = 0 then ""
  else if nanos % 1000000 = 0 then "." ++ padded 3 (nanos / 1000000)
  else if nanos % 1000 = 0 then "." ++ padded 6 (nanos / 1000)
  else "." ++ padded 9 nanos

def text (t : Timestamp) : String :=
  let day := Int.fdiv t.seconds 86400
  let s := (t.seconds - day * 86400).toNat
  let (y, m, d) := civil day
  let leap := t.nanos / 1000000000
  yearText y ++ "-" ++ padded 2 m ++ "-" ++ padded 2 d ++ "T" ++ padded 2 (s / 3600) ++ ":" ++
    padded 2 (s / 60 % 60) ++ ":" ++ padded 2 (s % 60 + leap) ++
      fractionText (t.nanos % 1000000000) ++ "Z"

example : text ⟨-1, 500000000⟩ = "1969-12-31T23:59:59.500Z" := by decide +kernel
example : text ⟨1483228799, 1500000000⟩ = "2016-12-31T23:59:60.500Z" := by decide +kernel
example : text ⟨4107542399, 1000000⟩ = "2100-02-28T23:59:59.001Z" := by decide +kernel

end Timestamp
end Provision
