/-!
Spans of time and instants, both exact to the nanosecond. An instant is counted from the start of
the run; the clock holds instants below 2⁶³ seconds.
-/
namespace Provision

structure Duration where
  nanos : Nat
  deriving DecidableEq

abbrev nanosPerSecond : Nat := 1000000000

namespace Duration

def ofSeconds (n : Nat) : Duration := ⟨n * nanosPerSecond⟩

def ofMillis (n : Nat) : Duration := ⟨n * 1000000⟩

def seconds (d : Duration) : Nat := d.nanos / nanosPerSecond

/-- Whole milliseconds, counted in 64 bits. -/
def millis (d : Duration) : UInt64 := .ofNat (d.nanos / 1000000)

/-- `d - e`, or nothing when `e` is longer. -/
def minus (d e : Duration) : Duration := ⟨d.nanos - e.nanos⟩

@[simp] theorem nanos_ofSeconds (n : Nat) : (ofSeconds n).nanos = n * nanosPerSecond := rfl

@[simp] theorem nanos_ofMillis (n : Nat) : (ofMillis n).nanos = n * 1000000 := rfl

@[simp] theorem nanos_minus (d e : Duration) : (d.minus e).nanos = d.nanos - e.nanos := rfl

/-- `places` decimal digits of `n`, without the zeros at the end. -/
def fractionDigits (places n : Nat) : List Char :=
  let ds := Nat.toDigits 10 n
  ((List.replicate (places - ds.length) '0' ++ ds).reverse.dropWhile (· == '0')).reverse

/-- `whole` and `rest` units of the `places`-th decimal, in `unit`. -/
def decimal (whole rest places : Nat) (unit : String) : String :=
  if rest = 0 then toString whole ++ unit
  else toString whole ++ "." ++ String.ofList (fractionDigits places rest) ++ unit

/-- The span in the largest unit that is not zero, with all its decimals. -/
def text (d : Duration) : String :=
  if nanosPerSecond ≤ d.nanos then
    decimal (d.nanos / nanosPerSecond) (d.nanos % nanosPerSecond) 9 "s"
  else if 1000000 ≤ d.nanos then decimal (d.nanos / 1000000) (d.nanos % 1000000) 6 "ms"
  else if 1000 ≤ d.nanos then decimal (d.nanos / 1000) (d.nanos % 1000) 3 "µs"
  else decimal d.nanos 0 0 "ns"

end Duration

structure Instant where
  nanos : Nat
  deriving DecidableEq

namespace Instant

/-- The first instant that the clock cannot hold. -/
def bound : Nat := 0x8000000000000000 * nanosPerSecond

def start : Instant := ⟨0⟩

def after (t : Instant) (d : Duration) : Instant := ⟨t.nanos + d.nanos⟩

def since (t s : Instant) : Duration := ⟨t.nanos - s.nanos⟩

/-- The first whole millisecond that is not before `t`. -/
def roundUp (t : Instant) : Instant := ⟨(t.nanos + 999999) / 1000000 * 1000000⟩

@[simp] theorem nanos_after (t : Instant) (d : Duration) :
    (t.after d).nanos = t.nanos + d.nanos := rfl

@[simp] theorem nanos_since (t s : Instant) : (t.since s).nanos = t.nanos - s.nanos := rfl

theorem roundUp_eq_self {t : Instant} (h : t.nanos % 1000000 = 0) : t.roundUp = t := by
  cases t
  simp only [roundUp, mk.injEq] at *
  omega

theorem nanos_le_roundUp (t : Instant) : t.nanos ≤ t.roundUp.nanos := by
  simp only [roundUp]
  omega

end Instant

example : (Duration.ofSeconds 180).text = "180s" := by decide +kernel
example : (Duration.mk 1500).text = "1.5µs" := by decide +kernel
example : (Duration.mk 1000000001).text = "1.000000001s" := by decide +kernel

end Provision
