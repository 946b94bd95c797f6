import JobLedger.Decimal.Digits
/-!
# Spans of time

Spans in whole milliseconds, and their text in the largest unit that fits.
-/
namespace JobLedger

/-- A length of time in milliseconds. -/
structure Span where
  milliseconds : Nat
deriving DecidableEq, Repr

namespace Span

def ofSeconds (n : Nat) : Span := ⟨n * 1000⟩

def seconds (d : Span) : Nat := d.milliseconds / 1000

@[simp] theorem seconds_ofSeconds (n : Nat) : (ofSeconds n).seconds = n := by
  simp [ofSeconds, seconds]

/-- A fraction of a second in thousandths, without trailing zeros and with its point. -/
def fraction (thousandths : Nat) : List Char :=
  if thousandths = 0 then []
  else '.' :: ((Decimal.padded 3 thousandths).reverse.dropWhile (· == '0')).reverse

/-- The text of a span: seconds with a fraction, milliseconds below a second, or no nanoseconds. -/
def text (d : Span) : String :=
  if d.milliseconds = 0 then "0ns"
  else if d.milliseconds < 1000 then Decimal.text d.milliseconds ++ "ms"
  else Decimal.text d.seconds ++ String.ofList (fraction (d.milliseconds % 1000)) ++ "s"

end Span

end JobLedger
