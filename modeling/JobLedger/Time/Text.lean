import JobLedger.Text.Blank
import JobLedger.Time.Instant
/-!
# Written instants

Instants in the Internet date and time format. They are written in UTC with the fewest of no, three, six or
nine digits of a second that are exact. They are read with single-digit months, days and times, with white
space before the parts, and with any offset from UTC.
-/
namespace JobLedger.Instant

open Decimal (digits padded signedDigits)

/-- A year: four digits, or a sign and at least four digits outside 0 to 9999. -/
def yearChars (year : Int) : List Char :=
  if 0 ≤ year ∧ year ≤ 9999 then padded 4 year.natAbs
  else (if year < 0 then '-' else '+') :: padded 4 year.natAbs

def fractionChars (nano : Nat) : List Char :=
  if nano = 0 then []
  else if nano % 1000000 = 0 then '.' :: padded 3 (nano / 1000000)
  else if nano % 1000 = 0 then '.' :: padded 6 (nano / 1000)
  else '.' :: padded 9 nano

/-- The characters of an instant. A leap second is written as the second after the one that it follows, which is second
sixty if it ends a minute. -/
def chars (t : Instant) : List Char :=
  let date := Calendar.ofDayNumber (t.second / 86400)
  let second := (t.second % 86400).toNat
  yearChars date.year ++ '-' :: padded 2 date.month ++ '-' :: padded 2 date.day ++
    'T' :: padded 2 (second / 3600) ++ ':' :: padded 2 (second / 60 % 60) ++
    ':' :: padded 2 (second % 60 + t.nano / nanosPerSecond) ++
    fractionChars (t.nano % nanosPerSecond) ++ ['Z']

def text (t : Instant) : String := String.ofList t.chars

def number? (width : Nat) (cs : List Char) : Option (Nat × List Char) :=
  match (cs.take width).takeWhile Char.isDigit with
  | [] => none
  | ds => some (Decimal.value ds, cs.drop ds.length)

/-- A year at the front: a sign and any number of digits, or at most four digits. -/
def year? : List Char → Option (Int × List Char)
  | '-' :: r => (number? r.length r).map fun (n, r) => (-(n : Int), r)
  | '+' :: r => (number? r.length r).map fun (n, r) => ((n : Int), r)
  | r => (number? 4 r).map fun (n, r) => ((n : Int), r)

/-- A two-digit part behind a mark, with white space before either. -/
def part? (mark : Char) (cs : List Char) : Option (Nat × List Char) :=
  match Text.trimStart cs with
  | c :: r => if c = mark then number? 2 (Text.trimStart r) else none
  | [] => none

/-- The part of a second behind a point, in nanoseconds: nine digits count. -/
def fraction? : List Char → Option (Nat × List Char)
  | '.' :: r =>
    match r.takeWhile Char.isDigit with
    | [] => none
    | ds =>
      let kept := ds.take 9
      some (Decimal.value kept * Nat.pow 10 (9 - kept.length), r.dropWhile Char.isDigit)
  | r => some (0, r)

/-- The digits of an offset behind its sign: two of hours, then two of minutes after colons or white space;
the seconds that they make. -/
def offsetDigits? : List Char → Option (Nat × List Char)
  | a :: b :: r =>
    match r.dropWhile fun c => c == ':' || Text.isBlank c with
    | c :: d :: r =>
      if a.isDigit ∧ b.isDigit ∧ c.isDigit ∧ d.isDigit ∧ c < '6' then
        some (Decimal.value [a, b] * 3600 + Decimal.value [c, d] * 60, r)
      else none
    | _ => none
  | _ => none

/-- An offset from UTC in seconds at the front, less than a day. -/
def offset? : List Char → Option (Int × List Char)
  | 'Z' :: r => some (0, r)
  | 'z' :: r => some (0, r)
  | '+' :: r => (offsetDigits? r).bind fun (n, r) => if n < 86400 then some ((n : Int), r) else none
  | '-' :: r => (offsetDigits? r).bind fun (n, r) => if n < 86400 then some (-(n : Int), r) else none
  | '−' :: r => (offsetDigits? r).bind fun (n, r) => if n < 86400 then some (-(n : Int), r) else none
  | a :: b :: c :: r =>
    if [a, b, c].map Char.toUpper = ['U', 'T', 'C'] then some (0, r) else none
  | _ => none

def afterDateMark? : List Char → Option (List Char)
  | 'T' :: r => some r
  | 't' :: r => some r
  | ' ' :: r => some r
  | _ => none

def ofParts? (date : Calendar.Date) (hour minute second nano : Nat) (offset : Int) : Option Instant :=
  if date.isValid ∧ -262143 ≤ date.year ∧ date.year ≤ 262142 ∧ hour ≤ 23 ∧ minute ≤ 59 ∧ second ≤ 60 then
    let base := Calendar.dayNumber date * 86400 + hour * 3600 + minute * 60 - offset
    if second = 60 then make? (base + 59) (nanosPerSecond + nano) else make? (base + second) nano
  else none

def ofChars? (cs : List Char) : Option Instant := do
  let (year, cs) ← year? (Text.trimStart cs)
  let (month, cs) ← part? '-' cs
  let (day, cs) ← part? '-' cs
  let cs ← afterDateMark? cs
  let (hour, cs) ← number? 2 (Text.trimStart cs)
  let (minute, cs) ← part? ':' cs
  let (second, cs) ← part? ':' cs
  let (nano, cs) ← fraction? cs
  let (offset, cs) ← offset? (Text.trimStart cs)
  if Text.trimStart cs = [] then ofParts? ⟨year, month, day⟩ hour minute second nano offset else none

def ofText? (s : String) : Option Instant := ofChars? s.toList

end JobLedger.Instant
