import JobLedger.Json.Token
/-!
# Reading JSON tokens

A text is cut into tokens from the left. Each token takes at least one character, so the cutting ends.
-/
namespace JobLedger.Json

def isGap (c : Char) : Bool := c == ' ' || c == '\n' || c == '\t' || c == '\r'

/-- A part of a written string: a character, or a code unit given by four hexadecimal digits. -/
inductive Piece where
  | char (c : Char)
  | unit (u : Nat)
deriving DecidableEq, Repr

/-- The code unit of four hexadecimal digits. -/
def unit? (a b c d : Char) : Option Nat := Text.hexNumber? 0 [a, b, c, d]

def escaped? : Char → Option Char
  | '"' => some '"'
  | '\\' => some '\\'
  | '/' => some '/'
  | 'b' => some '\x08'
  | 'f' => some '\x0c'
  | 'n' => some '\n'
  | 'r' => some '\r'
  | 't' => some '\t'
  | _ => none

/-- The pieces of a string up to its closing quote, after those found so far in reverse, and the
characters behind the quote. -/
def pieces? : List Char → List Piece → Option (List Piece × List Char)
  | '"' :: r, found => some (found.reverse, r)
  | '\\' :: 'u' :: a :: b :: c :: d :: r, found =>
    match unit? a b c d with
    | some u => pieces? r (.unit u :: found)
    | none => none
  | '\\' :: e :: r, found =>
    match escaped? e with
    | some c => pieces? r (.char c :: found)
    | none => none
  | c :: r, found => if c.toNat < 32 then none else pieces? r (.char c :: found)
  | [], _ => none

def isHighSurrogate (u : Nat) : Bool := 0xD800 ≤ u && u ≤ 0xDBFF

def isLowSurrogate (u : Nat) : Bool := 0xDC00 ≤ u && u ≤ 0xDFFF

/-- The characters that pieces stand for, after those found so far in reverse. A surrogate must be one of
a pair. -/
def assemble? : List Piece → List Char → Option (List Char)
  | [], found => some found.reverse
  | .char c :: ps, found => assemble? ps (c :: found)
  | .unit u :: .unit v :: ps, found =>
    if isHighSurrogate u then
      if isLowSurrogate v then
        assemble? ps (Char.ofNat (0x10000 + (u - 0xD800) * 0x400 + (v - 0xDC00)) :: found)
      else none
    else if isLowSurrogate u then none
    else assemble? (.unit v :: ps) (Char.ofNat u :: found)
  | .unit u :: ps, found =>
    if isHighSurrogate u || isLowSurrogate u then none
    else assemble? ps (Char.ofNat u :: found)
termination_by ps => ps.length

/-- Digits taken into a significand below 2^64, and the digits that no longer fit. -/
def significand : Nat → List Char → Nat × List Char
  | s, [] => (s, [])
  | s, d :: ds =>
    let t := 10 * s + Decimal.digitValue d
    if t < UInt64.size then significand t ds else (s, d :: ds)

/-- The double of a numeral. Digits beyond the significand scale it if they stand before the point and
count for nothing behind it. -/
def double? (negative : Bool) (whole fraction : List Char) (exponent : Int) : Option Decimal.Double :=
  let (s, left) := significand 0 whole
  let (s, unused) := significand s fraction
  Decimal.Double.ofDecimal? negative s (left.length - (fraction.length - unused.length : Nat) + exponent)

/-- The number of a numeral. One without a fraction and an exponent is whole from -2^63 to 2^64 - 1,
minus zero excepted; any other is a double. -/
def Number.ofNumeral? (negative : Bool) (whole : List Char) (fraction : Option (List Char))
    (exponent : Option Int) : Option Number :=
  let n := Decimal.value whole
  match fraction, exponent with
  | none, none =>
    if negative then
      if 0 < n ∧ n ≤ Nat.pow 2 63 then some (.integer (-n))
      else (double? negative whole [] 0).map .double
    else if n < UInt64.size then some (.integer n)
    else (double? negative whole [] 0).map .double
  | _, _ => (double? negative whole (fraction.getD []) (exponent.getD 0)).map .double

/-- Digits at the front, which must be there, and the characters behind them. -/
def someDigits? (cs : List Char) : Option (List Char × List Char) :=
  match cs.takeWhile Char.isDigit with
  | [] => none
  | ds => some (ds, cs.dropWhile Char.isDigit)

def fraction? : List Char → Option (Option (List Char) × List Char)
  | '.' :: r => (someDigits? r).map fun (ds, r) => (some ds, r)
  | r => some (none, r)

def exponentValue? : List Char → Option (Option Int × List Char)
  | '+' :: r => (someDigits? r).map fun (ds, r) => (some (Decimal.value ds), r)
  | '-' :: r => (someDigits? r).map fun (ds, r) => (some (-(Decimal.value ds : Int)), r)
  | r => (someDigits? r).map fun (ds, r) => (some (Decimal.value ds), r)

def exponent? : List Char → Option (Option Int × List Char)
  | 'e' :: r => exponentValue? r
  | 'E' :: r => exponentValue? r
  | r => some (none, r)

/-- The whole digits of a numeral: a single zero, or digits that start with another one. -/
def wholeDigits? (cs : List Char) : Option (List Char × List Char) :=
  match someDigits? cs with
  | some ('0' :: _ :: _, _) => none
  | found => found

/-- A numeral at the front, and the characters behind it. -/
def numeral? (negative : Bool) (cs : List Char) : Option (Token × List Char) := do
  let (whole, r) ← wholeDigits? cs
  let (fraction, r) ← fraction? r
  let (exponent, r) ← exponent? r
  some (.number (Number.ofNumeral? negative whole fraction exponent), r)

/-- The token at the front of a text without leading gaps, and the characters behind it. -/
def token? : List Char → Option (Token × List Char)
  | '[' :: r => some (.openArray, r)
  | ']' :: r => some (.closeArray, r)
  | '\x7b' :: r => some (.openObject, r)
  | '\x7d' :: r => some (.closeObject, r)
  | ',' :: r => some (.comma, r)
  | ':' :: r => some (.colon, r)
  | 'n' :: 'u' :: 'l' :: 'l' :: r => some (.null, r)
  | 't' :: 'r' :: 'u' :: 'e' :: r => some (.bool true, r)
  | 'f' :: 'a' :: 'l' :: 's' :: 'e' :: r => some (.bool false, r)
  | '"' :: r => (pieces? r []).map fun (ps, r) => (.string ((assemble? ps []).map String.ofList), r)
  | '-' :: r => numeral? true r
  | cs => numeral? false cs

private theorem length_of_pieces? {cs r : List Char} {found ps : List Piece}
    (h : pieces? cs found = some (ps, r)) : r.length < cs.length := by
  fun_induction pieces? cs found <;> simp_all <;> omega

private theorem length_of_someDigits? {cs ds r : List Char} (h : someDigits? cs = some (ds, r)) :
    r.length < cs.length := by
  unfold someDigits? at h
  split at h
  · simp at h
  · rename_i hne
    obtain ⟨-, rfl⟩ := by simpa using h
    have hsplit := congrArg List.length (List.takeWhile_append_dropWhile (p := Char.isDigit) (l := cs))
    have hpos := List.length_pos_iff.2 hne
    simp only [List.length_append] at hsplit
    omega

private theorem length_of_fraction? {cs r : List Char} {f : Option (List Char)}
    (h : fraction? cs = some (f, r)) : r.length ≤ cs.length := by
  unfold fraction? at h
  split at h
  · obtain ⟨⟨ds, t⟩, hd, he⟩ := Option.map_eq_some_iff.1 h
    have := length_of_someDigits? hd
    simp_all
    omega
  · simp_all

private theorem length_of_exponentValue? {cs r : List Char} {e : Option Int}
    (h : exponentValue? cs = some (e, r)) : r.length < cs.length := by
  unfold exponentValue? at h
  split at h <;>
  · obtain ⟨⟨ds, t⟩, hd, he⟩ := Option.map_eq_some_iff.1 h
    have := length_of_someDigits? hd
    simp_all
    try omega

private theorem length_of_exponent? {cs r : List Char} {e : Option Int}
    (h : exponent? cs = some (e, r)) : r.length ≤ cs.length := by
  unfold exponent? at h
  split at h
  · have := length_of_exponentValue? h
    simp; omega
  · have := length_of_exponentValue? h
    simp; omega
  · simp_all

private theorem length_of_wholeDigits? {cs ds r : List Char} (h : wholeDigits? cs = some (ds, r)) :
    r.length < cs.length := by
  unfold wholeDigits? at h
  split at h
  · simp at h
  · exact length_of_someDigits? h

private theorem length_of_numeral? {negative : Bool} {cs r : List Char} {t : Token}
    (h : numeral? negative cs = some (t, r)) : r.length < cs.length := by
  simp only [numeral?, Option.bind_eq_bind, Option.bind_eq_some_iff, Option.some.injEq,
    Prod.mk.injEq, Prod.exists] at h
  obtain ⟨w, r₁, hw, f, r₂, hf, e, r₃, he, -, rfl⟩ := h
  have := length_of_wholeDigits? hw
  have := length_of_fraction? hf
  have := length_of_exponent? he
  omega

theorem length_of_token? {cs r : List Char} {t : Token} (h : token? cs = some (t, r)) :
    r.length < cs.length := by
  unfold token? at h
  split at h
  case h_10 =>
    obtain ⟨⟨ps, t⟩, hp, he⟩ := Option.map_eq_some_iff.1 h
    have := length_of_pieces? hp
    simp_all
    omega
  case h_11 =>
    have := length_of_numeral? h
    simp; omega
  case h_12 => exact length_of_numeral? h
  all_goals simp_all <;> omega

private theorem length_dropWhile_le (p : Char → Bool) (cs : List Char) :
    (cs.dropWhile p).length ≤ cs.length := (List.dropWhile_sublist p).length_le

/-- The tokens of a text after those found so far in reverse. -/
def tokenize? (cs : List Char) (found : List Token) : Option (List Token) :=
  if cs.dropWhile isGap = [] then some found.reverse else
    match _h : token? (cs.dropWhile isGap) with
    | some (t, r) => tokenize? r (t :: found)
    | none => none
termination_by cs.length
decreasing_by
  have := length_of_token? _h
  have := length_dropWhile_le isGap cs
  omega

end JobLedger.Json
