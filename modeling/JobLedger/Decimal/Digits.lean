/-!
# Decimal digits

Natural numbers as digit strings without a leading zero, the value of a digit string, unsigned numerals
with an optional plus sign, and the form of decimal numbers.
-/
namespace JobLedger.Decimal

def digitChar (d : Nat) : Char := Char.ofNat (48 + d)

/-- The digits of a number, most significant first, without a leading zero. -/
def digits (n : Nat) : List Char :=
  if n < 10 then [digitChar n] else digits (n / 10) ++ [digitChar (n % 10)]

def digitValue (c : Char) : Nat := c.toNat - 48

def value (cs : List Char) : Nat := cs.foldl (fun n c => 10 * n + digitValue c) 0

def padded (width n : Nat) : List Char :=
  List.replicate (width - (digits n).length) '0' ++ digits n

def text (n : Nat) : String := String.ofList (digits n)

def signedDigits (i : Int) : List Char :=
  if i < 0 then '-' :: digits i.natAbs else digits i.natAbs

def signedText (i : Int) : String := String.ofList (signedDigits i)

/-- The number that an unsigned numeral stands for: an optional plus sign, then one or more digits,
below the bound. -/
def numeral? (bound : Nat) (s : String) : Option Nat :=
  let ds := match s.toList with
    | '+' :: r => r
    | r => r
  if ds ≠ [] ∧ ds.all Char.isDigit ∧ value ds < bound then some (value ds) else none

/-- Whether a text is digits with at most one point among or beside them and an exponent, if any, behind
them. -/
def isNumeral (cs : List Char) : Bool :=
  let rest := cs.dropWhile Char.isDigit
  let (fraction, rest) := match rest with
    | '.' :: r => (r.takeWhile Char.isDigit, r.dropWhile Char.isDigit)
    | r => ([], r)
  let isExponent := match rest with
    | [] => true
    | e :: '+' :: r | e :: '-' :: r | e :: r => (e == 'e' || e == 'E') && r != [] && r.all Char.isDigit
  cs.takeWhile Char.isDigit ++ fraction != [] && isExponent

theorem digits_of_lt {n : Nat} (h : n < 10) : digits n = [digitChar n] := by
  rw [digits]; simp [h]

theorem digits_of_ge {n : Nat} (h : 10 ≤ n) :
    digits n = digits (n / 10) ++ [digitChar (n % 10)] := by
  rw [digits, if_neg (Nat.not_lt.2 h)]

theorem digits_ne_nil (n : Nat) : digits n ≠ [] := by
  rw [digits]; split <;> simp

theorem value_append_singleton (cs : List Char) (c : Char) :
    value (cs ++ [c]) = 10 * value cs + digitValue c := by simp [value]

private theorem digitChar_of_lt : ∀ d < 10, digitChar d = Nat.digitChar d := by decide

private theorem digits_eq_toDigits (n : Nat) : digits n = Nat.toDigits 10 n := by
  induction n using digits.induct with
  | case1 n h => rw [digits_of_lt h, Nat.toDigits_of_lt_base h, digitChar_of_lt n h]
  | case2 n h ih =>
    rw [digits_of_ge (Nat.le_of_not_lt h), Nat.toDigits_of_base_le (by decide) (Nat.le_of_not_lt h), ih,
      digitChar_of_lt _ (Nat.mod_lt _ (by decide))]

theorem text_eq_toString (n : Nat) : text n = toString n := by
  rw [text, digits_eq_toDigits]
  rfl

end JobLedger.Decimal
