import JobLedger.Text.Hex
import JobLedger.Text.Pattern.Options
/-!
# Atoms of patterns

The smallest parts of a pattern, and which of them can be matched. Nothing is known of the characters of
Unicode, neither which are letters, digits or spaces nor which are upper case of which. So an atom that asks
for it cannot be matched, and neither can one that matches a byte which is no character.
-/
namespace JobLedger.Text.Pattern

/-- What one sign of a pattern, or an escape, stands for. -/
inductive Atom where
  | letter (c : Char)
  /-- A character from U+0080 to U+00FF given by two digits. It stands for a byte where bytes are matched. -/
  | byte (c : Char)
  /-- The digits, the spaces or the characters of words, or all others. -/
  | kind (isNegated : Bool)
  | any
  /-- An end of the text or of a line. -/
  | boundary
  | wordBoundary
deriving DecidableEq, Repr

namespace Atom

/-- Whether an atom can be matched outside of a class. -/
def isMatchable (o : Options) : Atom → Bool
  | .letter _ => !(o.unicode && o.ignoresCase)
  | .byte _ => o.unicode && !o.ignoresCase
  | .kind isNegated => !o.unicode && !isNegated
  | .any => o.unicode
  | .boundary => true
  | .wordBoundary => !o.unicode

/-- Whether an atom can be a member of a class. -/
def isMember (o : Options) : Atom → Bool
  | .letter c | .byte c => if o.unicode then !o.ignoresCase else c.toNat < 0x80
  | .kind isNegated => !o.unicode && !isNegated
  | .any | .boundary | .wordBoundary => false

def char? : Atom → Option Char
  | .letter c | .byte c => some c
  | _ => none

end Atom

/-- The number of some hexadecimal digits behind those of another one, and what follows them. -/
def hexDigits? (o : Options) : Nat → Nat → List Char → Option (Nat × List Char)
  | 0, n, cs => some (n, cs)
  | width + 1, n, cs =>
    match o.skip cs with
    | [] => none
    | c :: cs => (hexValue? c).bind fun d => hexDigits? o width (16 * n + d) cs

def hexChar? (o : Options) (width : Nat) (cs : List Char) : Option (Char × List Char) :=
  (hexDigits? o width 0 cs).bind fun (n, rest) =>
    if n.isValidChar then some (Char.ofNat n, rest) else none

/-- What the characters behind a backslash stand for, and what follows them. A punctuation character stands
for itself, unless it marks the end of a word. -/
def escape? (o : Options) : List Char → Option (Atom × List Char)
  | [] => none
  | 'x' :: cs => (hexChar? o 2 cs).map fun (c, rest) => (if c.toNat < 0x80 then .letter c else .byte c, rest)
  | 'u' :: cs => (hexChar? o 4 cs).map fun (c, rest) => (.letter c, rest)
  | 'U' :: cs => (hexChar? o 8 cs).map fun (c, rest) => (.letter c, rest)
  | c :: cs =>
    if "dsw".toList.contains c then some (.kind false, cs)
    else if "DSW".toList.contains c then some (.kind true, cs)
    else if "Az".toList.contains c then some (.boundary, cs)
    else if "bB<>".toList.contains c then some (.wordBoundary, cs)
    else if c = 'a' then some (.letter '\x07', cs)
    else if c = 'f' then some (.letter '\x0c', cs)
    else if c = 't' then some (.letter '\t', cs)
    else if c = 'n' then some (.letter '\n', cs)
    else if c = 'r' then some (.letter '\r', cs)
    else if c = 'v' then some (.letter '\x0b', cs)
    else if c.toNat < 0x80 ∧ !c.isAlphanum then some (.letter c, cs)
    else none

/-- The atom at the start of a text outside of a class, and what follows it. -/
def atom? (o : Options) : List Char → Option (Atom × List Char)
  | [] => none
  | c :: cs =>
    if c = '\\' then escape? o cs
    else if c = '.' then some (.any, cs)
    else if c = '^' || c = '$' then some (.boundary, cs)
    else some (.letter c, cs)

/-- The atom at the start of a text in a class, and what follows it. -/
def classAtom? (o : Options) : List Char → Option (Atom × List Char)
  | [] => none
  | c :: cs => if c = '\\' then escape? o cs else some (.letter c, cs)

end JobLedger.Text.Pattern
