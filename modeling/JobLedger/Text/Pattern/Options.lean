import JobLedger.Text.Blank
/-!
# Options of patterns

How the characters of a pattern are taken: flags change it from some place on. Main statements: a flag turns
its option on or off (`ignoresCase_set` and the like), and without free spacing nothing is passed over
(`skip_of_not_freeSpacing`).
-/
namespace JobLedger.Text.Pattern

/-- How the characters of a pattern are taken. -/
structure Options where
  ignoresCase : Bool := false
  /-- Characters are matched, and not bytes. -/
  unicode : Bool := true
  /-- White space and comments stand for nothing. -/
  freeSpacing : Bool := false
deriving DecidableEq, Repr

/-- What follows white space and comments. A comment starts with a number sign and ends with its line. The
flag says whether one has begun. -/
def afterSpace (inComment : Bool) : List Char → List Char
  | [] => []
  | c :: cs =>
    if inComment then afterSpace (c != '\n') cs
    else if isBlank c then afterSpace false cs
    else if c = '#' then afterSpace true cs
    else c :: cs

namespace Options

/-- The options with a flag on or off. Flags for lines, dots and repetitions change no option. -/
def set (o : Options) (flag : Char) (on : Bool) : Options :=
  if flag = 'i' then { o with ignoresCase := on }
  else if flag = 'u' then { o with unicode := on }
  else if flag = 'x' then { o with freeSpacing := on }
  else o

def skip (o : Options) (cs : List Char) : List Char := if o.freeSpacing then afterSpace false cs else cs

/-- The character that is looked at behind a minus sign. Of a comment only the sign that starts it is passed
over. -/
def peek (o : Options) (cs : List Char) : Option Char :=
  if o.freeSpacing then
    match cs.dropWhile isBlank with
    | '#' :: cs => (cs.dropWhile isBlank).head?
    | cs => cs.head?
  else cs.head?

/-- Flags up to a colon or a closing bracket: whether a colon ends them, the options they make of others, and
what follows. Each flag is given once. One minus sign may stand among them, not at the end, and turns off
those behind it. -/
def afterFlags? (seen : List Char) (o : Options) : List Char → Option (Bool × Options × List Char)
  | [] => none
  | c :: cs =>
    if c = ':' then if seen.head? = some '-' then none else some (true, o, cs)
    else if c = ')' then if seen = [] ∨ seen.head? = some '-' then none else some (false, o, cs)
    else if "imsURux-".toList.contains c ∧ !seen.contains c then
      afterFlags? (c :: seen) (o.set c (!seen.contains '-')) cs
    else none

@[simp] theorem skip_of_not_freeSpacing {o : Options} (h : o.freeSpacing = false) (cs : List Char) :
    o.skip cs = cs := by simp [skip, h]

@[simp] theorem ignoresCase_set (o : Options) (on : Bool) : (o.set 'i' on).ignoresCase = on := by simp [set]

@[simp] theorem unicode_set (o : Options) (on : Bool) : (o.set 'u' on).unicode = on := by simp [set]

@[simp] theorem freeSpacing_set (o : Options) (on : Bool) : (o.set 'x' on).freeSpacing = on := by simp [set]

end Options

end JobLedger.Text.Pattern
