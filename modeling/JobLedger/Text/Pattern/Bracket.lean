import JobLedger.Text.Pattern.Atom
/-!
# Classes in brackets

The classes of characters that a pattern can hold, with operators and classes inside of classes, and how deep
they nest.
-/
namespace JobLedger.Text.Pattern

/-- How deep something nests that consists of parts of some depths. A single part is no deeper by it. -/
def joined : List Nat → Nat
  | [] => 0
  | [n] => n
  | ns => ns.foldl max 0 + 1

def asciiClasses : List String :=
  ["alnum", "alpha", "ascii", "blank", "cntrl", "digit", "graph", "lower", "print", "punct", "space", "upper",
   "word", "xdigit"]

/-- Whether a named class of ASCII characters is negated, and what follows it. It stands behind a bracket:
a colon, its name, a colon and a bracket. -/
def asciiClass? : List Char → Option (Bool × List Char)
  | ':' :: cs =>
    let (isNegated, cs) := match cs with
      | '^' :: r => (true, r)
      | r => (false, r)
    match cs.dropWhile (· != ':') with
    | ':' :: ']' :: rest =>
      if asciiClasses.contains (String.ofList (cs.takeWhile (· != ':'))) then some (isNegated, rest)
      else none
    | _ => none
  | _ => none

/-- What follows the bracket that opens a class. Where bytes are matched a class cannot be negated. -/
def afterOpening? (o : Options) (cs : List Char) : Option (List Char) :=
  match o.skip cs with
  | '^' :: rest => if o.unicode then some rest else none
  | rest => some rest

/-- What follows a character, a kind of characters or a range. A range must not go downwards. A minus sign in
front of another one or of a closing bracket makes no range. -/
def afterMember? (o : Options) (cs : List Char) : Option (List Char) :=
  (classAtom? o cs).bind fun (first, rest) =>
    if !first.isMember o then none
    else
      match o.skip rest with
      | '-' :: rest =>
        if o.peek rest = some ']' ∨ o.peek rest = some '-' then some ('-' :: rest)
        else
          (classAtom? o (o.skip rest)).bind fun (last, rest) =>
            match first.char?, last.char? with
            | some a, some b => if a ≤ b ∧ last.isMember o then some rest else none
            | _, _ => none
      | rest => some rest

/-- A class of which the closing bracket has not come yet. -/
structure OpenClass where
  /-- Whether at most minus signs have come. They stand for themselves, and so does a closing bracket then. -/
  isFresh : Bool := true
  /-- How deep the part before the last operator nests, if there was one. -/
  operand : Option Nat := none
  members : List Nat := []
deriving DecidableEq, Repr

namespace OpenClass

def add (c : OpenClass) (depth : Nat) : OpenClass :=
  { c with isFresh := false, members := depth :: c.members }

def content (c : OpenClass) : Nat := joined (c.operand.toList ++ [joined c.members])

def split (c : OpenClass) : OpenClass := { isFresh := false, operand := some c.content }

def depth (c : OpenClass) : Nat := c.content + 1

end OpenClass

/-- What comes next in a class. -/
inductive ClassPart where
  | dash
  | member
  | operator
  | opening
  | closing
deriving DecidableEq, Repr

def classPart? (o : Options) (c : OpenClass) (cs : List Char) : Option (ClassPart × List Char) :=
  match o.skip cs with
  | [] => none
  | d :: cs =>
    if c.isFresh && d = '-' then if Atom.isMember o (.letter d) then some (.dash, cs) else none
    else if c.isFresh && c.members.isEmpty && d = ']' then
      if Atom.isMember o (.letter d) then some (.member, cs) else none
    else if d = ']' then some (.closing, cs)
    else if d = '[' then
      match asciiClass? cs with
      | some (isNegated, rest) =>
        if if o.unicode then o.ignoresCase else isNegated then none else some (.member, rest)
      | none => (afterOpening? o cs).map fun rest => (.opening, rest)
    else if (d = '&' || d = '-' || d = '~') && cs.head? = some d then some (.operator, cs.tail)
    else (afterMember? o (d :: cs)).map fun rest => (.member, rest)

/-- How deep a class nests, and what follows it, given the classes around it. -/
def classFrom? (o : Options) : Nat → OpenClass → List OpenClass → List Char → Option (Nat × List Char)
  | 0, _, _, _ => none
  | fuel + 1, c, outer, cs =>
    match classPart? o c cs, outer with
    | none, _ => none
    | some (.dash, rest), _ => classFrom? o fuel { c with members := 0 :: c.members } outer rest
    | some (.member, rest), _ => classFrom? o fuel (c.add 0) outer rest
    | some (.operator, rest), _ => classFrom? o fuel c.split outer rest
    | some (.opening, rest), _ => classFrom? o fuel {} (c :: outer) rest
    | some (.closing, rest), [] => some (c.depth, rest)
    | some (.closing, rest), d :: outer => classFrom? o fuel (d.add c.depth) outer rest

def class? (o : Options) (cs : List Char) : Option (Nat × List Char) :=
  (afterOpening? o cs).bind fun rest => classFrom? o (rest.length + 1) {} [] rest

end JobLedger.Text.Pattern
