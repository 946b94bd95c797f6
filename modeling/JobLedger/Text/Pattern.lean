import JobLedger.Text.Alphanumeric
import JobLedger.Text.Pattern.Bracket
/-!
# Patterns

Which texts are regular expressions that can be matched. A pattern here stands in braces, so a closing brace
never occurs in one and a repetition with a count, or a name in braces, always lacks its end.
-/
namespace JobLedger.Text.Pattern

/-- How deep a pattern may nest. -/
def nestLimit : Nat := 250

/-- A group of which the closing bracket has not come yet, or the whole pattern. -/
structure OpenGroup where
  options : Options := {}
  /-- How deep the branches before the current one nest. -/
  branches : List Nat := []
  /-- How deep the items of the current branch nest, the last one first. A setting of flags has no depth,
  since it cannot be repeated. -/
  items : List (Option Nat) := []
deriving DecidableEq, Repr

namespace OpenGroup

/-- How deep the current branch nests. -/
def branch (g : OpenGroup) : Nat := joined (g.items.map fun n => n.getD 0)

def content (g : OpenGroup) : Nat := joined (g.branch :: g.branches)

def add (g : OpenGroup) (depth : Nat) : OpenGroup := { g with items := some depth :: g.items }

def setOptions (g : OpenGroup) (o : Options) : OpenGroup := { g with options := o, items := none :: g.items }

def split (g : OpenGroup) : OpenGroup := { g with branches := g.branch :: g.branches, items := [] }

/-- The group with its last item repeated. -/
def repeat? (g : OpenGroup) : Option OpenGroup :=
  match g.items with
  | some depth :: items => some { g with items := some (depth + 1) :: items }
  | _ => none

end OpenGroup

/-- The name of a group, and what follows it. It starts with a letter or an underscore. -/
def groupName? (cs : List Char) : Option (List Char × List Char) :=
  let isPart := fun c : Char => "_.[]".toList.contains c || isAlphanumeric c
  let name := cs.takeWhile isPart
  match name.head?, cs.drop name.length with
  | some c, '>' :: rest => if c = '_' || isLetter c then some (name, rest) else none
  | _, _ => none

/-- What an opening bracket begins. -/
inductive Opening where
  | group (o : Options)
  | named (name : List Char)
  | setting (o : Options)
deriving DecidableEq, Repr

/-- What an opening bracket begins, and what follows. -/
def opening? (o : Options) (cs : List Char) : Option (Opening × List Char) :=
  match o.skip cs with
  | '?' :: 'P' :: '<' :: cs => (groupName? cs).map fun (name, rest) => (.named name, rest)
  | '?' :: '<' :: cs => (groupName? cs).map fun (name, rest) => (.named name, rest)
  | '?' :: cs =>
    (o.afterFlags? [] cs).map fun (hasContent, o, rest) => (if hasContent then .group o else .setting o, rest)
  | cs => some (.group o, cs)

/-- Whether a text is the rest of a pattern, given the names used before it, the innermost group and those
around it. -/
def isRest : Nat → List (List Char) → OpenGroup → List OpenGroup → List Char → Bool
  | 0, _, _, _, _ => false
  | fuel + 1, names, g, outer, cs =>
    match g.options.skip cs with
    | [] => outer.isEmpty && g.content ≤ nestLimit
    | '(' :: cs =>
      match opening? g.options cs with
      | none => false
      | some (.group o, rest) => isRest fuel names { options := o } (g :: outer) rest
      | some (.named name, rest) =>
        !names.contains name && isRest fuel (name :: names) { options := g.options } (g :: outer) rest
      | some (.setting o, rest) => isRest fuel names (g.setOptions o) outer rest
    | ')' :: cs =>
      match outer with
      | [] => false
      | around :: outer => isRest fuel names (around.add (g.content + 1)) outer cs
    | '|' :: cs => isRest fuel names g.split outer cs
    | '[' :: cs =>
      match class? g.options cs with
      | none => false
      | some (depth, rest) => isRest fuel names (g.add depth) outer rest
    | '\x7b' :: _ => false
    | c :: cs =>
      if c = '?' || c = '*' || c = '+' then
        match g.repeat? with
        | none => false
        | some g => isRest fuel names g outer (if cs.head? = some '?' then cs.tail else cs)
      else
        match atom? g.options (c :: cs) with
        | none => false
        | some (a, rest) => a.isMatchable g.options && isRest fuel names (g.add 0) outer rest

/-- Whether a text is a pattern that can be matched. -/
def isValid (s : String) : Bool := isRest (s.toList.length + 1) [] {} [] s.toList

end JobLedger.Text.Pattern
