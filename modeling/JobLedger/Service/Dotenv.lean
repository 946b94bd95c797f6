import JobLedger.Service.Environment
import JobLedger.Text.Alphanumeric
import JobLedger.Text.Blank
/-!
# Environment files

Assignments of variables in a text, one a line, with quotes, escapes, comments and references to other
variables. A variable that is set already keeps its value. The first line that cannot be read ends the file.
-/
namespace JobLedger.Service

namespace Dotenv

/-- Where a reader of lines stands with respect to quotes. -/
inductive LineState where
  | plain
  | blank
  | escape
  | weak
  | weakEscape
  | strong
  | strongEscape
deriving DecidableEq, Repr

def LineState.outside (c : Char) : LineState :=
  if c = '\\' then .escape else if c = '"' then .weak else if c = '\'' then .strong else .plain

def LineState.next (s : LineState) (c : Char) : LineState :=
  match s with
  | .plain => if Text.isBlank c && c ≠ '\n' && c ≠ '\r' then .blank else .outside c
  | .blank => .outside c
  | .escape => .plain
  | .weak => if c = '\\' then .weakEscape else if c = '"' then .plain else .weak
  | .weakEscape => .weak
  | .strong => if c = '\\' then .strongEscape else if c = '\'' then .plain else .strong
  | .strongEscape => .strong

/-- What a line comes to: the state at its end, or what stands before a comment. -/
def scan : LineState → List Char → List Char → LineState ⊕ List Char
  | s, _, [] => .inl s
  | s, before, c :: cs =>
    if s = .blank ∧ c = '#' then .inr before.reverse else scan (s.next c) (c :: before) cs

/-- A text cut behind each line feed. -/
def physicalLines : List Char → List Char → List (List Char)
  | [], [] => []
  | line, [] => [line.reverse]
  | line, c :: cs => if c = '\n' then (c :: line).reverse :: physicalLines [] cs
    else physicalLines (c :: line) cs

def dropLineEnd (line : List Char) : List Char :=
  match line.reverse with
  | '\n' :: '\r' :: r => r.reverse
  | '\n' :: r => r.reverse
  | _ => line

/-- The lines of a file, those joined that quotes hold together. The file must not end inside of one. -/
def logicalLines (s : LineState) (held : List Char) : List (List Char) → List (Option (List Char))
  | [] => if s = .plain then [] else [none]
  | line :: rest =>
    let whole := held ++ line
    if (Text.trimStart whole).head? = some '#' then some [] :: logicalLines .plain [] rest
    else
      match scan s [] line with
      | .inr before => some (held ++ before) :: logicalLines .plain [] rest
      | .inl .plain => some (dropLineEnd whole) :: logicalLines .plain [] rest
      | .inl t => logicalLines t whole rest

/-- Where a reader of a value stands. The flag says whether it is inside weak quotes. -/
inductive ValueState where
  | free (isQuoted : Bool)
  | strong
  | escape (isQuoted : Bool)
  /-- In the name of a variable, which is in reverse. -/
  | name (isQuoted : Bool) (letters : List Char)
  | bracedName (isQuoted : Bool) (letters : List Char)
  /-- Behind the value, where only a comment may come. -/
  | done

/-- The characters that an escape may stand for. -/
def escaped? (c : Char) : Option Char :=
  if c = 'n' then some '\n'
  else if c = '\\' || c = '\'' || c = '"' || c = '$' || c = ' ' then some c
  else none

/-- The value that a text stands for, given the values of variables. A name outside braces ends before the
first character that is neither a letter nor a number of any script. What is found is in reverse. -/
def value? (lookup : String → String) : ValueState → List Char → List Char → Option (List Char)
  | .done, found, [] => some found.reverse
  | .free false, found, [] => some found.reverse
  | .escape false, found, [] => some found.reverse
  | .name false letters, found, [] =>
    some (found.reverse ++ (lookup (String.ofList letters.reverse)).toList)
  | _, _, [] => none
  | .done, found, c :: cs =>
    if c = '#' then some found.reverse
    else if c = ' ' || c = '\t' then value? lookup .done found cs
    else none
  | .escape q, found, c :: cs =>
    match escaped? c with
    | some d => value? lookup (.free q) (d :: found) cs
    | none => none
  | .strong, found, c :: cs =>
    if c = '\'' then value? lookup (.free false) found cs else value? lookup .strong (c :: found) cs
  | .name q letters, found, c :: cs =>
    if Text.isAlphanumeric c then value? lookup (.name q (c :: letters)) found cs
    else if c = '\x7b' && letters.isEmpty then value? lookup (.bracedName q []) found cs
    else
      let found := (lookup (String.ofList letters.reverse)).toList.reverse ++ found
      if c = '$' then value? lookup (.name q []) found cs
      else value? lookup (.free q) (c :: found) cs
  | .bracedName q letters, found, c :: cs =>
    if c = '\x7d' then
      value? lookup (.free q) ((lookup (String.ofList letters.reverse)).toList.reverse ++ found) cs
    else value? lookup (.bracedName q (c :: letters)) found cs
  | .free q, found, c :: cs =>
    if c = '$' then value? lookup (.name q []) found cs
    else if c = '\\' then value? lookup (.escape q) found cs
    else if c = '"' then value? lookup (.free !q) found cs
    else if q then value? lookup (.free q) (c :: found) cs
    else if c = '\'' then value? lookup .strong found cs
    else if c = ' ' || c = '\t' then value? lookup .done found cs
    else value? lookup (.free q) (c :: found) cs

/-- The name at the start of a text, and what follows it after white space. -/
def key? : List Char → Option (String × List Char)
  | [] => none
  | c :: cs =>
    if c.isAlpha || c = '_' then
      let isPart := fun c : Char => c.isAlphanum || c == '_' || c == '.'
      some (String.ofList (c :: cs.takeWhile isPart), Text.trimStart (cs.dropWhile isPart))
    else none

def afterEquals? : List Char → Option (List Char)
  | '=' :: cs => some cs
  | _ => none

/-- The name that a line assigns to and the text of its value. A word that marks exported variables may
come first. -/
def assignment? (line : List Char) : Option (String × List Char) := do
  let (key, rest) ← key? line
  match afterEquals? rest with
  | some value => return (key, Text.trimStart value)
  | none =>
    if key ≠ "export" then none
    else
      let (key, rest) ← key? rest
      let value ← afterEquals? rest
      return (key, Text.trimStart value)

def trimEnd (line : List Char) : List Char := (Text.trimStart line.reverse).reverse

/-- The variables after the lines of a file, given what the lines before assigned, the last one first. -/
def assign (assigned : List (String × String)) : List (Option (List Char)) → Environment → Environment
  | [], env => env
  | none :: _, env => env
  | some line :: rest, env =>
    let line := Text.trimStart (trimEnd line)
    if line = [] ∨ line.head? = some '#' then assign assigned rest env
    else
      let lookup := fun name => ((env name).or (assigned.lookup name)).getD ""
      let read := (assignment? line).bind fun (key, text) =>
        if text = [] ∨ text.head? = some '#' then some (key, "")
        else (value? lookup (.free false) [] text).map fun v => (key, String.ofList v)
      match read with
      | none => env
      | some (key, value) =>
        assign ((key, value) :: assigned) rest (if (env key).isSome then env else env.add key value)

def load (env : Environment) (text : String) : Environment :=
  let cs := match text.toList with
    | '\ufeff' :: cs => cs
    | cs => cs
  assign [] (logicalLines .plain [] (physicalLines [] cs)) env

end Dotenv

end JobLedger.Service
