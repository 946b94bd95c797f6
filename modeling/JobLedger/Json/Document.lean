import JobLedger.Json.Lexer
/-!
# JSON documents

What a JSON text says before any of it is judged: repeated members stay, and numbers and strings without a
value are kept as such. A document is built from its tokens one at a time, with the places still open held
in a list. A value is taken from a document with a bound on its nesting.
-/
namespace JobLedger.Json

/-- A JSON text as it was written. -/
inductive Document where
  | null
  | bool (value : Bool)
  | number (value : Option Number)
  | string (value : Option String)
  | array (items : List Document)
  | object (members : List (Option String × Document))

namespace Document

instance : Inhabited Document := ⟨.null⟩

/-- A place that waits for a value: behind the items of an array, or for a member of an object. What came
before is in reverse. -/
inductive Place where
  | item (before : List Document)
  | member (before : List (Option String × Document)) (name : Option String)

/-- What a text has said so far, and so what may come next. -/
inductive Progress where
  | value (places : List Place)
  /-- The first item of an array, or its end. -/
  | firstItem (places : List Place)
  /-- A comma or the end of an array. -/
  | afterItem (items : List Document) (places : List Place)
  /-- The first name in an object, or its end. -/
  | firstName (places : List Place)
  | nextName (members : List (Option String × Document)) (places : List Place)
  | colon (members : List (Option String × Document)) (name : Option String) (places : List Place)
  /-- A comma or the end of an object. -/
  | afterMember (members : List (Option String × Document)) (places : List Place)
  | complete (document : Document)

def put (d : Document) : List Place → Progress
  | [] => .complete d
  | .item before :: ps => .afterItem (d :: before) ps
  | .member before name :: ps => .afterMember ((name, d) :: before) ps

/-- A token read where a value may start. -/
def start? (ps : List Place) : Token → Option Progress
  | .null => some (put .null ps)
  | .bool b => some (put (.bool b) ps)
  | .number n => some (put (.number n) ps)
  | .string s => some (put (.string s) ps)
  | .openArray => some (.firstItem ps)
  | .openObject => some (.firstName ps)
  | _ => none

def step? : Progress → Token → Option Progress
  | .value ps, t => start? ps t
  | .firstItem ps, .closeArray => some (put (.array []) ps)
  | .firstItem ps, t => start? (.item [] :: ps) t
  | .afterItem items ps, .comma => some (.value (.item items :: ps))
  | .afterItem items ps, .closeArray => some (put (.array items.reverse) ps)
  | .firstName ps, .closeObject => some (put (.object []) ps)
  | .firstName ps, .string s => some (.colon [] s ps)
  | .nextName ms ps, .string s => some (.colon ms s ps)
  | .colon ms name ps, .colon => some (.value (.member ms name :: ps))
  | .afterMember ms ps, .comma => some (.nextName ms ps)
  | .afterMember ms ps, .closeObject => some (put (.object ms.reverse) ps)
  | _, _ => none

def steps? : Progress → List Token → Option Progress
  | p, [] => some p
  | p, t :: ts => (step? p t).bind fun q => steps? q ts

def ofTokens? (ts : List Token) : Option Document :=
  match steps? (.value []) ts with
  | some (.complete d) => some d
  | _ => none

def ofText? (s : String) : Option Document := (tokenize? s.toList []).bind ofTokens?

mutual

/-- The document that says a value. -/
def ofJson : Json → Document
  | .null => .null
  | .bool b => .bool b
  | .number n => .number (some n)
  | .string s => .string (some s)
  | .array items => .array (ofItems items)
  | .object members => .object (ofMembers members)

def ofItems : List Json → List Document
  | [] => []
  | v :: vs => ofJson v :: ofItems vs

def ofMembers : List (String × Json) → List (Option String × Document)
  | [] => []
  | (k, v) :: ms => (some k, ofJson v) :: ofMembers ms

end

mutual

/-- The value that a document says, if its nesting stays within a bound. Of repeated members the last one
counts, and members are sorted by name. -/
def value? : Nat → Document → Option Json
  | _, .null => some .null
  | _, .bool b => some (.bool b)
  | _, .number n => n.map .number
  | _, .string s => s.map .string
  | 0, .array _ => none
  | room + 1, .array items => (items? room items).map .array
  | 0, .object _ => none
  | room + 1, .object members => (members? room members []).map .object

def items? : Nat → List Document → Option (List Json)
  | _, [] => some []
  | room, d :: ds =>
    match value? room d, items? room ds with
    | some v, some vs => some (v :: vs)
    | _, _ => none

/-- The values of a list of members, put one by one into a sorted list. -/
def members? : Nat → List (Option String × Document) → List (String × Json) →
    Option (List (String × Json))
  | _, [], found => some found
  | room, (some k, d) :: ms, found =>
    match value? room d with
    | some v => members? room ms (insertMember k v found)
    | none => none
  | _, (none, _) :: _, _ => none

end

end Document

/-- How deep values may be nested in a text that is read. -/
def nestingLimit : Nat := 127

/-- The value that a text says, if its nesting stays within a bound. -/
def ofTextWithin? (bound : Nat) (s : String) : Option Json := (Document.ofText? s).bind (Document.value? bound)

def ofText? (s : String) : Option Json := ofTextWithin? nestingLimit s

end JobLedger.Json
