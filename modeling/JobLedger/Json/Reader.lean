import JobLedger.Json.Document
/-!
# Readers of typed values

A reader takes a value of one kind from a document, within a bound on nesting. A structure is written as an
object of named members or as an array of all of them in order. Unknown members are passed over whatever
they hold, a repeated known one is refused.
-/
namespace JobLedger.Json

/-- A way to take a value of one kind from a document, given how deep it may still be nested. -/
abbrev Reader (α : Type) := Nat → Document → Option α

namespace Reader

/-- The value that a text says to a reader. -/
def ofText? {α : Type} (r : Reader α) (s : String) : Option α :=
  (Document.ofText? s).bind (r nestingLimit)

/-- The value that a JSON value says to a reader, however deep it is nested. -/
def ofJson? {α : Type} (r : Reader α) (v : Json) : Option α := r v.depth (.ofJson v)

def json : Reader Json := Document.value?

def bool : Reader Bool
  | _, .bool b => some b
  | _, _ => none

def string : Reader String
  | _, .string s => s
  | _, _ => none

def integer (low high : Int) : Reader Int
  | _, .number (some (.integer i)) => if low ≤ i ∧ i ≤ high then some i else none
  | _, _ => none

def natural (bound : Nat) : Reader Nat
  | _, .number (some (.integer i)) => if 0 ≤ i ∧ i < bound then some i.toNat else none
  | _, _ => none

/-- A value, or null for none. -/
def optional {α : Type} (r : Reader α) : Reader (Option α)
  | _, .null => some none
  | room, d => (r room d).map some

def spelled {α : Type} (parse? : String → Option α) : Reader α := fun room d =>
  (string room d).bind parse?

def each {α : Type} (r : Reader α) (room : Nat) : List Document → Option (List α)
  | [] => some []
  | d :: ds =>
    match r room d, each r room ds with
    | some a, some as => some (a :: as)
    | _, _ => none

def list {α : Type} (r : Reader α) : Reader (List α)
  | room + 1, .array ds => each r room ds
  | _, _ => none

/-- One of some names: a string, or an object with that one member, which is null. -/
def choice {α : Type} (named? : String → Option α) : Reader α
  | _, .string s => s.bind named?
  | _ + 1, .object [(name, .null)] => name.bind named?
  | _, _ => none

/-- The document of a member that must stand at most once. -/
def single? (name : String) (ms : List (Option String × Document)) : Option (Option Document) :=
  match ms.filter fun m => m.1 == some name with
  | [] => some none
  | [m] => some (some m.2)
  | _ => none

/-- The documents found for named members, with the room left inside the structure. -/
def members? (names : List String) : Nat → Document → Option (Nat × List (Option Document))
  | room + 1, .object ms =>
    if ms.all fun m => m.1.isSome then (names.mapM fun n => single? n ms).map fun ds => (room, ds)
    else none
  | room + 1, .array ds =>
    if ds.length = names.length then some (room, ds.map some) else none
  | _, _ => none

/-- The value of a member that must be there. -/
def required {α : Type} (r : Reader α) (room : Nat) (d : Option Document) : Option α :=
  d.bind (r room)

/-- The value of a member that may be missing or null. -/
def omittable {α : Type} (r : Reader α) (room : Nat) : Option Document → Option (Option α)
  | none => some none
  | some d => optional r room d

end Reader

end JobLedger.Json
