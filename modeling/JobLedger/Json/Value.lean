import JobLedger.Decimal.Double
/-!
# JSON values

Values without a trace of how they were written. Members of an object are kept in order; a value read as
free JSON has its members sorted by name.
-/
namespace JobLedger

/-- A JSON number: a whole number, or a double. -/
inductive Json.Number where
  | integer (value : Int)
  | double (value : Decimal.Double)
deriving DecidableEq, Repr

inductive Json where
  | null
  | bool (value : Bool)
  | number (value : Json.Number)
  | string (value : String)
  | array (items : List Json)
  | object (members : List (String × Json))

namespace Json

instance : Inhabited Json := ⟨.null⟩

def int (i : Int) : Json := .number (.integer i)

def nat (n : Nat) : Json := .number (.integer n)

/-- The value if there is one, else null. -/
def orNull {α : Type} (f : α → Json) : Option α → Json
  | some a => f a
  | none => .null

/-- A member list that holds the member only if its value is there. -/
def optionalMember {α : Type} (name : String) (f : α → Json) : Option α → List (String × Json)
  | some a => [(name, f a)]
  | none => []

def member? (name : String) : Json → Option Json
  | .object ms => ms.lookup name
  | _ => none

/-- A member put into a list sorted by name, in the place of an earlier one of its name. -/
def insertMember {α : Type} (name : String) (v : α) : List (String × α) → List (String × α)
  | [] => [(name, v)]
  | (k, w) :: ms =>
    if name = k then (name, v) :: ms
    else if name < k then (name, v) :: (k, w) :: ms
    else (k, w) :: insertMember name v ms

mutual

/-- The number of containers around the innermost value, the outermost counted. -/
def depth : Json → Nat
  | .array items => depthItems items + 1
  | .object members => depthMembers members + 1
  | _ => 0

def depthItems : List Json → Nat
  | [] => 0
  | v :: vs => max v.depth (depthItems vs)

def depthMembers : List (String × Json) → Nat
  | [] => 0
  | (_, v) :: ms => max v.depth (depthMembers ms)

end

mutual

def beq : Json → Json → Bool
  | .null, .null => true
  | .bool a, .bool b => a == b
  | .number a, .number b => a == b
  | .string a, .string b => a == b
  | .array a, .array b => beqItems a b
  | .object a, .object b => beqMembers a b
  | _, _ => false

def beqItems : List Json → List Json → Bool
  | [], [] => true
  | a :: as, b :: bs => beq a b && beqItems as bs
  | _, _ => false

def beqMembers : List (String × Json) → List (String × Json) → Bool
  | [], [] => true
  | (k, a) :: as, (l, b) :: bs => k == l && beq a b && beqMembers as bs
  | _, _ => false

end

instance : BEq Json := ⟨beq⟩

end Json

end JobLedger
