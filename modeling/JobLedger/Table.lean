/-!
# Tables

Finite maps as lists of entries. A new entry goes to the end, a changed one stays in its place.
-/
namespace JobLedger

/-- A finite map from keys to values. -/
structure Table (κ α : Type) where
  entries : List (κ × α)

namespace Table

variable {κ α : Type} [DecidableEq κ]

def empty : Table κ α := ⟨[]⟩

instance : Inhabited (Table κ α) := ⟨empty⟩

def find? (k : κ) : List (κ × α) → Option α
  | [] => none
  | (l, a) :: es => if l = k then some a else find? k es

/-- Entries with the value of a key set. -/
def put (k : κ) (a : α) : List (κ × α) → List (κ × α)
  | [] => [(k, a)]
  | (l, b) :: es => if l = k then (k, a) :: es else (l, b) :: put k a es

def get? (t : Table κ α) (k : κ) : Option α := find? k t.entries

def insert (t : Table κ α) (k : κ) (a : α) : Table κ α := ⟨put k a t.entries⟩

def erase (t : Table κ α) (k : κ) : Table κ α := ⟨t.entries.filter fun e => e.1 ≠ k⟩

def contains (t : Table κ α) (k : κ) : Bool := (t.get? k).isSome

def size (t : Table κ α) : Nat := t.entries.length

def values (t : Table κ α) : List α := t.entries.map Prod.snd

@[simp] theorem get?_empty (k : κ) : (empty : Table κ α).get? k = none := rfl

private theorem find?_put (k l : κ) (a : α) (es : List (κ × α)) :
    find? l (put k a es) = if l = k then some a else find? l es := by
  induction es with
  | nil => simp only [put, find?]; grind
  | cons e es ih =>
    obtain ⟨m, b⟩ := e
    simp only [put]
    split <;> simp only [find?] <;> grind

theorem get?_insert (t : Table κ α) (k l : κ) (a : α) :
    (t.insert k a).get? l = if l = k then some a else t.get? l := find?_put k l a t.entries

private theorem find?_filter_ne (k l : κ) (es : List (κ × α)) :
    find? l (es.filter fun e => e.1 ≠ k) = if l = k then none else find? l es := by
  induction es with
  | nil => simp [find?]
  | cons e es ih =>
    obtain ⟨m, b⟩ := e
    by_cases h : m = k
    · simp only [List.filter, h, ne_eq, not_true_eq_false, decide_false, find?]; grind
    · simp only [List.filter, h, ne_eq, not_false_eq_true, decide_true, find?]; grind

theorem get?_erase (t : Table κ α) (k l : κ) :
    (t.erase k).get? l = if l = k then none else t.get? l := find?_filter_ne k l t.entries

end Table

end JobLedger
