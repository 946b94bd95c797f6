import JobLedger.Decimal.Digits
/-!
# Positions behind a text

A message may end in the line and the column that it is about. Main statement: what is taken for a position is
an end of the message, and what stands before it is kept (`eq_append_of_cutLast?`).
-/
namespace JobLedger.Text

/-- What stands before and behind the last occurrence of some characters. -/
def cutLast? (mark : List Char) : List Char → Option (List Char × List Char)
  | [] => none
  | c :: cs =>
    match cutLast? mark cs with
    | some (front, back) => some (c :: front, back)
    | none => if mark.isPrefixOf (c :: cs) then some ([], (c :: cs).drop mark.length) else none

/-- A position: a line, and a column in it. Lines are counted from one. -/
structure Position where
  line : Nat
  column : Nat
deriving DecidableEq, Repr

namespace Position

/-- How a position is written behind a text. No line, no position. -/
def text (p : Position) : String :=
  if p.line = 0 then "" else " at line " ++ Decimal.text p.line ++ " column " ++ Decimal.text p.column

/-- The digits of the line and of the column at the end of a text, and what stands before it. -/
def digits? (cs : List Char) : Option (List Char × List Char × List Char) :=
  let mark := " column ".toList
  (cutLast? " at line ".toList cs).bind fun (front, back) =>
    let line := back.takeWhile Char.isDigit
    let rest := back.drop line.length
    let column := rest.drop mark.length
    if line ≠ [] ∧ mark.isPrefixOf rest ∧ column ≠ [] ∧ column.all Char.isDigit then
      some (front, line, column)
    else none

/-- The position at the end of a text, and what stands before it. Its numbers fit in 64 bits. -/
def split? (cs : List Char) : Option (List Char × Position) :=
  (digits? cs).bind fun (front, line, column) =>
    let p : Position := ⟨Decimal.value line, Decimal.value column⟩
    if p.line < UInt64.size ∧ p.column < UInt64.size then some (front, p) else none

end Position

/-- A text with the position at its end, if there is one, written in the usual way. -/
def withPosition (s : String) : String :=
  match Position.split? s.toList with
  | some (front, p) => String.ofList front ++ p.text
  | none => s

theorem eq_append_of_cutLast? {mark cs front back : List Char} (h : cutLast? mark cs = some (front, back)) :
    cs = front ++ mark ++ back := by
  induction cs generalizing front with
  | nil => simp [cutLast?] at h
  | cons c cs ih =>
    unfold cutLast? at h
    split at h
    · rename_i f b hcut
      obtain ⟨rfl, rfl⟩ := Prod.mk.inj (Option.some.inj h)
      simp [ih hcut]
    · split at h
      · rename_i isPrefix
        obtain ⟨rfl, rfl⟩ := Prod.mk.inj (Option.some.inj h)
        obtain ⟨rest, hrest⟩ := List.isPrefixOf_iff_prefix.1 isPrefix
        simp [← hrest]
      · cases h

end JobLedger.Text
