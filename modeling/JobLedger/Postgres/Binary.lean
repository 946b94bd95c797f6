import JobLedger.Json.Document
import JobLedger.Postgres.Value
/-!
# Binary values

What the bytes of a column stand for. Numbers have their most significant byte first and may come in fewer or
more bytes than their type has. Main statement: one byte is a number from -128 to 127 (`signed?_singleton`).
-/
namespace JobLedger.Postgres

/-- The number of some bytes, the most significant one first. -/
def natural (bytes : List UInt8) : Nat := bytes.foldl (fun n b => 256 * n + b.toNat) 0

def signed? (bytes : List UInt8) : Option Int :=
  let n := natural bytes
  if bytes = [] ∨ 8 < bytes.length then none
  else some (if 2 * n < Nat.pow 256 bytes.length then n else (n : Int) - Nat.pow 256 bytes.length)

theorem signed?_singleton (b : UInt8) :
    signed? [b] = some (if b.toNat < 128 then (b.toNat : Int) else b.toNat - 256) := by
  have : (2 * b.toNat < 256) ↔ b.toNat < 128 := by omega
  simp [signed?, natural, this]

def utf8? (bytes : List UInt8) : Option String := String.fromUTF8? (ByteArray.mk bytes.toArray)

/-- The JSON value of a text in some bytes. -/
def jsonOfBytes? (bytes : List UInt8) : Option Value := ((utf8? bytes).bind Json.ofText?).map .jsonb

/-- The value of some bytes. JSON is behind a byte for the version of its form, which is one. Any byte but
zero is true. -/
def Value.ofBytes? (type : ColumnType) (bytes : List UInt8) : Option Value :=
  match type with
  | .uuid => if bytes.length = 16 then some (.uuid ⟨BitVec.ofNat 128 (natural bytes)⟩) else none
  | .text => (utf8? bytes).map .text
  | .int2 => ((signed? bytes).filter fun i => -32768 ≤ i ∧ i < 32768).map .int2
  | .int8 => (signed? bytes).map .int8
  | .timestamptz => ((signed? bytes).bind ofMicros?).map .timestamptz
  | .jsonb =>
    match bytes with
    | 1 :: rest => jsonOfBytes? rest
    | _ => none
  | .bool => bytes.head?.map fun b => .bool (b != 0)

end JobLedger.Postgres
