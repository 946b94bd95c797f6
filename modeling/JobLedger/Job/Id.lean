import JobLedger.Text.Blank
import JobLedger.Text.Hex
/-!
# Identifiers

Job identifiers of 128 bits with their spellings, and the identifiers of service instances. A job identifier
is written as 32 lower-case hexadecimal digits in groups of 8, 4, 4, 4 and 12. It is read in that form,
without hyphens, in braces or behind `urn:uuid:`, with digits in any case.
-/
namespace JobLedger

structure JobId where
  bits : BitVec 128
deriving DecidableEq, Repr, Inhabited

namespace JobId

def digits (id : JobId) : List Char := Text.hexDigits 32 id.bits.toNat

/-- Thirty-two digits in groups. -/
def hyphenate (ds : List Char) : List Char :=
  ds.take 8 ++ '-' :: (ds.drop 8).take 4 ++ '-' :: (ds.drop 12).take 4 ++
    '-' :: (ds.drop 16).take 4 ++ '-' :: ds.drop 20

/-- What stands at the places of digits in a grouped form. -/
def dehyphenate (cs : List Char) : List Char :=
  cs.take 8 ++ (cs.drop 9).take 4 ++ (cs.drop 14).take 4 ++ (cs.drop 19).take 4 ++ cs.drop 24

def text (id : JobId) : String := String.ofList (hyphenate id.digits)

def plainText (id : JobId) : String := String.ofList id.digits

def ofDigits? (cs : List Char) : Option JobId :=
  if cs.length = 32 then (Text.hexNumber? 0 cs).map fun n => ⟨BitVec.ofNat 128 n⟩ else none

def ofGroups? (cs : List Char) : Option JobId :=
  let ds := dehyphenate cs
  if cs = hyphenate ds then ofDigits? ds else none

/-- The identifier that characters spell; the shape is told by their number. -/
def ofChars? (cs : List Char) : Option JobId :=
  if cs.length = 32 then ofDigits? cs
  else if cs.length = 36 then ofGroups? cs
  else if cs.length = 38 ∧ cs.head? = some '\x7b' ∧ cs.getLast? = some '\x7d' then
    ofGroups? ((cs.drop 1).take 36)
  else if cs.length = 45 ∧ (cs.take 9).map Char.toLower = "urn:uuid:".toList then
    ofGroups? (cs.drop 9)
  else none

def ofText? (s : String) : Option JobId := ofChars? s.toList

/-- Comparison by number, which is also the order of the texts. -/
def order (a b : JobId) : Ordering := compare a.bits.toNat b.bits.toNat

end JobId

/-- The identifier of the service instance that created a job. -/
structure InstanceId where
  name : String
deriving DecidableEq, Repr, Inhabited

namespace InstanceId

def generated (id : JobId) : InstanceId := ⟨"instance-" ++ id.text⟩

/-- Whether an identifier has the form of a generated one: a random identifier, version four of the
variant that it names, in lower case behind a fixed word. -/
def isGenerated (i : InstanceId) : Bool :=
  match (i.name.toList.drop 9 |> JobId.ofChars?) with
  | some id =>
    i == generated id && id.digits[12]? == some '4' &&
      (id.digits[16]?.any fun c => c == '8' || c == '9' || c == 'a' || c == 'b')
  | none => false

end InstanceId

end JobLedger
