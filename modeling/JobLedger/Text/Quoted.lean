import JobLedger.Text.Printable
/-!
# Quoted texts

A text in double quotes as it is shown to a developer: quotes, backslashes and line breaks are escaped, and
what could not be seen on its own is given by its code point.
-/
namespace JobLedger.Text

/-- The shown form of a character inside quotes. -/
def showChar (c : Char) : List Char :=
  if c = '"' then ['\\', '"']
  else if c = '\\' then ['\\', '\\']
  else if c = '\n' then ['\\', 'n']
  else if c = '\r' then ['\\', 'r']
  else if c = '\t' then ['\\', 't']
  else if c.toNat = 0 then ['\\', '0']
  else if 0x20 ≤ c.toNat ∧ c.toNat ≤ 0x7E then [c]
  else if isExtender c || !isPrintable c then
    '\\' :: 'u' :: '\x7b' :: (Nat.toDigits 16 c.toNat) ++ ['\x7d']
  else [c]

def quoted (s : String) : String := String.ofList ('"' :: s.toList.flatMap showChar ++ ['"'])

def quotedOption : Option String → String
  | some s => "Some(" ++ quoted s ++ ")"
  | none => "None"

def truth : Bool → String
  | true => "true"
  | false => "false"

/-- Stands for words that a backend or a codec adds of its own. -/
def foreignWords : String := "<lib>"

end JobLedger.Text
