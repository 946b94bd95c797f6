import JobLedger.Text.Hex
import JobLedger.Decimal.Shortest
import JobLedger.Json.Value
/-!
# JSON tokens

The words of a JSON text and how each is written. A number past the greatest double, and a string with an
unpaired surrogate, are tokens without a value: they may be skipped but not read.
-/
namespace JobLedger.Json

inductive Token where
  | openArray
  | closeArray
  | openObject
  | closeObject
  | comma
  | colon
  | null
  | bool (value : Bool)
  | number (value : Option Number)
  | string (value : Option String)
deriving DecidableEq, Repr

/-- The written form of a character inside a string: quotes, backslashes and control characters are
escaped. -/
def escapeChar (c : Char) : List Char :=
  if c = '"' then ['\\', '"']
  else if c = '\\' then ['\\', '\\']
  else if c = '\x08' then ['\\', 'b']
  else if c = '\t' then ['\\', 't']
  else if c = '\n' then ['\\', 'n']
  else if c = '\x0c' then ['\\', 'f']
  else if c = '\r' then ['\\', 'r']
  else if c.toNat < 32 then
    ['\\', 'u', '0', '0', Text.hexChar (c.toNat / 16), Text.hexChar (c.toNat % 16)]
  else [c]

def quote (s : String) : List Char := '"' :: s.toList.flatMap escapeChar ++ ['"']

def Number.chars : Number → List Char
  | .integer i => Decimal.signedDigits i
  | .double x => x.chars

def Token.chars : Token → List Char
  | .openArray => ['[']
  | .closeArray => [']']
  | .openObject => ['\x7b']
  | .closeObject => ['\x7d']
  | .comma => [',']
  | .colon => [':']
  | .null => "null".toList
  | .bool true => "true".toList
  | .bool false => "false".toList
  | .number v => (v.map Number.chars).getD []
  | .string v => (v.map quote).getD []

mutual

/-- The tokens of a value. -/
def tokens : Json → List Token
  | .null => [.null]
  | .bool b => [.bool b]
  | .number n => [.number (some n)]
  | .string s => [.string (some s)]
  | .array items => .openArray :: tokensOfItems items
  | .object members => .openObject :: tokensOfMembers members

def tokensOfItems : List Json → List Token
  | [] => [.closeArray]
  | v :: vs => v.tokens ++ tokensAfterItem vs

/-- The tokens that follow an array item. -/
def tokensAfterItem : List Json → List Token
  | [] => [.closeArray]
  | v :: vs => .comma :: v.tokens ++ tokensAfterItem vs

def tokensOfMembers : List (String × Json) → List Token
  | [] => [.closeObject]
  | (k, v) :: ms => .string (some k) :: .colon :: v.tokens ++ tokensAfterMember ms

/-- The tokens that follow an object member. -/
def tokensAfterMember : List (String × Json) → List Token
  | [] => [.closeObject]
  | (k, v) :: ms => .comma :: .string (some k) :: .colon :: v.tokens ++ tokensAfterMember ms

end

/-- The characters of a value, written without spaces. -/
def chars (v : Json) : List Char := v.tokens.flatMap Token.chars

def text (v : Json) : String := String.ofList v.chars

end JobLedger.Json
