import JobLedger.Decimal.Digits
import JobLedger.Text.Alphanumeric
import JobLedger.Text.Blank
import JobLedger.Text.Pattern
import JobLedger.Text.Slice
/-!
# Log filters

Which events of a log are shown. A filter is a list of directives. Each gives a level to the events of some
targets, or to those of them that have a field, or to what happens inside of spans. The directive that says
most about an event decides. A filter in which one directive cannot be read is no filter.
-/
namespace JobLedger.Service

/-- How verbose a log is. -/
inductive LogLevel where
  | off
  | error
  | warn
  | info
  | debug
  | trace
deriving DecidableEq, Repr

namespace LogLevel

def rank : LogLevel → Nat
  | .off => 0
  | .error => 1
  | .warn => 2
  | .info => 3
  | .debug => 4
  | .trace => 5

def all : List LogLevel := [.off, .error, .warn, .info, .debug, .trace]

def name : LogLevel → String
  | .off => "off"
  | .error => "error"
  | .warn => "warn"
  | .info => "info"
  | .debug => "debug"
  | .trace => "trace"

/-- The level of a name in any letter case, or of a number. -/
def ofText? (s : String) : Option LogLevel :=
  match Decimal.numeral? 6 s with
  | some n => all[n]?
  | none => all.find? fun l => Text.sameAsciiCase l.name s

end LogLevel

/-- A field that a directive asks for. A pattern restricts its values. -/
structure LogField where
  name : String
  pattern : Option String
deriving DecidableEq, Repr

namespace LogField

/-- Whether a text can stand for values: any pattern, and numbers with a plus sign, which are none. -/
def isValuePattern (s : String) : Bool :=
  Text.Pattern.isValid s || match s.toList with
    | '+' :: cs =>
      Decimal.isNumeral cs || ["inf", "infinity", "nan"].any (Text.sameAsciiCase (String.ofList cs))
    | _ => false

/-- The field of a text: a name, which may have a pattern behind an equals sign. -/
def ofText? (s : String) : Option LogField :=
  match s.splitOn "=" with
  | name :: pattern :: _ => if isValuePattern pattern then some ⟨name, some pattern⟩ else none
  | _ => if s = "" then none else some ⟨s, none⟩

end LogField

/-- One directive of a filter: what it is about, and the level up to which that is shown. -/
structure LogDirective where
  /-- How the target begins. -/
  target : Option String := none
  /-- The span in which something happens. -/
  span : Option String := none
  field : Option LogField := none
  level : LogLevel := .trace
deriving DecidableEq, Repr

namespace LogDirective

/-- A character by which a directive is read, and its offset. -/
abbrev Place : Type := Nat × Char

/-- Whether a directive can start with a character other than a bracket. -/
def canStart (c : Char) : Bool := c == '-' || c == ':' || c == '_' || Text.isAlphanumeric c

/-- A directive with the level behind an equals sign. Everything is shown if there is none. -/
def withLevel? (d : LogDirective) (whole : List Char) : List Place → Option LogDirective
  | [] => some d
  | (i, '=') :: _ =>
    (Text.sliceFrom? (i + 1) whole).bind fun s =>
      (if s = "" then some .trace else LogLevel.ofText? s).map fun l => { d with level := l }
  | _ => none

/-- A directive with the name of a span from an offset on, a field in braces or both, and the closing
bracket. -/
def withSpan? (d : LogDirective) (whole : List Char) (start : Nat) (ps : List Place) : Option LogDirective :=
  match ps.dropWhile fun p => p.2 != ']' && p.2 != '\x7b' with
  | [] => none
  | (i, c) :: rest =>
    (Text.slice? start i whole).bind fun name =>
      if c = ']' then withLevel? { d with span := some name } whole rest
      else
        match rest.dropWhile fun p => p.2 != '\x7d' with
        | (j, _) :: (_, ']') :: rest =>
          ((Text.slice? (i + 1) j whole).bind LogField.ofText?).bind fun f =>
            withLevel? { d with span := if name = "" then none else some name, field := some f } whole rest
        | _ => none

/-- The directive of a text. Its parts are found without the white space around it, but cut out at the same
offsets of the whole text, so that white space in front moves them. -/
def ofText? (s : String) : Option LogDirective :=
  let whole := s.toList
  match Text.withOffsets 0 (Text.trimChars whole) with
  | [] => none
  | (i, '[') :: rest => withSpan? {} whole (i + 1) rest
  | (i, c) :: ps =>
    if !canStart c then none
    else
      match ps.dropWhile fun p => p.2 != '=' && p.2 != '[' with
      | [] => some ((LogLevel.ofText? s).elim { target := some s } fun l => { level := l })
      | (j, d) :: rest =>
        (Text.slice? i j whole).bind fun target =>
          if d = '[' then withSpan? { target := some target } whole (j + 1) rest
          else withLevel? { target := some target } whole ((j, d) :: rest)

/-- Whether a directive is about events wherever they happen and whatever values they hold. -/
def isForEvents (d : LogDirective) : Bool := d.span.isNone && d.field.all fun f => f.pattern.isNone

/-- Whether a directive is about an event of a target with some fields. -/
def covers (d : LogDirective) (target : String) (fields : List String) : Bool :=
  d.isForEvents && (d.target.all fun t => t.toList.isPrefixOf target.toList) &&
    d.field.all fun f => fields.contains f.name

/-- How much of a target a directive gives. -/
def closeness (d : LogDirective) : Nat := (d.target.map fun t => t.length + 1).getD 0

/-- Whether a directive goes before another one: it gives more of the target, or a field where the other gives
none. Of two with fields the later name goes first. -/
def precedes (d e : LogDirective) : Bool :=
  e.closeness < d.closeness || (e.closeness == d.closeness &&
    match d.field, e.field with
    | some f, some g => g.name < f.name
    | some _, none => true
    | none, _ => false)

end LogDirective

structure LogFilter where
  directives : List LogDirective
deriving DecidableEq, Repr

namespace LogFilter

/-- The filter without a valid setting. -/
def standard : LogFilter := ⟨[{ level := .info }]⟩

/-- The filter of an empty setting. -/
def errorsOnly : LogFilter := ⟨[{ level := .error }]⟩

/-- The filter of a text: directives between commas. -/
def ofText? (s : String) : Option LogFilter :=
  let parts := (s.splitOn ",").filter fun p => p ≠ ""
  (parts.mapM LogDirective.ofText?).map fun ds => if ds = [] then errorsOnly else ⟨ds⟩

def ofSetting : Option String → LogFilter
  | some s => (ofText? s).getD standard
  | none => standard

/-- The first of some directives in the order of precedence, the last one of those that are equal in it. -/
def foremost (ds : List LogDirective) : Option LogDirective :=
  ds.foldl (fun best d => if best.any fun b => b.precedes d then best else some d) none

/-- Whether events of a target and a level with some fields are shown. -/
def shows (f : LogFilter) (target : String) (fields : List String) (level : LogLevel) : Bool :=
  (foremost (f.directives.filter fun d => d.covers target fields)).any fun d => level.rank ≤ d.level.rank

end LogFilter

end JobLedger.Service
