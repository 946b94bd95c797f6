import JobLedger.Table
/-!
# The data of a key-value server

Texts and lists of texts under keys, each with an optional time of expiry in milliseconds. A key is gone from
the moment of its expiry, or as much later as the server takes to let go of it. An operation on a value of the
wrong type fails and changes nothing.
-/
namespace JobLedger.Redis

inductive Content where
  | text (value : String)
  | list (items : List String)
deriving DecidableEq, Repr

/-- What a key holds, and until when. -/
structure Entry where
  content : Content
  expiry : Option Int
deriving DecidableEq, Repr

/-- Whether the expiry of an entry is still to come. -/
def Entry.isLive (now : Int) (e : Entry) : Bool := e.expiry.all fun t => now < t

/-- What a server may do beyond the least that is asked of it. -/
structure Leeway where
  /-- The milliseconds for which a key is there after its expiry. -/
  milliseconds : Nat := 0
  /-- The levels of nesting that a script reads in a text, beyond those of a record that can be read. -/
  levels : Nat := 0
deriving DecidableEq, Repr

/-- A server that goes by full milliseconds still has a key in the millisecond of its expiry, and its scripts read
a thousand levels. -/
def Leeway.usual : Leeway := { milliseconds := 1, levels := 873 }

structure Database where
  entries : Table String Entry
  leeway : Leeway := {}

/-- The least time that is too late for an expiry. -/
def endOfTime : Int := Nat.pow 2 63

/-- The time of an expiry in a number of seconds, if it can be kept. -/
def expiry? (now : Int) (seconds : Nat) : Option Int :=
  if now + seconds * 1000 < endOfTime then some (now + seconds * 1000) else none

/-- The part of a list between two positions, both included. Negative positions count from the end. -/
def slice {α : Type} (first last : Int) (xs : List α) : List α :=
  let first := if first < 0 then max 0 (first + xs.length) else first
  let last := if last < 0 then last + xs.length else last
  (xs.take (last + 1).toNat).drop first.toNat

namespace Database

def empty : Database := { entries := .empty }

/-- Whether a key with an entry is there at a time. -/
def serves (now : Int) (e : Entry) (d : Database) : Bool := e.isLive (now - d.leeway.milliseconds)

def entry? (now : Int) (key : String) (d : Database) : Option Entry :=
  (d.entries.get? key).filter fun e => d.serves now e

def put (key : String) (e : Entry) (d : Database) : Database := { d with entries := d.entries.insert key e }

def remove (key : String) (d : Database) : Database := { d with entries := d.entries.erase key }

/-- The text under a key, which must not be a list. -/
def text? (now : Int) (key : String) (d : Database) : Option (Option String) :=
  match (d.entry? now key).map Entry.content with
  | none => some none
  | some (.text s) => some (some s)
  | some (.list _) => none

/-- The texts under some keys, none where there is a list. -/
def texts (now : Int) (keys : List String) (d : Database) : List (Option String) :=
  keys.map fun k => (d.text? now k).join

/-- The list under a key, empty if there is nothing, which must not be a text. -/
def list? (now : Int) (key : String) (d : Database) : Option (List String) :=
  match (d.entry? now key).map Entry.content with
  | none => some []
  | some (.list xs) => some xs
  | some (.text _) => none

/-- A text put under a key for a number of seconds, if the expiry can be kept. -/
def setFor? (now : Int) (key value : String) (seconds : Nat) (d : Database) : Option Database :=
  (expiry? now seconds).map fun t => d.put key ⟨.text value, some t⟩

/-- A text put under a key that has no expiry from then on. -/
def set (key value : String) (d : Database) : Database := d.put key ⟨.text value, none⟩

/-- A text put in front of a list. The expiry of the list stays. -/
def push? (now : Int) (key item : String) (d : Database) : Option Database :=
  (d.list? now key).map fun xs =>
    d.put key ⟨.list (item :: xs), (d.entry? now key).bind Entry.expiry⟩

/-- A list cut to the part between two positions. An empty list is no longer there. -/
def trim? (now : Int) (key : String) (first last : Int) (d : Database) : Option Database :=
  (d.list? now key).map fun xs =>
    match slice first last xs with
    | [] => d.remove key
    | ys => d.put key ⟨.list ys, (d.entry? now key).bind Entry.expiry⟩

/-- A key given a number of seconds to live, if the expiry can be kept. A key that is not there stays so. -/
def expire? (now : Int) (key : String) (seconds : Nat) (d : Database) : Option Database :=
  (expiry? now seconds).map fun t =>
    match d.entry? now key with
    | some e => d.put key { e with expiry := some t }
    | none => d

def live (now : Int) (d : Database) : List (String × Entry) :=
  d.entries.entries.filter fun e => d.serves now e.2

end Database

end JobLedger.Redis
