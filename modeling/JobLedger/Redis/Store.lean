import JobLedger.Job.Codec
import JobLedger.Redis.Server
import JobLedger.Store.Call
/-!
# Records on a key-value server

Each record is a JSON text under a key of its own, with a time to live that every write renews. An index, a
list of identifiers with the newest first and of limited length, tells which records are listed and swept.
-/
namespace JobLedger.Redis

structure Settings where
  keyPrefix : String := "longrun:jobs"
  indexCap : UInt64 := 1000
  activeTtl : Span := .ofSeconds 172800
  terminalTtl : Span := .ofSeconds 604800
deriving DecidableEq, Repr

namespace Settings

def recordKey (s : Settings) (id : String) : String := s.keyPrefix ++ ":job:" ++ id

def indexKey (s : Settings) : String := s.keyPrefix ++ ":index"

/-- Whole seconds to live, at least one. -/
def seconds (ttl : Span) : Nat := max ttl.seconds 1

/-- The seconds that a record in a state lives. -/
def secondsFor (s : Settings) (state : JobState) : Nat :=
  seconds (if state.isTerminal then s.terminalTtl else s.activeTtl)

/-- The last position of the index that is kept. -/
def lastPosition (s : Settings) : Int64 := (max s.indexCap 1).toInt64 - 1

def debugText (s : Settings) : String :=
  "RedisStatusStore \x7b settings: RedisStoreSettings \x7b key_prefix: " ++ Text.quoted s.keyPrefix ++
    ", index_cap: " ++ Decimal.text s.indexCap.toNat ++ ", active_ttl: " ++ s.activeTtl.text ++
    ", terminal_ttl: " ++ s.terminalTtl.text ++ " \x7d, .. \x7d"

end Settings

/-- A conversation with the server. -/
abbrev Exchange (α : Type) : Type := Dialogue Command.interface α

namespace Exchange

def send (c : Command) : Exchange c.Answer := Dialogue.question (I := Command.interface) c

def decode (value : String) : Except StoreError JobRecord :=
  match JobRecord.decode? value with
  | some r => .ok r
  | none => .error (.serialization .document)

/-- Keep a new record, then put its identifier into the index. -/
def create (s : Settings) (r : JobRecord) : Exchange (Except StoreError JobRecord) := do
  match ← send (.setNew (s.recordKey r.id.text) r.encode (s.secondsFor r.state)) with
  | .error e => return .error (.unavailable e)
  | .ok false => return .error (.duplicateId r.id)
  | .ok true =>
    match ← send (.enlist s.indexKey r.id.text s.lastPosition (Settings.seconds s.terminalTtl)) with
    | .error e => return .error (.unavailable e)
    | .ok () => return .ok r

def get (s : Settings) (id : JobId) : Exchange (Except StoreError (Option JobRecord)) := do
  match ← send (.get (s.recordKey id.text)) with
  | .error e => return .error (.unavailable e)
  | .ok none => return .ok none
  | .ok (some value) => return (decode value).map some

/-- What the answer of the conditional replacement means. -/
def replaced (r : JobRecord) (word : String) : Except StoreError JobRecord :=
  if word = "OK" then .ok r
  else if word = "" then .error (.notFound r.id)
  else
    match JobState.spelled? word with
    | some state => .error (.alreadyTerminal r.id state)
    | none => .error (.serialization (.storedState word))

def update (s : Settings) (now : Instant) (r : JobRecord) : Exchange (Except StoreError JobRecord) := do
  let next := { r with lastUpdatedAt := now }
  match ← send (.replaceOpen (s.recordKey r.id.text) next.encode (s.secondsFor next.state)) with
  | .error e => return .error (.unavailable e)
  | .ok word => return replaced next word

/-- The records in the index that are still there. -/
def indexed (s : Settings) : Exchange (Except StoreError (List JobRecord)) := do
  match ← send (.range s.indexKey) with
  | .error e => return .error (.unavailable e)
  | .ok [] => return .ok []
  | .ok ids =>
    match ← send (.getMany (ids.map s.recordKey)) with
    | .error e => return .error (.unavailable e)
    | .ok values => return (values.filterMap fun v => v).mapM decode

/-- What a call of the store does on the server. -/
def ofCall (s : Settings) (now : Instant) : (c : StoreCall) → Exchange c.Answer
  | .create r => create s r
  | .get id => get s id
  | .update r => update s now r
  | .findExpired t => do return (← indexed s).map fun rs => rs.filter fun r => r.isExpired t
  | .list q => do return (← indexed s).map q.select

end Exchange

def store (s : Settings) : StatusStore Server where
  perform now c server := (Exchange.ofCall s now c).run (Server.answer now.millis) server

end JobLedger.Redis
