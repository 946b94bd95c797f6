import JobLedger.Proofs.TrimmedText
import JobLedger.Service.Config

/-!
# What settings decide

A configuration is told by the variables that concern it: those of backends that are not chosen make no difference,
neither to a configuration nor to an error. What each setting must be for there to be a configuration is said by
relations beside the functions that read it, and a configuration is read exactly if they hold. In every other case
there is an error of configuration.
-/
namespace JobLedger

namespace Text

private theorem sameAsciiCase_iff {s t : String} (ht : t.toList.map Char.toLower = t.toList) :
    sameAsciiCase s t = true ↔ s.map Char.toLower = t := by
  rw [sameAsciiCase, beq_iff_eq, ht, ← String.toList_map, String.toList_inj]

end Text

namespace Decimal

/-- A text is decimal digits, with a plus sign in front or without, that stand for a number. -/
def Spells (s : String) (n : Nat) : Prop :=
  ∃ ds : List Char, ds ≠ [] ∧ (∀ c ∈ ds, c.isDigit = true) ∧ (s.toList = ds ∨ s.toList = '+' :: ds) ∧ value ds = n

private theorem numeral?_of_plus {bound : Nat} {s : String} {ds : List Char} (h : s.toList = '+' :: ds) :
    numeral? bound s = if ds ≠ [] ∧ ds.all Char.isDigit ∧ value ds < bound then some (value ds) else none := by
  simp only [numeral?, h]

private theorem numeral?_of_no_plus {bound : Nat} {s : String} (h : ∀ ds, s.toList ≠ '+' :: ds) :
    numeral? bound s = if s.toList ≠ [] ∧ s.toList.all Char.isDigit ∧ value s.toList < bound
      then some (value s.toList) else none := by
  unfold numeral?
  dsimp only
  split
  · exact absurd ‹_› (h _)
  · rfl

private theorem numeral?_eq_some_iff {bound n : Nat} {s : String} :
    numeral? bound s = some n ↔ Spells s n ∧ n < bound := by
  have hdigits (ds : List Char) :
      (if ds ≠ [] ∧ ds.all Char.isDigit ∧ value ds < bound then some (value ds) else none) = some n ↔
        ds ≠ [] ∧ (∀ c ∈ ds, c.isDigit = true) ∧ value ds = n ∧ n < bound := by
    simp only [List.all_eq_true]
    grind
  by_cases hplus : ∃ ds, s.toList = '+' :: ds
  · obtain ⟨ds, hs⟩ := hplus
    rw [numeral?_of_plus hs, hdigits]
    constructor
    · rintro ⟨hne, hall, hvalue, hlt⟩
      exact ⟨⟨ds, hne, hall, .inr hs, hvalue⟩, hlt⟩
    · rintro ⟨⟨ds', hne, hall, hs' | hs', hvalue⟩, hlt⟩
      · have hdigit : ('+' : Char).isDigit = true := hall _ (by rw [← hs', hs]; exact List.mem_cons_self)
        exact absurd hdigit (by decide)
      · obtain rfl := (List.cons.inj (hs.symm.trans hs')).2
        exact ⟨hne, hall, hvalue, hlt⟩
  · have hno : ∀ ds, s.toList ≠ '+' :: ds := not_exists.mp hplus
    rw [numeral?_of_no_plus hno, hdigits]
    constructor
    · rintro ⟨hne, hall, hvalue, hlt⟩
      exact ⟨⟨s.toList, hne, hall, .inl rfl, hvalue⟩, hlt⟩
    · rintro ⟨⟨ds, hne, hall, hs | hs, hvalue⟩, hlt⟩
      · exact hs ▸ ⟨hne, hall, hvalue, hlt⟩
      · exact absurd hs (hno ds)

end Decimal

namespace Service

/-- Where the server of a backend is. -/
def Backend.url? : Backend → Option String
  | .memory => none
  | .postgres url _ => some url
  | .redis url _ _ _ => some url

namespace Config

variable {build : Build} {generated : InstanceId} {lookup : String → Option String} {bound default n : Nat}
  {key : String}

private theorem setting_eq_some {s : String} (h : setting lookup key = some s) : Text.IsTrimmed s ∧ s ≠ "" := by
  obtain ⟨hs, hne⟩ := Option.filter_eq_some_iff.mp h
  obtain ⟨raw, -, rfl⟩ := Option.map_eq_some_iff.mp hs
  exact ⟨Text.isTrimmed_trim raw, by simpa using hne⟩

/-- The number that a variable sets: its default if it is unset, else the one that it spells, if that is in range. -/
inductive IsNumber (lookup : String → Option String) (bound : Nat) (key : String) (default : Nat) : Nat → Prop where
  | unset (h : setting lookup key = none) : IsNumber lookup bound key default default
  | spelled {s : String} {n : Nat} (h : setting lookup key = some s) (hs : Decimal.Spells s n) (hn : n < bound) :
    IsNumber lookup bound key default n

/-- The variables choose the backend of a name, in any letter case. -/
def Selects (lookup : String → Option String) (name : String) : Prop :=
  ∃ s, setting lookup "LONGRUN_STORE" = some s ∧ Text.sameAsciiCase s name = true

/-- The backend that the variables choose and set. -/
inductive IsBackend (build : Build) (lookup : String → Option String) : Backend → Prop where
  | unset (h : setting lookup "LONGRUN_STORE" = none) : IsBackend build lookup .memory
  | memory (h : Selects lookup "memory") : IsBackend build lookup .memory
  | postgres {url : String} {n : Nat} (h : Selects lookup "postgres") (hurl : setting lookup "DATABASE_URL" = some url)
    (hn : IsNumber lookup UInt32.size "LONGRUN_DB_MAX_CONNECTIONS" 10 n) : IsBackend build lookup (.postgres url n)
  | redis {url : String} {active terminal : Nat} (h : Selects lookup "redis") (hbuild : build.hasRedis = true)
    (hurl : setting lookup "REDIS_URL" = some url)
    (hactive : IsNumber lookup UInt64.size "LONGRUN_REDIS_ACTIVE_TTL_SECS" 172800 active)
    (hterminal : IsNumber lookup UInt64.size "LONGRUN_REDIS_TERMINAL_TTL_SECS" 604800 terminal) :
    IsBackend build lookup (.redis url ((setting lookup "LONGRUN_REDIS_PREFIX").getD "longrun:jobs")
      (.ofSeconds active) (.ofSeconds terminal))

/-- The configuration that the variables set, under a generated identifier unless one is set. -/
structure IsSet (build : Build) (generated : InstanceId) (lookup : String → Option String) (c : Config) : Prop where
  backend : IsBackend build lookup c.backend
  instanceId : c.instanceId = ((setting lookup "LONGRUN_INSTANCE_ID").map InstanceId.mk).getD generated
  sweepInterval : ∃ n, IsNumber lookup UInt64.size "LONGRUN_SWEEP_INTERVAL_SECS" 30 n ∧ 1 ≤ n ∧
    c.sweepInterval = .ofSeconds n
  pollInterval : ∃ n, IsNumber lookup UInt64.size "LONGRUN_POLL_INTERVAL_SECS" 5 n ∧ c.pollInterval = .ofSeconds n

/-! ### What is read is what is set -/

private theorem numberOr_eq_ok_iff :
    numberOr lookup bound key default = .ok n ↔ IsNumber lookup bound key default n := by
  unfold numberOr
  constructor
  · intro h
    split at h
    · cases h
      exact .unset ‹_›
    · split at h
      · cases h
        obtain ⟨hs, hlt⟩ := Decimal.numeral?_eq_some_iff.mp ‹_›
        exact .spelled ‹_› hs hlt
      · cases h
  · intro h
    cases h with
    | unset h => rw [h]
    | spelled h hs hn => simp only [h, Decimal.numeral?_eq_some_iff.mpr ⟨hs, hn⟩]

private theorem secondsOr_eq_ok_iff {d : Span} : secondsOr lookup key default = .ok d ↔
    ∃ n, IsNumber lookup UInt64.size key default n ∧ d = .ofSeconds n := by
  simp only [secondsOr, ← numberOr_eq_ok_iff]
  cases numberOr lookup UInt64.size key default <;> simp [Except.map, eq_comm]

private theorem needed_eq_ok_iff {store s : String} :
    needed lookup key store = .ok s ↔ setting lookup key = some s := by
  unfold needed
  split <;> simp [*]

private theorem bind_eq_ok_iff {ε α β : Type} {x : Except ε α} {f : α → Except ε β} {b : β} :
    x >>= f = .ok b ↔ ∃ a, x = .ok a ∧ f a = .ok b := by
  cases x <;> simp [bind, Except.bind]

/-- The store that is chosen, in lower case. -/
private theorem selects_iff {name : String} (hname : name.toList.map Char.toLower = name.toList) :
    Selects lookup name ↔ ((setting lookup "LONGRUN_STORE").map fun s => s.map Char.toLower) = some name := by
  simp only [Selects, Text.sameAsciiCase_iff hname, Option.map_eq_some_iff]

private theorem readBackend_eq_ok_iff {b : Backend} : readBackend build lookup = .ok b ↔ IsBackend build lookup b := by
  constructor
  · intro h
    unfold readBackend at h
    split at h
    case h_1 hstore =>
      cases h
      exact .unset (Option.map_eq_none_iff.mp hstore)
    case h_2 hstore =>
      cases h
      exact .memory ((selects_iff rfl).mpr hstore)
    case h_3 hstore =>
      obtain ⟨url, hurl, h⟩ := bind_eq_ok_iff.mp h
      obtain ⟨n, hn, h⟩ := bind_eq_ok_iff.mp h
      cases h
      exact .postgres ((selects_iff rfl).mpr hstore) (needed_eq_ok_iff.mp hurl) (numberOr_eq_ok_iff.mp hn)
    case h_4 hstore =>
      split at h
      case isTrue => cases h
      case isFalse hbuild =>
        obtain ⟨url, hurl, h⟩ := bind_eq_ok_iff.mp h
        obtain ⟨active, hactive, h⟩ := bind_eq_ok_iff.mp h
        obtain ⟨terminal, hterminal, h⟩ := bind_eq_ok_iff.mp h
        obtain ⟨a, ha, rfl⟩ := secondsOr_eq_ok_iff.mp hactive
        obtain ⟨t, ht, rfl⟩ := secondsOr_eq_ok_iff.mp hterminal
        cases h
        exact .redis ((selects_iff rfl).mpr hstore) (by simpa using hbuild) (needed_eq_ok_iff.mp hurl) ha ht
    case h_5 => cases h
  · intro h
    unfold readBackend
    cases h with
    | unset h => rw [h]; rfl
    | memory h => rw [(selects_iff rfl).mp h]; rfl
    | postgres h hurl hn =>
      rw [(selects_iff rfl).mp h]
      simp only [needed_eq_ok_iff.mpr hurl, numberOr_eq_ok_iff.mpr hn]
      rfl
    | redis h hbuild hurl hactive hterminal =>
      rw [(selects_iff rfl).mp h]
      simp only [hbuild, needed_eq_ok_iff.mpr hurl, secondsOr_eq_ok_iff.mpr ⟨_, hactive, rfl⟩,
        secondsOr_eq_ok_iff.mpr ⟨_, hterminal, rfl⟩]
      rfl

private theorem read_eq_ok_iff {c : Config} :
    Config.read build generated lookup = .ok c ↔ IsSet build generated lookup c := by
  rw [Config.read, Sweep.seconds_defaultInterval, Manager.seconds_defaultPollInterval]
  constructor
  · intro h
    obtain ⟨backend, hbackend, h⟩ := bind_eq_ok_iff.mp h
    obtain ⟨sweep, hsweep, h⟩ := bind_eq_ok_iff.mp h
    split at h
    · cases h
    · rename_i hpos
      obtain ⟨poll, hpoll, h⟩ := bind_eq_ok_iff.mp h
      cases h
      obtain ⟨n, hn, rfl⟩ := secondsOr_eq_ok_iff.mp hsweep
      have hpos : 1 ≤ n := by
        simp only [Span.ofSeconds] at hpos
        omega
      exact ⟨readBackend_eq_ok_iff.mp hbackend, rfl, ⟨n, hn, hpos, rfl⟩, secondsOr_eq_ok_iff.mp hpoll⟩
  · rintro ⟨hbackend, hid, ⟨n, hn, hpos, hsweep⟩, hpoll⟩
    have hne : ¬(Span.ofSeconds n).milliseconds = 0 := by
      simp only [Span.ofSeconds]
      omega
    obtain ⟨backend, instanceId, sweep, poll⟩ := c
    dsimp only at hbackend hid hsweep hpoll
    subst hid hsweep
    simp only [readBackend_eq_ok_iff.mpr hbackend, secondsOr_eq_ok_iff.mpr ⟨n, hn, rfl⟩, secondsOr_eq_ok_iff.mpr hpoll]
    simp [bind, Except.bind, hne, pure, Except.pure]

/-! ### Variables that make no difference -/

def commonKeys : List String :=
  ["LONGRUN_STORE", "LONGRUN_INSTANCE_ID", "LONGRUN_SWEEP_INTERVAL_SECS", "LONGRUN_POLL_INTERVAL_SECS"]

def postgresKeys : List String := ["DATABASE_URL", "LONGRUN_DB_MAX_CONNECTIONS"]

def redisKeys : List String :=
  ["REDIS_URL", "LONGRUN_REDIS_PREFIX", "LONGRUN_REDIS_ACTIVE_TTL_SECS", "LONGRUN_REDIS_TERMINAL_TTL_SECS"]

/-- Variables are the same without white space around them, where a blank one is unset. -/
def AgreeOn (keys : List String) (lookup lookup' : String → Option String) : Prop :=
  ∀ key ∈ keys, setting lookup key = setting lookup' key

/-- Variables are the same that concern every configuration or the backend that is chosen. -/
structure Agree (lookup lookup' : String → Option String) : Prop where
  common : AgreeOn commonKeys lookup lookup'
  postgres : Selects lookup "postgres" → AgreeOn postgresKeys lookup lookup'
  redis : Selects lookup "redis" → AgreeOn redisKeys lookup lookup'

section
variable {lookup' : String → Option String}

private theorem numberOr_congr (h : setting lookup key = setting lookup' key) (bound default : Nat) :
    numberOr lookup bound key default = numberOr lookup' bound key default := by
  rw [numberOr, numberOr, h]

private theorem secondsOr_congr (h : setting lookup key = setting lookup' key) (default : Nat) :
    secondsOr lookup key default = secondsOr lookup' key default := by
  rw [secondsOr, secondsOr, numberOr_congr h]

private theorem needed_congr (h : setting lookup key = setting lookup' key) (store : String) :
    needed lookup key store = needed lookup' key store := by
  rw [needed, needed, h]

private theorem Agree.readBackend_eq (h : Agree lookup lookup') :
    readBackend build lookup = readBackend build lookup' := by
  unfold readBackend
  rw [← h.common "LONGRUN_STORE" (by simp [commonKeys])]
  split
  case h_3 hstore =>
    have hkeys := h.postgres ((selects_iff rfl).mpr hstore)
    rw [needed_congr (hkeys "DATABASE_URL" (by simp [postgresKeys])),
      numberOr_congr (hkeys "LONGRUN_DB_MAX_CONNECTIONS" (by simp [postgresKeys]))]
  case h_4 hstore =>
    have hkeys := h.redis ((selects_iff rfl).mpr hstore)
    rw [needed_congr (hkeys "REDIS_URL" (by simp [redisKeys])),
      secondsOr_congr (hkeys "LONGRUN_REDIS_ACTIVE_TTL_SECS" (by simp [redisKeys])),
      secondsOr_congr (hkeys "LONGRUN_REDIS_TERMINAL_TTL_SECS" (by simp [redisKeys])),
      hkeys "LONGRUN_REDIS_PREFIX" (by simp [redisKeys])]
  all_goals rfl

theorem Agree.read_eq (h : Agree lookup lookup') (generated : InstanceId) :
    Config.read build generated lookup = Config.read build generated lookup' := by
  rw [Config.read, Config.read, h.readBackend_eq,
    secondsOr_congr (h.common "LONGRUN_SWEEP_INTERVAL_SECS" (by simp [commonKeys])),
    secondsOr_congr (h.common "LONGRUN_POLL_INTERVAL_SECS" (by simp [commonKeys])),
    h.common "LONGRUN_INSTANCE_ID" (by simp [commonKeys])]

end

/-- Another generated identifier makes a difference where it is used. -/
private theorem read_generated (generated generated' : InstanceId) : Config.read build generated' lookup =
    (Config.read build generated lookup).map fun c =>
      { c with instanceId := ((setting lookup "LONGRUN_INSTANCE_ID").map InstanceId.mk).getD generated' } := by
  rw [Config.read, Config.read, Sweep.seconds_defaultInterval, Manager.seconds_defaultPollInterval]
  cases readBackend build lookup with
  | error e => rfl
  | ok backend =>
    cases secondsOr lookup "LONGRUN_SWEEP_INTERVAL_SECS" 30 with
    | error e => rfl
    | ok sweep =>
      simp only [bind, Except.bind]
      split
      · rfl
      · cases secondsOr lookup "LONGRUN_POLL_INTERVAL_SECS" 5 <;> rfl

private theorem Agree.ofLookup_eq {lookup' : String → Option String} (h : Agree lookup lookup')
    (generated' : InstanceId) :
    ofLookup build generated' lookup' = (ofLookup build generated lookup).map fun c =>
      { c with instanceId := ((setting lookup "LONGRUN_INSTANCE_ID").map InstanceId.mk).getD generated' } := by
  rw [ofLookup, ofLookup, ← h.read_eq, read_generated generated generated']
  cases Config.read build generated lookup <;> rfl

private theorem ofLookup_eq_ok_iff {c : Config} :
    ofLookup build generated lookup = .ok c ↔ IsSet build generated lookup c := by
  rw [← read_eq_ok_iff, ofLookup]
  cases Config.read build generated lookup <;> simp [Except.mapError]

private theorem IsBackend.url_isTrimmed {b : Backend} (h : IsBackend build lookup b) :
    ∀ url ∈ b.url?, Text.IsTrimmed url ∧ url ≠ "" := by
  rintro url hurl
  cases h with
  | unset | memory => cases hurl
  | postgres _ hset | redis _ _ hset =>
    cases hurl
    exact setting_eq_some hset

private theorem IsSet.one_le_sweepInterval {c : Config} (h : IsSet build generated lookup c) :
    1000 ≤ c.sweepInterval.milliseconds := by
  obtain ⟨n, -, hpos, hn⟩ := h.sweepInterval
  rw [hn]
  show 1000 ≤ n * 1000
  omega

/-- Variables of backends that are not chosen decide nothing. There is a configuration exactly if every variable that
concerns it sets what it must, and then it is the one that they set: in every other case there is an error. -/
theorem relevant_variables_decide (build : Build) :
    (∀ (lookup lookup' : String → Option String) (generated generated' : InstanceId), Agree lookup lookup' →
      ofLookup build generated' lookup' = (ofLookup build generated lookup).map fun c =>
        { c with instanceId := ((setting lookup "LONGRUN_INSTANCE_ID").map InstanceId.mk).getD generated' }) ∧
    ∀ (lookup : String → Option String) (generated : InstanceId),
      (∀ c, ofLookup build generated lookup = .ok c ↔ IsSet build generated lookup c) ∧
      (∀ c, IsSet build generated lookup c → 1000 ≤ c.sweepInterval.milliseconds ∧
        ∀ url ∈ c.backend.url?, Text.IsTrimmed url ∧ url ≠ "") ∧
      ((∀ c, ¬IsSet build generated lookup c) →
        ∃ cause, ofLookup build generated lookup = .error (.configuration cause)) := by
  refine ⟨fun lookup lookup' generated generated' h => h.ofLookup_eq generated', fun lookup generated => ⟨?_, ?_, ?_⟩⟩
  · intro c
    exact ofLookup_eq_ok_iff
  · intro c hc
    exact ⟨hc.one_le_sweepInterval, hc.backend.url_isTrimmed⟩
  · intro hnone
    cases h : Config.read build generated lookup with
    | error cause => exact ⟨cause, by rw [ofLookup, h]; rfl⟩
    | ok c => exact absurd (read_eq_ok_iff.mp h) (hnone c)

/-- Variables that choose a database, with a number of seconds for another store. -/
def sampleVariables (seconds : Option String) : String → Option String
  | "LONGRUN_STORE" => some " Postgres\t"
  | "DATABASE_URL" => some "postgres://localhost/jobs"
  | "LONGRUN_SWEEP_INTERVAL_SECS" => some "+015"
  | "LONGRUN_REDIS_ACTIVE_TTL_SECS" => seconds
  | _ => none

/-- Variables that ask for sweeps without a pause. -/
def restless (key : String) : Option String := if key = "LONGRUN_SWEEP_INTERVAL_SECS" then some "0" else none

private theorem spells_fifteen : Decimal.Spells "+015" 15 :=
  ⟨['0', '1', '5'], by simp, by simp, .inr rfl, rfl⟩

private theorem sampleVariables_isSet : IsSet ⟨true⟩ ⟨"a"⟩ (sampleVariables none)
    ⟨.postgres "postgres://localhost/jobs" 10, ⟨"a"⟩, .ofSeconds 15, .ofSeconds 5⟩ where
  backend := .postgres ⟨"Postgres", by decide, by decide⟩ (by decide) (.unset (by decide))
  instanceId := by decide
  sweepInterval := ⟨15, .spelled (by decide) spells_fifteen (by decide), by decide, rfl⟩
  pollInterval := ⟨5, .unset (by decide), rfl⟩

/-- A number for another store may be anything, one for the sweep interval may not. -/
theorem other_store_does_not_matter :
    (Agree (sampleVariables none) (sampleVariables (some "soon")) ∧
      ofLookup ⟨true⟩ ⟨"b"⟩ (sampleVariables (some "soon")) =
        .ok ⟨.postgres "postgres://localhost/jobs" 10, ⟨"b"⟩, .ofSeconds 15, .ofSeconds 5⟩) ∧
    (∀ c, ¬IsSet ⟨true⟩ ⟨"a"⟩ restless c) ∧
    ∃ cause, ofLookup ⟨true⟩ ⟨"a"⟩ restless = .error (.configuration cause) := by
  obtain ⟨hindependent, hread⟩ := relevant_variables_decide ⟨true⟩
  have hagree : Agree (sampleVariables none) (sampleVariables (some "soon")) := by
    refine ⟨by unfold AgreeOn; decide, fun _ => by unfold AgreeOn; decide, ?_⟩
    rintro ⟨s, hs, hcase⟩
    obtain rfl : "Postgres" = s := Option.some.inj hs
    exact absurd hcase (by decide)
  have hzero : ∀ c, ¬IsSet ⟨true⟩ ⟨"a"⟩ restless c := by
    intro c hc
    obtain ⟨n, hn, hpos, -⟩ := hc.sweepInterval
    obtain rfl : 0 = n := Except.ok.inj (numberOr_eq_ok_iff.mpr hn)
    exact absurd hpos (by decide)
  refine ⟨⟨hagree, ?_⟩, hzero, (hread _ _).2.2 hzero⟩
  rw [hindependent _ _ ⟨"a"⟩ ⟨"b"⟩ hagree, ((hread _ _).1 _).mpr sampleVariables_isSet]
  rfl

end Config

end Service

end JobLedger
