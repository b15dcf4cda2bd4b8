import Chronicle.Json.Decode
import Chronicle.Time.Span

/-!
# Strategies and settings of conflict resolution
-/

namespace Chronicle

/-- What happens to a batch of events that meets a newer history. -/
inductive ConflictStrategy where
  | throw
  | discard
  | ignore
  | resolveStrongly
  | resolveWeakly
deriving DecidableEq, Inhabited, Repr

namespace ConflictStrategy

def name : ConflictStrategy → String
  | throw => "throw"
  | discard => "discard"
  | ignore => "ignore"
  | resolveStrongly => "resolve_strongly"
  | resolveWeakly => "resolve_weakly"

def all : List ConflictStrategy := [throw, discard, ignore, resolveStrongly, resolveWeakly]

def toJson (s : ConflictStrategy) : Json := .string s.name

def decode : Json.Decoder ConflictStrategy :=
  Json.Variant.choice (all.map fun s => .plain s.name s)

end ConflictStrategy

/-- A waiting time to the nanosecond. It is at most one millisecond longer than settings can say,
which hold milliseconds in 64 bits. -/
abbrev WaitingTime := { span : Span // span.millis ≤ 0xffffffffffffffff }

structure ConflictSettings where
  strategy : ConflictStrategy
  /-- A merge of more domain events than this freezes the stream. -/
  freezeThreshold : Nat
  /-- Staged batches are merged when the oldest has waited so many milliseconds. -/
  weakAgeMillis : Nat
  /-- A merge takes at most so many staged batches. -/
  weakPullMax : Option Nat
  /-- A freeze is stale after so many seconds. -/
  freezeTimeoutSeconds : Nat
  /-- The worker looks for due streams every so many milliseconds. -/
  workerPollMillis : Nat
deriving DecidableEq

namespace ConflictSettings

def standard : ConflictSettings where
  strategy := .throw
  freezeThreshold := 50
  weakAgeMillis := 30000
  weakPullMax := none
  freezeTimeoutSeconds := 60
  workerPollMillis := 1000

instance : Inhabited ConflictSettings := ⟨standard⟩

def weakAge (c : ConflictSettings) : Span := .ofMillis c.weakAgeMillis

def freezeTimeout (c : ConflictSettings) : Span := .ofSeconds c.freezeTimeoutSeconds

def workerPoll (c : ConflictSettings) : Span := .ofMillis c.workerPollMillis

/-- The whole milliseconds of a span, at most what 64 bits hold. -/
def boundedMillis (s : Span) : Nat := min s.millis 0xffffffffffffffff

def withStrategy (c : ConflictSettings) (s : ConflictStrategy) : ConflictSettings :=
  { c with strategy := s }

def withFreezeThreshold (c : ConflictSettings) (n : Nat) : ConflictSettings :=
  { c with freezeThreshold := n }

def withWeakAge (c : ConflictSettings) (s : Span) : ConflictSettings :=
  { c with weakAgeMillis := boundedMillis s }

def withWeakPullMax (c : ConflictSettings) (n : Option Nat) : ConflictSettings :=
  { c with weakPullMax := n }

def withFreezeTimeout (c : ConflictSettings) (s : Span) : ConflictSettings :=
  { c with freezeTimeoutSeconds := s.seconds }

def withWorkerPoll (c : ConflictSettings) (s : Span) : ConflictSettings :=
  { c with workerPollMillis := boundedMillis s }

def toJson (c : ConflictSettings) : Json :=
  .ofFields [("strategy", c.strategy.toJson), ("freeze_threshold", .int c.freezeThreshold),
    ("weak_age_threshold_ms", .int c.weakAgeMillis),
    ("weak_pull_max", match c.weakPullMax with
      | some n => .int n
      | none => .null),
    ("freeze_timeout_secs", .int c.freezeTimeoutSeconds),
    ("worker_poll_interval_ms", .int c.workerPollMillis)]

/-- Read settings from JSON; absent fields take their standard values. -/
def decode : Json.Decoder ConflictSettings :=
  Json.Fields.record "ConflictConfig" (ConflictSettings.mk <$>
    .field "strategy" ConflictStrategy.decode (.anywhere standard.strategy) <*>
    .field "freeze_threshold" .size (.anywhere standard.freezeThreshold) <*>
    .field "weak_age_threshold_ms" .u64 (.anywhere standard.weakAgeMillis) <*>
    .field "weak_pull_max" (.option .size) (.anywhere standard.weakPullMax) <*>
    .field "freeze_timeout_secs" .u64 (.anywhere standard.freezeTimeoutSeconds) <*>
    .field "worker_poll_interval_ms" .u64 (.anywhere standard.workerPollMillis))

end ConflictSettings

end Chronicle
