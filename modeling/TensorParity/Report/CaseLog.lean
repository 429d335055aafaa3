import TensorParity.Digest.Fnv
import TensorParity.Json.Decode
import TensorParity.Json.Basic
import TensorParity.Text.CharClass

/-!
The log entry of one case. The envelope fields are fixed; everything else is an extra field, written
after them in the order of its key. An extra field never shadows the envelope.
-/
namespace TensorParity

open Json

structure CaseLog where
  schemaVersion : String
  timestampMillis : Nat
  suite : String
  scenario : String
  caseName : String
  family : String
  backend : String
  seed : Nat
  environment : String
  artifactRefs : List String
  replayCommand : String
  durationMillis : Nat
  outcome : String
  reasonCode : String
  extra : Table Json

namespace CaseLog

def currentSchema : String := "cp-conformance-log-v1"

/-- Keys that no extra field may have. -/
def envelopeKeys : List String := [
  "schema_version", "ts_unix_ms", "suite_id", "scenario_id", "case_name", "family", "backend",
  "seed", "env_fingerprint", "artifact_refs", "replay_command", "duration_ms", "outcome",
  "reason_code", "extra_fields"]

/-- What identifies the environment of a run: package, version, system and processor. -/
def environmentText : String := "cp-conformance|0.1.0|linux|x86_64"

def environmentLabel : String := Fnv.label (Fnv.bytes environmentText.toUTF8.toList)

def outcomeLabel (passed : Bool) : String := if passed then "pass" else "fail"

/-- A scenario of a suite on a back end. -/
def scenarioId (suite backend caseName : String) : String :=
  suite ++ "/" ++ backend ++ ":" ++ Text.caseName caseName

/-- An entry without extra fields. Times are filled in by whoever measures them. -/
def make (suite caseName family backend : String) (seed : Nat) (artifactRefs : List String)
    (replayCommand : String) (passed : Bool) (reasonCode : String) : CaseLog where
  schemaVersion := currentSchema
  timestampMillis := 0
  suite
  scenario := scenarioId suite backend caseName
  caseName
  family
  backend
  seed
  environment := environmentLabel
  artifactRefs
  replayCommand
  durationMillis := 0
  outcome := outcomeLabel passed
  reasonCode
  extra := .empty

/-- Adds how long the case took. -/
def withDuration (log : CaseLog) (millis : UInt64) : CaseLog :=
  { log with durationMillis := millis.toNat }

/-- Adds extra fields, except those with a key of the envelope. -/
def withExtra (log : CaseLog) (fields : List (String × Json)) : CaseLog :=
  { log with
    extra := fields.foldl (fun t (key, value) =>
      if key ∈ envelopeKeys then t else t.insert key value.sorted) log.extra }

def passed (log : CaseLog) : Bool := log.outcome = outcomeLabel true

def toJson (log : CaseLog) : Json :=
  .record ([
    ("schema_version", .string log.schemaVersion),
    ("ts_unix_ms", .ofNat log.timestampMillis),
    ("suite_id", .string log.suite),
    ("scenario_id", .string log.scenario),
    ("case_name", .string log.caseName),
    ("family", .string log.family),
    ("backend", .string log.backend),
    ("seed", .ofNat log.seed),
    ("env_fingerprint", .string log.environment),
    ("artifact_refs", .array (log.artifactRefs.map .string)),
    ("replay_command", .string log.replayCommand),
    ("duration_ms", .ofNat log.durationMillis),
    ("outcome", .string log.outcome),
    ("reason_code", .string log.reasonCode)] ++ log.extra.entries)

/-- The fields read so far. -/
structure Slots where
  schemaVersion : Option String := none
  timestampMillis : Option Nat := none
  suite : Option String := none
  scenario : Option String := none
  caseName : Option String := none
  family : Option String := none
  backend : Option String := none
  seed : Option Nat := none
  environment : Option String := none
  artifactRefs : Option (List String) := none
  replayCommand : Option String := none
  durationMillis : Option Nat := none
  outcome : Option String := none
  reasonCode : Option String := none
  extra : Table Json := .empty

/-- A key outside the envelope is an extra field; of several with one key the last counts. -/
def Slots.field (s : Slots) (name : String) (value : Json) : Decoded Slots :=
  match name with
  | "schema_version" =>
    return { s with schemaVersion := ← fill name s.schemaVersion asString value }
  | "ts_unix_ms" =>
    return { s with timestampMillis := ← fill name s.timestampMillis asWord value }
  | "suite_id" => return { s with suite := ← fill name s.suite asString value }
  | "scenario_id" => return { s with scenario := ← fill name s.scenario asString value }
  | "case_name" => return { s with caseName := ← fill name s.caseName asString value }
  | "family" => return { s with family := ← fill name s.family asString value }
  | "backend" => return { s with backend := ← fill name s.backend asString value }
  | "seed" => return { s with seed := ← fill name s.seed asWord value }
  | "env_fingerprint" =>
    return { s with environment := ← fill name s.environment asString value }
  | "artifact_refs" =>
    return { s with artifactRefs := ← fill name s.artifactRefs (asList asString) value }
  | "replay_command" =>
    return { s with replayCommand := ← fill name s.replayCommand asString value }
  | "duration_ms" => return { s with durationMillis := ← fill name s.durationMillis asWord value }
  | "outcome" => return { s with outcome := ← fill name s.outcome asString value }
  | "reason_code" => return { s with reasonCode := ← fill name s.reasonCode asString value }
  | _ =>
    if value.wellFormed then return { s with extra := s.extra.insert name value.sorted }
    else throw .malformed

def ofJson : Json → Decoded CaseLog
  | .object fields closed => do
    let s ← walkFields Slots.field {} fields closed
    let schemaVersion ← required "schema_version" s.schemaVersion
    let timestampMillis ← required "ts_unix_ms" s.timestampMillis
    let suite ← required "suite_id" s.suite
    let scenario ← required "scenario_id" s.scenario
    let caseName ← required "case_name" s.caseName
    let family ← required "family" s.family
    let backend ← required "backend" s.backend
    let seed ← required "seed" s.seed
    let environment ← required "env_fingerprint" s.environment
    let artifactRefs ← required "artifact_refs" s.artifactRefs
    let replayCommand ← required "replay_command" s.replayCommand
    let durationMillis ← required "duration_ms" s.durationMillis
    let outcome ← required "outcome" s.outcome
    let reasonCode ← required "reason_code" s.reasonCode
    return {
      schemaVersion, timestampMillis, suite, scenario, caseName, family, backend, seed
      environment, artifactRefs, replayCommand, durationMillis, outcome, reasonCode
      extra := s.extra }
  | j => wrongType j

end CaseLog

end TensorParity
