import TableTail.Json.Value
import TableTail.Settings.Basic

/-!
# Settings as documents

Reading a configuration from a document. A structure is an object without unknown fields, or an
array of its fields in their order; a field that may be absent may be missing from either, and only
those without a value by default may be null.
-/

namespace TableTail

namespace Decoding

/-- The fields of a structure with the given field names. -/
def fields? (names : List String) : Json → Option (Named Json)
  | .object fields => if fields.all fun f => names.contains f.1 then some fields else none
  | .array items =>
    if items.length ≤ names.length then some (Named.ofPairs (names.zip items)) else none
  | _ => none

/-- A text. -/
def text? : Json → Option String
  | .string s => some s
  | _ => none

/-- A truth value. -/
def flag? : Json → Option Bool
  | .bool b => some b
  | _ => none

/-- A natural number below a bound. -/
def nat? (bound : Nat) : Json → Option Nat
  | .number (.int i) => if 0 ≤ i ∧ i < bound then some i.toNat else none
  | _ => none

/-- A list of texts. -/
def texts? : Json → Option (List String)
  | .array items => items.mapM text?
  | _ => none

/-- Texts by name. -/
def namedTexts? : Json → Option (Named String)
  | .object fields => fields.mapM fun (n, v) => (text? v).map fun s => (n, s)
  | _ => none

/-- A value or null. -/
def nullable? {α : Type} (read : Json → Option α) : Json → Option (Option α)
  | .null => some none
  | v => (read v).map some

/-- A field that has to be there. -/
def required {α : Type} (fields : Named Json) (name : String) (read : Json → Option α) :
    Option α :=
  (Named.get? name fields).bind read

/-- A field that may be missing, with the value it then has. -/
def optional {α : Type} (fields : Named Json) (name : String) (read : Json → Option α)
    (missing : α) : Option α :=
  match Named.get? name fields with
  | some v => read v
  | none => some missing

end Decoding

open Decoding

/-- The settings of a cursor in a document. -/
def CursorSettings.ofJson? (document : Json) : Option CursorSettings := do
  let fields ← fields?
    ["increment", "identity", "default_start", "starts", "includes", "excludes", "discover"]
    document
  let increment ← required fields "increment" text?
  let identity ← optional fields "identity" (nullable? text?) none
  let defaultStart ← optional fields "default_start" (nullable? text?) none
  let starts ← optional fields "starts" namedTexts? []
  let includes ← optional fields "includes" texts? []
  let excludes ← optional fields "excludes" texts? []
  let discover ← optional fields "discover" flag? true
  return ⟨increment, identity, defaultStart, starts, includes, excludes, discover⟩

/-- The settings of a table in a document. -/
def TableSettings.ofJson? (document : Json) : Option TableSettings := do
  let fields ← fields?
    ["name", "alias", "columns", "rename", "convert", "where", "idle_interval_ms", "idle_max_ms",
      "cursor"] document
  let name ← required fields "name" text?
  let aliasName ← optional fields "alias" (nullable? text?) none
  let columns ← optional fields "columns" texts? []
  let rename ← optional fields "rename" namedTexts? []
  let convert ← optional fields "convert" namedTexts? []
  let filter ← optional fields "where" (nullable? text?) none
  let idleInterval ← optional fields "idle_interval_ms" (nullable? (nat? (2 ^ 64))) none
  let idleMax ← optional fields "idle_max_ms" (nullable? (nat? (2 ^ 64))) none
  let cursor ← required fields "cursor" CursorSettings.ofJson?
  return ⟨name, aliasName, columns, rename, convert, filter, idleInterval, idleMax, cursor⟩

/-- The settings of a source in a document. -/
def SourceSettings.ofJson? (document : Json) : Option SourceSettings := do
  let fields ← fields? ["url", "schema", "pool_size", "allow_self_signed_certs"] document
  let url ← required fields "url" text?
  let byDefault := SourceSettings.ofUrl url
  let schema ← optional fields "schema" text? byDefault.schema
  let poolSize ← optional fields "pool_size" (nat? (2 ^ 64)) byDefault.poolSize
  let allowSelfSigned ←
    optional fields "allow_self_signed_certs" flag? byDefault.allowSelfSigned
  return ⟨url, schema, poolSize, allowSelfSigned⟩

/-- The settings of the poller in a document. -/
def PollerSettings.ofJson? (document : Json) : Option PollerSettings := do
  let fields ← fields?
    ["batch_size", "poll_interval_ms", "flush_interval_ms", "discover_interval_ms",
      "idle_interval_ms", "idle_max_ms", "checkpoint_dir", "parallelism", "delivery_retries"]
    document
  let byDefault := PollerSettings.standard
  let batchSize ← optional fields "batch_size" (nat? (2 ^ 64)) byDefault.batchSize
  let pollInterval ← optional fields "poll_interval_ms" (nat? (2 ^ 64)) byDefault.pollInterval
  let flushInterval ←
    optional fields "flush_interval_ms" (nat? (2 ^ 64)) byDefault.flushInterval
  let discoverInterval ←
    optional fields "discover_interval_ms" (nat? (2 ^ 64)) byDefault.discoverInterval
  let idleInterval ← optional fields "idle_interval_ms" (nat? (2 ^ 64)) byDefault.idleInterval
  let idleMax ← optional fields "idle_max_ms" (nat? (2 ^ 64)) byDefault.idleMax
  let checkpointDir ←
    optional fields "checkpoint_dir" (nullable? text?) byDefault.checkpointDir
  let parallelism ← optional fields "parallelism" (nat? (2 ^ 64)) byDefault.parallelism
  let deliveryRetries ←
    optional fields "delivery_retries" (nat? (2 ^ 32)) byDefault.deliveryRetries
  return ⟨batchSize, pollInterval, flushInterval, discoverInterval, idleInterval, idleMax,
    checkpointDir, parallelism, deliveryRetries⟩

/-- A list of tables in a document. -/
def tables? : Json → Option (List TableSettings)
  | .array items => items.mapM TableSettings.ofJson?
  | _ => none

/-- The configuration in a document. -/
def Settings.ofJson? (document : Json) : Option Settings := do
  let fields ← fields? ["source", "poller", "allowed_tables", "tables"] document
  let source ← required fields "source" SourceSettings.ofJson?
  let poller ← optional fields "poller" PollerSettings.ofJson? PollerSettings.standard
  let allowedTables ← optional fields "allowed_tables" (nullable? texts?) none
  let tables ← optional fields "tables" tables? []
  return ⟨source, poller, allowedTables, tables⟩

end TableTail
