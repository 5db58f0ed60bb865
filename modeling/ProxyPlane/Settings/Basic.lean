import ProxyPlane.Json.Codec
import ProxyPlane.Sync
import ProxyPlane.Toml.Basic

/-!
# Settings

Each setting is declared once, with the key and the variable of the environment that name it and the
kind of its values.  All ways into and out of the settings are made from the declarations.

## What is here

* `Settings` and its sections, with their defaults.
* `Kind`, the values that a setting can have, with their forms in JSON, in TOML and as a text.
* `Setting`, one declaration, and `Section`, the declarations of a section.
* `Settings.sections`, all declarations, and `Settings.codec`, `Settings.ofToml`.
-/

set_option autoImplicit false
namespace ProxyPlane

open Json (Codec Member)

/-! ## The settings -/

/-- The proxy's admin endpoint. -/
structure AdminSettings where
  url : String
  timeoutSecs : Nat
deriving DecidableEq, Repr, Inhabited

/-- Snapshots, and which of them is restored. -/
structure StorageSettings where
  /-- The directory of the snapshots and of the proxy's own data. -/
  configDir : String
  /-- How many snapshots are kept. -/
  snapshotKeep : Nat
  rollbackTarget : RollbackTarget
deriving DecidableEq, Repr, Inhabited

/-- The files of the store. -/
structure StoreSettings where
  recordsPath : String
  auditPath : String
deriving DecidableEq, Repr, Inhabited

/-- Taking over documents that somebody else wrote. -/
structure ImportSettings where
  adapterBinary : String
  backupDir : String
deriving DecidableEq, Repr, Inhabited

/-- How log lines look. -/
inductive LogFormat
  | pretty
  | json
deriving DecidableEq, Repr, Inhabited

/-- Logging and metrics. -/
structure ObservabilitySettings where
  logLevel : String
  logFormat : LogFormat
  metricsEnabled : Bool
  metricsAddress : String
deriving DecidableEq, Repr, Inhabited

/-- All settings. -/
structure Settings where
  admin : AdminSettings
  storage : StorageSettings
  store : StoreSettings
  imports : ImportSettings
  observability : ObservabilitySettings
deriving DecidableEq, Repr, Inhabited

def AdminSettings.default : AdminSettings := ⟨"http://localhost:2019", 30⟩

def StorageSettings.default : StorageSettings :=
  ⟨"data/caddy", SyncManager.defaultRetention, .lastKnownGood⟩

def StoreSettings.default : StoreSettings := ⟨"data/records.json", "data/audit.log"⟩

def ImportSettings.default : ImportSettings := ⟨"caddy", "data/imports/backups"⟩

def ObservabilitySettings.default : ObservabilitySettings :=
  ⟨"info", .pretty, false, "127.0.0.1:9091"⟩

/-- The settings where nobody says otherwise. -/
def Settings.default : Settings :=
  ⟨.default, .default, .default, .default, .default⟩

/-! ## Kinds of values -/

/-- The values that a setting can have, with their forms in all places that a setting comes from. -/
structure Kind (α : Type) where
  codec : Codec α
  ofToml? : Toml → Option α
  ofText? : String → Option α

namespace Kind

/-- Any text. -/
def text : Kind String where
  codec := .string
  ofToml?
    | .string s => some s
    | _ => none
  ofText? := some

/-- Natural numbers of 64 bits; as a text, between blanks. -/
def natural : Kind Nat where
  codec := .nat (Nat.pow 2 64)
  ofToml?
    | .integer n => if 0 ≤ n then some n.toNat else none
    | _ => none
  ofText? s := Numeral.u64? (trimBlank s)

/-- Truth values; as a text, between blanks. -/
def flag : Kind Bool where
  codec := .bool
  ofToml?
    | .bool b => some b
    | _ => none
  ofText? s := [("true", true), ("false", false)].lookup (trimBlank s)

/-- Whether a value holds nothing. -/
def isEmptyToml : Toml → Bool
  | .array items => items.isEmpty
  | .inlineTable _ entries | .table _ entries => entries.isEmpty
  | .tables items => items.isEmpty
  | _ => false

/-- The name that a value of TOML gives: as a text, or as the key of a table with an empty value. -/
def tomlName? : Toml → Option String
  | .string s => some s
  | .inlineTable _ [(k, v)] => if isEmptyToml v then some k else none
  | .table _ ((k, v) :: _) => if isEmptyToml v then some k else none
  | _ => none

/-- One of several names. -/
def choice {α : Type} (choices : List (String × α)) (nameOf : α → String) : Kind α where
  codec := .name choices nameOf
  ofToml? v := (tomlName? v).bind fun s => choices.lookup s
  ofText? s := choices.lookup s

end Kind

/-- The name of a choice of the snapshot to restore. -/
def RollbackTarget.name : RollbackTarget → String
  | lastKnownGood => "last_known_good"
  | previous => "previous"

/-- The choices of the snapshot to restore. -/
def RollbackTarget.kind : Kind RollbackTarget :=
  .choice [("last_known_good", .lastKnownGood), ("previous", .previous)] name

/-- The name of a form of log lines. -/
def LogFormat.name : LogFormat → String
  | pretty => "pretty"
  | json => "json"

/-- The forms of log lines. -/
def LogFormat.kind : Kind LogFormat := .choice [("pretty", .pretty), ("json", .json)] name

/-! ## Declarations -/

/-- One setting of a section. -/
structure Setting (σ : Type) where
  member : Member σ
  /-- What the variable of the environment is called, behind the common part of all names. -/
  variableName : String
  setToml? : Toml → σ → Option σ
  setText? : String → σ → Option σ

variable {σ τ : Type}

/-- The setting of a key, with values of a kind. -/
def Setting.of {α : Type} (key variableName : String) (kind : Kind α) (get : σ → α)
    (set : α → σ → σ) : Setting σ where
  member := .always key kind.codec get set
  variableName := variableName
  setToml? v s := (kind.ofToml? v).map fun a => set a s
  setText? v s := (kind.ofText? v).map fun a => set a s

/-- The section with the values that entries of TOML give to its settings; other entries are passed
over. -/
def readEntries (settings : List (Setting σ)) (entries : List (String × Toml)) (s : σ) :
    Except Toml.Error σ :=
  settings.foldlM (fun s d =>
    match entries.lookup d.member.key with
    | none => .ok s
    | some v =>
      match d.setToml? v s with
      | some s => .ok s
      | none => .error (.wrongShape d.member.key)) s

/-- The section with the values of its first settings given one after the other. -/
def readInOrder : List (Setting σ) → List Toml → σ → Except Toml.Error σ
  | [], _, s | _, [], s => .ok s
  | d :: settings, v :: rest, s =>
    match d.setToml? v s with
    | some s => readInOrder settings rest s
    | none => .error (.wrongShape d.member.key)

/-- The section with the values that a value of TOML gives to its settings: a table by key, or an
array in their order.  A point in time gives none. -/
def readSection (key : String) (settings : List (Setting σ)) (v : Toml) (s : σ) :
    Except Toml.Error σ :=
  match v with
  | .inlineTable _ entries | .table _ entries => readEntries settings entries s
  | .array items => readInOrder settings items s
  | .tables items => readInOrder settings (items.map (.table .header)) s
  | .moment _ => .ok s
  | _ => .error (.wrongShape key)

/-- One section of the settings. -/
structure Section (τ : Type) where
  member : Member τ
  setToml : Toml → τ → Except Toml.Error τ
  /-- For each variable of the environment, how its text changes the settings. -/
  overrides : List (String × (String → τ → Option τ))

/-- The section of a key, with its default and its settings. -/
def Section.of (key : String) (default : σ) (settings : List (Setting σ)) (get : τ → σ)
    (set : σ → τ → τ) : Section τ where
  member := .always key (.record default (settings.map (·.member))) get set
  setToml v t := (readSection key settings v (get t)).map fun s => set s t
  overrides := settings.map fun d =>
    (d.variableName, fun text t => (d.setText? text (get t)).map fun s => set s t)

namespace AdminSettings

def settings : List (Setting AdminSettings) :=
  [.of "url" "ADMIN_URL" .text (·.url) fun a s => { s with url := a },
   .of "timeout_secs" "ADMIN_TIMEOUT_SECS" .natural (·.timeoutSecs)
    fun a s => { s with timeoutSecs := a }]

end AdminSettings

namespace StorageSettings

def settings : List (Setting StorageSettings) :=
  [.of "config_dir" "CONFIG_DIR" .text (·.configDir) fun a s => { s with configDir := a },
   .of "snapshot_keep" "SNAPSHOT_KEEP" .natural (·.snapshotKeep)
    fun a s => { s with snapshotKeep := a },
   .of "rollback_target" "ROLLBACK_TARGET" RollbackTarget.kind (·.rollbackTarget)
    fun a s => { s with rollbackTarget := a }]

end StorageSettings

namespace StoreSettings

def settings : List (Setting StoreSettings) :=
  [.of "records_path" "RECORDS_PATH" .text (·.recordsPath) fun a s => { s with recordsPath := a },
   .of "audit_path" "AUDIT_PATH" .text (·.auditPath) fun a s => { s with auditPath := a }]

end StoreSettings

namespace ImportSettings

def settings : List (Setting ImportSettings) :=
  [.of "adapter_binary" "ADAPTER_BINARY" .text (·.adapterBinary)
    fun a s => { s with adapterBinary := a },
   .of "backup_dir" "BACKUP_DIR" .text (·.backupDir) fun a s => { s with backupDir := a }]

end ImportSettings

namespace ObservabilitySettings

def settings : List (Setting ObservabilitySettings) :=
  [.of "log_level" "LOG_LEVEL" .text (·.logLevel) fun a s => { s with logLevel := a },
   .of "log_format" "LOG_FORMAT" LogFormat.kind (·.logFormat) fun a s => { s with logFormat := a },
   .of "metrics_enabled" "METRICS_ENABLED" .flag (·.metricsEnabled)
    fun a s => { s with metricsEnabled := a },
   .of "metrics_address" "METRICS_ADDRESS" .text (·.metricsAddress)
    fun a s => { s with metricsAddress := a }]

end ObservabilitySettings

namespace Settings

/-- All declarations. -/
def sections : List (Section Settings) :=
  [.of "admin" .default AdminSettings.settings (·.admin) fun a s => { s with admin := a },
   .of "storage" .default StorageSettings.settings (·.storage) fun a s => { s with storage := a },
   .of "store" .default StoreSettings.settings (·.store) fun a s => { s with store := a },
   .of "import" .default ImportSettings.settings (·.imports) fun a s => { s with imports := a },
   .of "observability" .default ObservabilitySettings.settings (·.observability)
    fun a s => { s with observability := a }]

/-- The form of the settings in JSON. -/
def codec : Codec Settings := .record default (sections.map (·.member))

/-- The settings of a table of TOML; what it does not give keeps its default. -/
def ofToml (v : Toml) : Except Toml.Error Settings :=
  match v with
  | .table _ entries | .inlineTable _ entries =>
    sections.foldlM (fun s d =>
      match entries.lookup d.member.key with
      | none => .ok s
      | some v => d.setToml v s) default
  | _ => .error .malformed

end Settings
end ProxyPlane
