import ProxyPlane.Net.IpLiteral
import ProxyPlane.Settings.Basic

/-!
# Rules for settings

## What is here

* `SettingsProblem`, what can be wrong with a setting, with `SettingsProblem.message`.
* `Settings.problems`, everything that is wrong with some settings.
-/

set_option autoImplicit false
namespace ProxyPlane

/-- What can be wrong with a setting. -/
inductive SettingsProblem
  | adminUrl (url reason : String)
  | zero (field : String)
  | empty (field : String)
  | metricsAddress (address : String)
deriving DecidableEq, Repr, Inhabited

/-- One line for people. -/
def SettingsProblem.message : SettingsProblem → String
  | adminUrl url reason => s!"admin.url '{url}' is invalid: {reason}"
  | zero field => s!"{field} must be greater than zero"
  | empty field => s!"{field} must not be empty"
  | metricsAddress address => s!"observability.metrics_address '{address}' is not a socket address"

namespace Settings

/-- The problem of a number that must not be zero. -/
def zeroProblem (field : String) (n : Nat) : List SettingsProblem :=
  if n = 0 then [.zero field] else []

/-- The problem of a text that must not be empty. -/
def emptyProblem (field : String) (s : String) : List SettingsProblem :=
  if s.isEmpty then [.empty field] else []

/-- The problem of an admin endpoint. -/
def urlProblem (url : String) : List SettingsProblem :=
  match AdminClient.refusal? url with
  | some reason => [.adminUrl url reason]
  | none => []

/-- The problem of the address for metrics, which matters only if there are metrics. -/
def metricsProblem (s : ObservabilitySettings) : List SettingsProblem :=
  if s.metricsEnabled && !Ip.isSocketAddress s.metricsAddress then
    [.metricsAddress s.metricsAddress]
  else []

/-- Everything that is wrong with some settings. -/
def problems (s : Settings) : List SettingsProblem :=
  urlProblem s.admin.url ++
  zeroProblem "admin.timeout_secs" s.admin.timeoutSecs ++
  zeroProblem "storage.snapshot_keep" s.storage.snapshotKeep ++
  emptyProblem "storage.config_dir" s.storage.configDir ++
  emptyProblem "store.records_path" s.store.recordsPath ++
  emptyProblem "store.audit_path" s.store.auditPath ++
  emptyProblem "import.adapter_binary" s.imports.adapterBinary ++
  emptyProblem "observability.log_level" (trimBlank s.observability.logLevel) ++
  metricsProblem s.observability

end Settings
end ProxyPlane
