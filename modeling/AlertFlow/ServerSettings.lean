import AlertFlow.Engine
import AlertFlow.Route.Config
import AlertFlow.Setting.Decode
import AlertFlow.Setting.Environment
import AlertFlow.Yaml.Reader

/-!
The settings of a server: a file, with the environment written over it. Everything but the routing
tree has a default. The time between sweeps must not be zero.
-/
namespace AlertFlow

namespace RouteConfig

/-- Reads a node whose setting is nested at most so deep. -/
def ofSettingWithin : (depth : Nat) → Setting → Option RouteConfig
  | 0, _ => none
  | depth + 1, s => do
    let field ← s.asRecord? fieldNames
    let duration (s : Setting) := s.asText?.bind Duration.read?
    return {
      receiver := ← Setting.readField (Setting.asOptional? Setting.asText?) none (field "receiver")
      groupBy := ← Setting.readField (Setting.asOptional? Setting.asNames?) none (field "group_by")
      groupWait := ← Setting.readField (Setting.asOptional? duration) none (field "group_wait")
      groupInterval :=
        ← Setting.readField (Setting.asOptional? duration) none (field "group_interval")
      repeatInterval :=
        ← Setting.readField (Setting.asOptional? duration) none (field "repeat_interval")
      matchers := ← Setting.readField Setting.asLabels? .empty (field "match")
      continues := ← Setting.readField Setting.asBool? false (field "continue")
      children :=
        ← Setting.readField (Setting.asList? (ofSettingWithin depth)) [] (field "routes") }

/-- Reads a configured routing tree from settings. -/
def ofSetting? (s : Setting) : Option RouteConfig := ofSettingWithin s.depth s

end RouteConfig

structure ServerSettings where
  databaseUrl : String
  listenAddress : String
  cleanupInterval : Duration
  minGroupInterval : Duration
  /-- How many alerts the engine may fall behind before it loses some. -/
  alertBuffer : Nat
  route : RouteConfig

/-- Why settings could not be loaded. -/
inductive SettingsError where
  /-- There is no file, or it is malformed, or a setting has no meaning. -/
  | unreadable
  | zeroCleanupInterval
deriving DecidableEq, Repr

def SettingsError.message : SettingsError → String
  | .unreadable => "the settings cannot be read"
  | .zeroCleanupInterval => "cleanup_interval must be greater than zero"

namespace ServerSettings

/-- Reads the settings of a server out of a table. The engine's defaults are the server's. -/
def ofSetting? (s : Setting) : Option ServerSettings := do
  let field (name : String) := Setting.Members.get? name s.members
  let duration (s : Setting) := s.asText?.bind Duration.read?
  let engine : EngineSettings := {}
  return {
    databaseUrl := ← Setting.readField Setting.asText? "sqlite://muster.db?mode=rwc"
      (field "database_url")
    listenAddress := ← Setting.readField Setting.asText? "0.0.0.0:9093" (field "listen_address")
    cleanupInterval :=
      ← Setting.readField duration engine.cleanupInterval (field "cleanup_interval")
    minGroupInterval :=
      ← Setting.readField duration engine.minGroupInterval (field "min_group_interval")
    alertBuffer := ← Setting.readField Setting.asWord? 1024 (field "alert_buffer")
    route := ← (field "route").bind RouteConfig.ofSetting? }

/-- The settings of a file, its names at the top being paths, with the environment over them. -/
def merge? (file : Setting) (environment : List (String × String)) : Option Setting :=
  match file with
  | .table members =>
    let settings := members.foldl (fun (s : Setting) m => s.writeKey m.1 m.2) (.table [])
    some (settings.withEnvironment environment)
  | _ => none

/-- Loads the settings of a server from the text of a file, if there is one, and an environment. -/
def load (file : Option String) (environment : List (String × String)) :
    Except SettingsError ServerSettings :=
  match file.bind Yaml.read? |>.bind (merge? · environment) |>.bind ofSetting? with
  | some settings =>
    if settings.cleanupInterval.isZero then .error .zeroCleanupInterval else .ok settings
  | none => .error .unreadable

/-- How the engine is set up by the settings. -/
def engine (s : ServerSettings) : EngineSettings where
  cleanupInterval := s.cleanupInterval
  minGroupInterval := s.minGroupInterval

end ServerSettings

end AlertFlow
