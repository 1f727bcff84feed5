import AlertFlow.Rehearsal.ServerRun
import AlertFlow.ServerSettings
import Std.Time.DateTime.Timestamp

/-!
The command line. Settings are read from `app.yaml` in the directory given by `--config-dir`, by
the environment or by default. The server then runs in real time: it answers requests that come one
a line on standard input (method, target and body, parted by single blanks) with status and body on
standard output, and reports its notifications on standard error.
-/
namespace AlertFlow.CommandLine

open Rehearsal

/-- The directory of the settings, from the arguments or else the one that holds without them. -/
def directory? (fallback : String) : List String → Option String
  | [] => some fallback
  | ["--config-dir", directory] => some directory
  | [argument] =>
    let option := "--config-dir=".toList
    if option.isPrefixOf argument.toList then
      some (String.ofList (argument.toList.drop option.length))
    else none
  | _ => none

/-- The variables of an environment, each `name=value` and closed by a zero character. -/
def environmentOf (block : String) : List (String × String) :=
  (block.splitOn "\x00").filterMap fun entry =>
    let cs := entry.toList
    if cs.contains '=' then
      some (String.ofList (cs.takeWhile (· ≠ '=')), String.ofList ((cs.dropWhile (· ≠ '=')).drop 1))
    else none

def request (line : String) : Request :=
  let cs := line.toList.takeWhile (· ≠ '\n')
  let behind (cs : List Char) := (cs.dropWhile (· ≠ ' ')).drop 1
  { method := String.ofList (cs.takeWhile (· ≠ ' '))
    target := String.ofList ((behind cs).takeWhile (· ≠ ' '))
    contentType := some "application/json"
    body := String.ofList (behind (behind cs)) }

def responseLine (r : Response) : String :=
  let status := String.ofList (Decimal.write r.status)
  match r.body with
  | some body => status ++ " " ++ body.write
  | none => status

/-- The report of a notification, when it begins. -/
def report? (e : LogEntry) : Option String :=
  match e.occurrence with
  | .began context alerts =>
    match digest context false alerts with
    | .ok d => some (Json.write (.record
        [("group_key", .string d.groupKey.hex), ("receiver", .string d.receiver),
          ("firing", .nat d.firing), ("resolved", .nat d.resolved)]))
    | .error _ => none
  | .ended _ => none

/-- A server that starts at a time, its main loop running. -/
def launch (settings : ServerSettings) (tree : Route) (now : Instant) : ServerRun :=
  ServerRun.start
    { server := {
        alerts := .ofCapacity settings.alertBuffer
        engine := { tree, settings := settings.engine } }
      origin := now }

/-- Answers a request some milliseconds after the start, and reports what has happened until then.
-/
def serve (run : ServerRun) (millis : Nat) (line : String) : String × List String × ServerRun :=
  let (response, run) := (run.advance (millis - run.tick)).request (request line)
  let (log, run) := run.takeLog
  (responseLine response, log.filterMap report?, run)

def now : IO Instant := do
  let t ← Std.Time.Timestamp.now
  let nanos := t.toNanosecondsSinceUnixEpoch.val
  return ⟨nanos / 1000000000, (nanos % 1000000000).toNat⟩

/-- Answers requests until the input ends. -/
partial def loop (start : Nat) (run : ServerRun) : IO Unit := do
  let line ← (← IO.getStdin).getLine
  if line.isEmpty then return
  let (answer, reports, run) := serve run ((← IO.monoMsNow) - start) line
  reports.forM fun r => IO.eprintln r
  IO.println answer
  (← IO.getStdout).flush
  loop start run

end AlertFlow.CommandLine

open AlertFlow AlertFlow.CommandLine

def main (arguments : List String) : IO UInt32 := do
  let fallback := (← IO.getEnv "MUSTER_CONFIG_DIR").getD "configs"
  match directory? fallback arguments with
  | none =>
    IO.eprintln "usage: alertflow [--config-dir DIRECTORY]"
    return 2
  | some directory =>
    let file ← try pure (some (← IO.FS.readFile (directory ++ "/app.yaml"))) catch _ => pure none
    let block ← try IO.FS.readFile "/proc/self/environ" catch _ => pure ""
    match ServerSettings.load file (environmentOf block) with
    | .error e =>
      IO.eprintln e.message
      return 1
    | .ok settings =>
      match settings.route.build (settings.route.numbered 0) with
      | .error e =>
        IO.eprintln e.message
        return 1
      | .ok tree =>
        loop (← IO.monoMsNow) (launch settings tree (← now))
        return 0
