import Provision.Actuator.Action
import Provision.Config
import Provision.Log.Filter

/-!
The command line: one action on the machine of a manifest.
-/
namespace Provision.CommandLine

/-- A manifest and what to do with its machine. -/
structure Command where
  manifest : String
  action : Action
  deriving DecidableEq

def manifestKey : String := "CAPG_MACHINE_FILE"

/-- The value that an argument gives for an option of the name. -/
def inlineValue? (name arg : String) : Option String :=
  let start := (name ++ "=").toList
  if start.isPrefixOf arg.toList then some (String.ofList (arg.toList.drop start.length)) else none

/-- A value that stands alone must not look like an option. -/
def isLoneValue (s : String) : Bool := s.toList.head? ≠ some '-' || s = "-"

def command? (manifest : Option String) (action : String) : Option Command := do
  let manifest ← manifest.filter (· ≠ "")
  return ⟨manifest, ← Action.ofName? action⟩

/-- Reads the arguments. The manifest may be named before the action, and else by a variable. -/
def parseAll? (fallback : Option String) : List String → Option Command
  | [action] => command? fallback action
  | ["--machine", file, action] => if isLoneValue file then command? (some file) action else none
  | [option, action] => do command? (some (← inlineValue? "--machine" option)) action
  | _ => none

/-- Two dashes may stand at the end of the arguments. -/
def parse? (fallback : Option String) (args : List String) : Option Command :=
  parseAll? fallback (if args.getLast? = some "--" then args.dropLast else args)

/-- What is said to arguments that make no command. -/
def usage : String := "Usage: machine-actuator --machine FILE create|exists|update|delete\n"

/-- What a run leaves: its exit status, what it printed and logged, and what it worked on. -/
structure Report (ρ : Type) where
  exit : Nat
  stdout : String
  stderr : String
  log : List Log.Line
  /-- How long the run slept. -/
  slept : Duration
  files : Tree
  transport : ρ

/-- The text with `indent` before every line but the first. -/
def hang (indent text : String) : String :=
  String.ofList (text.toList.flatMap fun c => if c = '\n' then '\n' :: indent.toList else [c])

/-- An error and what lies behind it, in numbered lines if that is more than one. -/
def errorText (message : String) (causes : List String) : String :=
  let listed :=
    match causes with
    | [] => ""
    | [cause] => "\nCaused by:\n    " ++ hang "    " cause ++ "\n"
    | causes =>
      "\nCaused by:\n" ++
        String.join
          (causes.mapIdx fun i cause =>
            "    " ++ toString i ++ ": " ++ hang "       " cause ++ "\n")
  "Error: " ++ message ++ "\n" ++ listed

/-- What lies behind a manifest that cannot be loaded. -/
def loadCauses (e : StoreError) : List String :=
  match e with
  | .io fault => [e.message .brief, fault.message]
  | .serialization fault => [e.message .brief, fault.brief]
  | .conflict _ => [e.message .brief]

/-- A text for the standard output, from the answer of an action. -/
def answerText : (a : Action) → a.Answer → String
  | .exists, b => (Json.object [(.ok "exists", .bool b)]).compact ++ "\n"
  | .create, _ | .update, _ | .delete, _ => ""

variable {ρ : Type}

/-- How a command ends: with what is printed, or with an error before the action began. -/
inductive Ending where
  | done (stdout : String)
  | failed
  | unloadable (e : StoreError)
  deriving DecidableEq

def logConfig (config : Config) : Timed (World (Session ρ) Tree) Unit :=
  Timed.log .info .commandLine "Configuration loaded"
    [("compute_endpoint", config.endpoint),
      ("default_project", Text.quotedOption config.defaultProject),
      ("secrets_dir", config.secretsDir)]

def collaborators (config : Config) (command : Command) (transport : Http.Transport ρ) :
    Collaborators (Session ρ) Tree where
  service := (Client.ofConfig config.client transport).service
  secrets := SecretStore.directory config.secretsDir
  machines := MachineStore.file command.manifest
  recorder := Recorder.logging
  polling := config.polling
  defaultProject := config.defaultProject

/-- Carries out a command. -/
def carryOut (config : Config) (command : Command) (transport : Http.Transport ρ) :
    Timed (World (Session ρ) Tree) Ending := do
  logConfig config
  match Manifest.load command.manifest (← Timed.world).storage with
  | .error e => return .unloadable e
  | .ok m =>
    let outcome ← (collaborators config command transport).perform command.action m
    match outcome.result with
    | .ok a => return .done (answerText command.action a)
    | .error e =>
      Timed.log .error .commandLine "Actuator operation failed"
        [("machine", m.name), ("error", e.message .located), ("retryable", .flag e.isRetryable)]
      return .failed

def filterKey : String := "RUST_LOG"

/-- The variables that are looked at. -/
def environmentKeys : List String := manifestKey :: filterKey :: Config.keys

/-- The filter that the variables ask for, and what there is to say of it; none when one of them
cannot be read to its end. -/
def filterOf? (lookup : String → Option String) (config : Config) : Option (Log.Filter × String) :=
  match (lookup filterKey).map Log.Filter.parse with
  | some (.ok filter) => some (filter, "")
  | some (.error .severed) => none
  | _ =>
    (Log.Filter.parseLossy config.logLevel).map fun (filter, warnings) =>
      (filter.orErrors, warnings)

/-- Runs the program on files. -/
def run (args : List String) (lookup : String → Option String) (files : Tree)
    (transport : Http.Transport ρ) (r : ρ) : Report ρ :=
  match parse? (lookup manifestKey) args with
  | none => ⟨2, "", usage, [], ⟨0⟩, files, r⟩
  | some command =>
    match Config.load lookup with
    | .error e => ⟨1, "", errorText e.message e.causes, [], ⟨0⟩, files, r⟩
    | .ok config =>
      match filterOf? lookup config with
      | none => ⟨101, "", "", [], ⟨0⟩, files, r⟩
      | some (filter, warnings) =>
        let start : Timeline (World (Session ρ) Tree) := ⟨.start, #[], ⟨⟨none, r⟩, files, []⟩⟩
        let (ending, t) := (carryOut config command transport).exec start
        let log := t.log.toList.filter filter.shows
        let report (exit : Nat) (stdout stderr : String) : Report ρ :=
          ⟨exit, stdout, warnings ++ stderr, log, t.now.since .start, t.world.storage,
            t.world.compute.transport⟩
        match ending with
        | .ok (.done stdout) => report 0 stdout ""
        | .ok .failed => report 1 "" ""
        | .ok (.unloadable e) =>
          report 1 ""
            (errorText ("failed to load machine manifest " ++ command.manifest) (loadCauses e))
        | .error _ => report 101 "" ""

example : parse? none ["--machine=m.json", "exists"] = some ⟨"m.json", .exists⟩ := by decide +kernel
example : parse? (some "m.json") ["create", "--"] = some ⟨"m.json", .create⟩ := by decide +kernel
example : parse? (some "m.json") ["create", "x"] = none := by decide +kernel

end Provision.CommandLine
