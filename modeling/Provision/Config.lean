import Provision.Compute.Client
import Provision.Poll
import Provision.Text.Unsigned

/-!
Settings from variables. A variable that is blank counts as not set.
-/
namespace Provision

structure Config where
  endpoint : String
  /-- Without one, tokens come from the metadata server. -/
  accessToken : Option String
  /-- The project of machines that name none. -/
  defaultProject : Option String
  pollInterval : Duration
  operationTimeout : Duration
  secretsDir : String
  httpTimeout : Duration
  logLevel : String
  deriving DecidableEq

inductive ConfigError where
  | notSeconds (key : String) (fault : Text.UnsignedFault)
  | zeroInterval
  deriving DecidableEq

namespace Config

def endpointKey : String := "CAPG_COMPUTE_ENDPOINT"
def tokenKey : String := "CAPG_ACCESS_TOKEN"
def projectKey : String := "CAPG_DEFAULT_PROJECT"
def intervalKey : String := "CAPG_OPERATION_POLL_INTERVAL_SECS"
def timeoutKey : String := "CAPG_OPERATION_TIMEOUT_SECS"
def secretsKey : String := "CAPG_SECRETS_DIR"
def httpTimeoutKey : String := "CAPG_HTTP_TIMEOUT_SECS"
def logLevelKey : String := "CAPG_LOG_LEVEL"

/-- The variables of all settings. -/
def keys : List String :=
  [endpointKey, tokenKey, projectKey, intervalKey, timeoutKey, secretsKey,
    httpTimeoutKey, logLevelKey]

end Config

namespace ConfigError

def message : ConfigError → String
  | .notSeconds key _ => key ++ " must be an integer (seconds)."
  | .zeroInterval => Config.intervalKey ++ " must be greater than zero."

/-- What lies behind an error. -/
def causes : ConfigError → List String
  | .notSeconds _ fault => [fault.message]
  | .zeroInterval => []

end ConfigError

namespace Config

/-- The value of a variable that is not blank. -/
def value? (lookup : String → Option String) (key : String) : Option String :=
  (lookup key).filter fun v => !Text.isBlank v

/-- A number of seconds, with blanks around it at will. -/
def seconds (lookup : String → Option String) (key : String) (default : Duration) :
    Except ConfigError Duration :=
  match value? lookup key with
  | none => .ok default
  | some v =>
    match Text.readUnsigned UInt64.size (Text.trim v) with
    | .ok n => .ok (.ofSeconds n)
    | .error fault => .error (.notSeconds key fault)

def load (lookup : String → Option String) : Except ConfigError Config := do
  let pollInterval ← seconds lookup intervalKey defaultPollInterval
  let operationTimeout ← seconds lookup timeoutKey defaultPollTimeout
  if pollInterval.nanos = 0 then throw .zeroInterval
  let httpTimeout ← seconds lookup httpTimeoutKey (.ofSeconds 30)
  return {
    endpoint := ((value? lookup endpointKey).map (Text.trimEnd '/')).getD defaultEndpoint
    accessToken := value? lookup tokenKey
    defaultProject := value? lookup projectKey
    pollInterval
    operationTimeout
    secretsDir := (value? lookup secretsKey).getD "/var/run/secrets/capg"
    httpTimeout
    logLevel := (value? lookup logLevelKey).getD "info" }

def tokenSource (c : Config) : TokenSource :=
  match c.accessToken with
  | some token => .fixed token
  | none => .metadataServer metadataTokenUrl

def client (c : Config) : ClientConfig := ⟨c.endpoint, c.tokenSource, c.httpTimeout⟩

def polling (c : Config) : PollConfig := ⟨c.pollInterval, c.operationTimeout⟩

end Config
end Provision
