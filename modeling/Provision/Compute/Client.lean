import Provision.Compute.Call
import Provision.Http.Exchange
import Provision.Text.Blank

/-!
The compute service behind its web interface. A token from the metadata server is kept for as long
as it is good, less a margin.
-/
namespace Provision

open Json

inductive TokenSource where
  | fixed (token : String)
  | metadataServer (url : String)
  | anonymous
  deriving DecidableEq

def metadataTokenUrl : String :=
  "http://metadata.google.internal/computeMetadata/v1/instance/service-accounts/default/token"

def defaultEndpoint : String := "https://compute.googleapis.com/compute/v1"

/-- How long before its end a token is no longer used. -/
def tokenMargin : Duration := .ofSeconds 60

structure ClientConfig where
  endpoint : String
  token : TokenSource
  timeout : Duration
  deriving DecidableEq

instance : Inhabited ClientConfig :=
  ⟨⟨defaultEndpoint, .metadataServer metadataTokenUrl, .ofSeconds 30⟩⟩

structure CachedToken where
  value : String
  refreshAt : Instant
  deriving DecidableEq

/-- The token at hand, and the state of the transport. -/
structure Session (ρ : Type) where
  token : Option CachedToken
  transport : ρ

structure MetadataToken where
  value : String
  expiresIn : UInt64
  deriving DecidableEq

def MetadataToken.codec : Codec MetadataToken :=
  .record "MetadataToken"
    (.cons (.required "access_token" .string) <| .cons (.required "expires_in" .uint64) .nil)
    (fun t => (t.value, t.expiresIn, ())) fun (value, expiresIn, _) => ⟨value, expiresIn⟩

/-- The message in the body of an error. -/
def errorBodyCodec : Codec String :=
  let inner : Codec String :=
    .record "GoogleError" (.cons (.withDefault "message" .string "") .nil) (fun m => (m, ()))
      fun (m, _) => m
  .record "GoogleErrorBody" (.cons (.required "error" inner) .nil) (fun m => (m, ()))
    fun (m, _) => m

/-- What is said of an answer that is no success: its message, or else the whole body. -/
def failureText (body : String) : String :=
  match errorBodyCodec.decodeText body with
  | .ok message => if message = "" then body else message
  | .error _ => body

structure Client (ρ : Type) where
  /-- The base of all addresses, without a slash at its end. -/
  endpoint : String
  token : TokenSource
  transport : Http.Transport ρ

namespace Client

variable {ρ : Type}

def ofConfig (config : ClientConfig) (transport : Http.Transport ρ) : Client ρ :=
  ⟨Text.trimEnd '/' config.endpoint, config.token, transport⟩

def zoneUrl (endpoint project zone : String) : String :=
  endpoint ++ "/projects/" ++ project ++ "/zones/" ++ zone

/-- Where a call goes. -/
def url (endpoint : String) : Call → String
  | .insertInstance project zone _ => zoneUrl endpoint project zone ++ "/instances"
  | .getInstance project zone name | .deleteInstance project zone name =>
    zoneUrl endpoint project zone ++ "/instances/" ++ name
  | .getZone project zone => zoneUrl endpoint project zone
  | .getOperation project zone operation =>
    zoneUrl endpoint project zone ++ "/operations/" ++ operation

def verb : Call → String
  | .insertInstance .. => "POST"
  | .deleteInstance .. => "DELETE"
  | _ => "GET"

def body? : Call → Option String
  | .insertInstance _ _ i => some (Instance.codec.encodeText i)
  | _ => none

/-- What is logged of a call before it is made. -/
def announcement : Call → String
  | .insertInstance .. => "Inserting instance"
  | .getInstance .. => "Getting instance"
  | .deleteInstance .. => "Deleting instance"
  | .getZone .. => "Getting zone"
  | .getOperation .. => "Getting zone operation"

/-- The instance of a call, where its announcement names it. -/
def announcedInstance : Call → List (String × Log.Value)
  | .insertInstance _ _ i => [("instance", i.name)]
  | _ => []

def announce (endpoint : String) (call : Call) : Timed (Session ρ) Unit :=
  Timed.log .debug .client (announcement call)
    (("url", url endpoint call) :: announcedInstance call)

def unbuilt : ComputeError := ⟨.transport, none, .unbuilt⟩

def unsent (u : Http.Url) : ComputeError := ⟨.transport, none, .unsent u.text⟩

variable (c : Client ρ)

def send (q : Http.Request) : Timed (Session ρ) (Option Http.Response) :=
  Timed.update fun w =>
    let (r, t) := c.transport q w.transport
    (r, { w with transport := t })

/-- Takes a token from the answer of the metadata server. -/
def readToken (u : Http.Url) (r : Http.Response) :
    Timed (Session ρ) (Except ComputeError String) := do
  if !r.isSuccess then
    Timed.log .error .client "Failed to fetch access token"
      [("status", .number r.status), ("body", r.content)]
    return .error
      (.ofKind .permissionDenied
        ("metadata server returned " ++ toString r.status ++ ": " ++ r.content))
  match MetadataToken.codec.decodeText r.content with
  | .error _ => return .error ⟨.decode, none, .badToken u.text⟩
  | .ok t =>
    let now ← Timed.now
    let refreshAt ← Timed.later now ((Duration.ofSeconds t.expiresIn.toNat).minus tokenMargin)
    Timed.update fun w => ((), { w with token := some ⟨t.value, refreshAt⟩ })
    return .ok t.value

/-- Asks the metadata server for a token. -/
def fetchToken (url : String) : Timed (Session ρ) (Except ComputeError String) := do
  Timed.log .debug .client "Fetching access token from metadata server" [("url", url)]
  match Http.Url.parse? url with
  | none => return .error unbuilt
  | some u =>
    match ← c.send ⟨"GET", u, [⟨"metadata-flavor", "Google"⟩, ⟨"accept", "*/*"⟩], none⟩ with
    | none => return .error (unsent u)
    | some r => readToken u r

/-- The token to call with, if calls need one. -/
def bearer : Timed (Session ρ) (Except ComputeError (Option String)) := do
  match c.token with
  | .anonymous => return .ok none
  | .fixed token => return .ok (some token)
  | .metadataServer url =>
    let now ← Timed.now
    match (← Timed.world).token.filter fun t => now.nanos < t.refreshAt.nanos with
    | some t => return .ok (some t.value)
    | none => return (← c.fetchToken url).map some

/-- The headers of a call. A token that cannot stand in one makes the call impossible. -/
def headers? (token : Option String) (call : Call) : Option (List Http.Header) := do
  let authorization ← match token with
    | none => some []
    | some t =>
      let value := "Bearer " ++ t
      if Http.isHeaderValue value then some [⟨"authorization", Http.trimValue value⟩] else none
  let contentType := if (body? call).isSome then [⟨"content-type", "application/json"⟩] else []
  return contentType ++ authorization ++ [⟨"accept", "application/json"⟩]

/-- What the answer to a call means. -/
def readReply (call : Call) (r : Http.Response) : Timed (Session ρ) (Reply call) := do
  if r.isSuccess then
    match call.codec.decodeText r.content with
    | .ok a => return .ok a
    | .error e => return .error ⟨.decode, none, .undecodable e⟩
  else
    let text := failureText r.content
    Timed.log .debug .client text [("status", Http.statusText r.status)]
    return .error (.ofStatus r.status text)

/-- Makes a call with a token. -/
def request (token : Option String) (call : Call) : Timed (Session ρ) (Reply call) := do
  match headers? token call, Http.Url.parse? (url c.endpoint call) with
  | some headers, some u =>
    match ← c.send ⟨verb call, u, headers, body? call⟩ with
    | none => return .error (unsent u)
    | some r => readReply call r
  | _, _ => return .error unbuilt

/-- The compute service. -/
def service : Service (Session ρ) := fun call => do
  announce c.endpoint call
  match ← c.bearer with
  | .error e => return .error e
  | .ok token => c.request token call

end Client
end Provision
