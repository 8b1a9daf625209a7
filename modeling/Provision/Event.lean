import Provision.Json.Basic
import Provision.Log
import Provision.Machine.Basic
import Provision.Time.Timestamp

/-!
Events: what users of a machine are told about it.
-/
namespace Provision

inductive EventKind where
  | normal
  | warning
  deriving DecidableEq

def EventKind.name : EventKind → String
  | .normal => "Normal"
  | .warning => "Warning"

structure Event where
  kind : EventKind
  reason : String
  message : String
  ns : String
  name : String
  deriving DecidableEq

namespace Event

def createdReason : String := "Created"

def failedCreateReason : String := "FailedCreate"

def about (m : Machine) (kind : EventKind) (reason message : String) : Event :=
  ⟨kind, reason, message, m.ns, m.name⟩

/-- The event at a time, as JSON. -/
def json (e : Event) (time : Timestamp) : Json :=
  .object
    [(.ok "involved_object",
        .object [(.ok "namespace", Json.text e.ns), (.ok "name", Json.text e.name)]),
      (.ok "event_type", Json.text e.kind.name), (.ok "reason", Json.text e.reason),
      (.ok "message", Json.text e.message), (.ok "timestamp", Json.text time.text)]

/-- The event as a log line, which says what the event says. -/
def line (e : Event) : Log.Line where
  level := match e.kind with | .normal => .info | .warning => .warn
  source := .events
  message := e.message
  fields := [("object", e.ns ++ "/" ++ e.name), ("reason", e.reason)]

end Event

/-- What is logged of an event. -/
abbrev Recorder : Type := Event → List Log.Line

def Recorder.silent : Recorder := fun _ => []

def Recorder.logging : Recorder := fun e => [e.line]

end Provision
