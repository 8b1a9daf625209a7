import Provision.Json.Basic
import Provision.Log
import Provision.Time.Timestamp

/-!
Log lines as they are printed: one JSON object each.
-/
namespace Provision.Log

def Value.json : Value → Json
  | .text s => Json.text s
  | .number n => .number (.ofInt n)
  | .flag b => .bool b

/-- What the line says, its message among the fields. -/
def Line.fieldsJson (l : Line) : Json :=
  .object ((.ok "message", Json.text l.message) :: l.fields.map fun (k, v) => (.ok k, v.json))

def Line.json (l : Line) (time : Timestamp) : Json :=
  .object
    [(.ok "timestamp", Json.text time.text), (.ok "level", Json.text l.level.name),
      (.ok "fields", l.fieldsJson), (.ok "target", Json.text l.source.target)]

end Provision.Log
