/-!
Log lines: what was done, by which part of the program, and on what.
-/
namespace Provision.Log

inductive Level where
  | trace
  | debug
  | info
  | warn
  | error
  deriving DecidableEq

namespace Level

def rank : Level → Nat
  | .trace => 0
  | .debug => 1
  | .info => 2
  | .warn => 3
  | .error => 4

def name : Level → String
  | .trace => "TRACE"
  | .debug => "DEBUG"
  | .info => "INFO"
  | .warn => "WARN"
  | .error => "ERROR"

end Level

/-- The part of the program that writes a line. -/
inductive Source where
  | commandLine
  | action
  | reconciliation
  | scope
  | waiting
  | events
  | secrets
  | storing
  | client
  | mock
  | polling
  deriving DecidableEq

/-- The name that filters know a part by. -/
def Source.target : Source → String
  | .commandLine => "machine_actuator"
  | .action => "capg_machine_actuator::actuator"
  | .reconciliation => "capg_machine_actuator::reconciler"
  | .scope => "capg_machine_actuator::scope"
  | .waiting => "capg_machine_actuator::operation"
  | .events => "capg_machine_actuator::events"
  | .secrets => "capg_machine_actuator::secrets"
  | .storing => "capg_machine_actuator::store"
  | .client => "capg_compute::client"
  | .mock => "capg_compute::mock"
  | .polling => "capg_reconcile"

inductive Value where
  | text (s : String)
  | number (n : Int)
  | flag (b : Bool)
  deriving DecidableEq

instance : Coe String Value := ⟨.text⟩

structure Line where
  level : Level
  source : Source
  message : String
  fields : List (String × Value)
  deriving DecidableEq

/-- Whether the line has a field of this name. The message is one. -/
def Line.hasField (l : Line) (name : String) : Bool :=
  name = "message" || l.fields.any fun f => f.1 = name

end Provision.Log
