import Provision.Actuator.Error
import Provision.Compute.Request
import Provision.Text.Blank
import Provision.Text.Quoted

/-!
A machine while one action works on it: the project it belongs to, and the status it had before. The
action lets it go once it is done; a machine that is left before that, as when the action halts, is
told of in the log if its status has changed.
-/
namespace Provision

structure Scope where
  machine : Machine
  /-- The status before the action. -/
  origin : MachineStatus
  project : String
  /-- The action has let the machine go. -/
  released : Bool
  deriving DecidableEq

namespace Scope

def noProject (m : Machine) : MachineError :=
  .invalidConfiguration
    ("failed to create scope for machine " ++ Text.quoted m.name ++
      ": no project set in spec and no default project configured")

/-- The project that a machine names, or else the default, without blanks around it. -/
def projectOf (default? : Option String) (m : Machine) : String :=
  Text.trim ((m.spec.project.or default?).getD "")

/-- Takes up a machine, which must have a project. -/
def acquire (default? : Option String) (m : Machine) : Except MachineError Scope :=
  let project := projectOf default? m
  if project = "" then .error (noProject m) else .ok ⟨m, m.status, project, false⟩

def name (s : Scope) : String := s.machine.name

def zone (s : Scope) : String := s.machine.spec.zone

def status (s : Scope) : MachineStatus := s.machine.status

def providerId (s : Scope) : String := Provision.providerId s.project s.zone s.name

/-- Project and zone, as messages name them. -/
def place (s : Scope) : String := s.project ++ "/" ++ s.zone

/-- The status is no longer what it was. -/
def isDirty (s : Scope) : Bool := s.status ≠ s.origin

def withStatus (s : Scope) (status : MachineStatus) : Scope :=
  { s with machine := { s.machine with status } }

/-- Takes over what was seen of the instance. -/
def observe (s : Scope) (o : Observation) : Scope :=
  s.withStatus
    { s.status with
      addresses := o.addresses
      providerId := some s.providerId
      provider := ⟨some o.instanceId, some o.instanceState⟩ }

def recordError (s : Scope) (e : MachineError) : Scope :=
  s.withStatus { s.status with errorReason := some e.reason, errorMessage := some e.message }

def clearError (s : Scope) : Scope :=
  s.withStatus { s.status with errorReason := none, errorMessage := none }

def release (s : Scope) : Scope := { s with released := true }

section Leaving

variable {ω α : Type}

/-- Leaves a machine. -/
def drop (s : Scope) : Timed ω Unit :=
  if !s.released && s.isDirty then
    Timed.log .warn .scope "Machine scope dropped without being closed, status changes discarded"
      [("machine", s.name)]
  else pure ()

/-- Works on a machine, which is left when the work halts. -/
def holding (s : Scope) (act : Timed ω α) : Timed ω α := Timed.unwinding s.drop act

/-- Lets a machine go for good. Its status may be written yet, and then, or when that halts, it is
left. -/
def parting (s : Scope) (act : Timed ω α) : Timed ω α := Timed.ending s.release.drop act

/-- Lets a machine go, and nothing of its status is written. -/
def discard (s : Scope) : Timed ω Unit := s.parting (pure ())

@[simp] theorem drop_of_released {s : Scope} (h : s.released = true) :
    (s.drop : Timed ω Unit) = pure () := by
  simp only [drop, h, Bool.not_true, Bool.false_and, Bool.false_eq_true, if_false]

theorem drop_of_clean {s : Scope} (h : s.isDirty = false) : (s.drop : Timed ω Unit) = pure () := by
  simp only [drop, h, Bool.and_false, Bool.false_eq_true, if_false]

/-- A machine that was let go is left without a word. -/
@[simp] theorem parting_eq (s : Scope) (act : Timed ω α) : s.parting act = act := by
  rw [parting, drop_of_released rfl, Timed.ending_pure]

@[simp] theorem discard_eq (s : Scope) : (s.discard : Timed ω Unit) = pure () := s.parting_eq _

/-- So is one whose status is what it was. -/
theorem holding_of_clean {s : Scope} (h : s.isDirty = false) (act : Timed ω α) :
    s.holding act = act := by
  rw [holding, drop_of_clean h, Timed.unwinding_pure]

end Leaving

end Scope
end Provision
