import Provision.Actuator.Reconcile

/-!
Actions on a machine. Each takes the machine up, works on it once and lets it go again; making and
updating an instance write the status when it has changed, the others never write. A machine on
which the work halts is left as it is then.
-/
namespace Provision

inductive Action where
  | create
  | exists
  | update
  | delete
  deriving DecidableEq

namespace Action

def name : Action → String
  | .create => "create"
  | .exists => "exists"
  | .update => "update"
  | .delete => "delete"

def all : List Action := [.create, .exists, .update, .delete]

def ofName? (s : String) : Option Action := all.find? fun a => a.name = s

/-- What is logged when an action begins. -/
def announcement : Action → String
  | .create => "Creating machine"
  | .exists => "Checking if machine exists"
  | .update => "Updating machine"
  | .delete => "Deleting machine"

/-- What an action answers when it succeeds. -/
abbrev Answer : Action → Type
  | .exists => Bool
  | _ => Unit

/-- The status is written afterwards. -/
def persists : Action → Bool
  | .create | .update => true
  | .exists | .delete => false

end Action

/-- What comes of an action: its result, and the machine with the status it has then. -/
structure Outcome (α : Type) where
  result : Except ActuatorError α
  machine : Machine

namespace Scope

variable {σ τ : Type}

def logFailure (s : Scope) (a : Action) (e : ActuatorError) : Timed (World σ τ) Unit :=
  Timed.log .error .action "Machine operation failed"
    [("machine", s.name), ("project", s.project), ("zone", s.zone), ("operation", a.name),
      ("reason", e.reasonText), ("retryable", .flag e.isRetryable), ("error", e.message .located)]

end Scope

namespace Collaborators

variable {σ τ : Type} (c : Collaborators σ τ)

/-- Works on a machine that is taken up. The status changes while an instance is made, so that this
says itself what is left when it halts. -/
def reconcile (s : Scope) : (a : Action) → Timed (World σ τ) (Except ActuatorError a.Answer × Scope)
  | .create => c.create s
  | .exists => return (← s.holding (c.instanceExists s), s)
  | .update => s.holding (c.update s)
  | .delete => return (← s.holding (c.delete s), s)

/-- Writes the status of a machine when it has changed. -/
def persist (s : Scope) : Timed (World σ τ) (Except ActuatorError Unit) := do
  if s.isDirty then
    match ← World.onStorage (c.machines s.machine) with
    | .error e => return .error (.store s.name e)
    | .ok () =>
      Timed.log .debug .scope "Persisted machine status" [("machine", s.name)]
      return .ok ()
  else
    Timed.log .debug .scope "Machine status unchanged, nothing to persist" [("machine", s.name)]
    return .ok ()

/-- Lets a machine go, and writes its status when it has changed. -/
def close (s : Scope) : Timed (World σ τ) (Except ActuatorError Unit) := s.parting (c.persist s)

/-- The first failure of two results, or else the answer of the first. -/
def firstFailure {α : Type} (r : Except ActuatorError α) (closed : Except ActuatorError Unit) :
    Except ActuatorError α :=
  match r, closed with
  | .ok _, .error e => .error e
  | r, _ => r

/-- Does an action on a machine. -/
def perform (a : Action) (m : Machine) : Timed (World σ τ) (Outcome a.Answer) := do
  Timed.log .info .action a.announcement [("machine", m.name)]
  match Scope.acquire c.defaultProject m with
  | .error e => return ⟨.error (.machine e), m⟩
  | .ok s =>
    let (r, s) ← c.reconcile s a
    if let .error e := r then s.logFailure a e
    if a.persists then
      let closed ← c.close s
      return ⟨firstFailure r closed, s.machine⟩
    else
      s.discard
      return ⟨r, s.machine⟩

end Collaborators
end Provision
