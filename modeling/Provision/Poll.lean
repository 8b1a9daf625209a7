import Provision.Timeline

/-!
Checking again and again until something is done. A check that fails ends the polling at once; when
one more wait would go beyond the deadline, the last state seen is handed back. Checks are counted
in 32 bits, and a sum that these cannot hold halts: nothing is counted on from zero.
-/
namespace Provision

structure PollConfig where
  interval : Duration
  timeout : Duration
  deriving DecidableEq

def defaultPollInterval : Duration := .ofSeconds 5

def defaultPollTimeout : Duration := .ofSeconds 180

instance : Inhabited PollConfig := ⟨⟨defaultPollInterval, defaultPollTimeout⟩⟩

/-- What one check sees. -/
inductive Progress (α : Type) where
  | done (a : α)
  | pending (a : α)
  deriving DecidableEq

inductive PollError (α ε : Type) where
  | timeout (elapsed : Duration) (attempts : Nat) (last : α)
  | aborted (e : ε)
  deriving DecidableEq

def timeoutMessage (elapsed : Duration) (attempts : Nat) : String :=
  "timed out after " ++ elapsed.text ++ " (" ++ toString attempts ++ " attempts)"

namespace PollConfig

/-- The most checks that can be counted. -/
def attemptLimit : Nat := UInt32.size - 1

/-- How many checks fit into the timeout. The intervals are cut to 32 bits before the first check is
added. -/
def maxAttempts (c : PollConfig) : Except Halt UInt32 :=
  if c.interval.nanos = 0 then .ok (.ofNat attemptLimit)
  else
    let waits : UInt32 := .ofNat (c.timeout.nanos / c.interval.nanos)
    if waits.toNat = attemptLimit then .error .attempts else .ok (waits + 1)

end PollConfig

variable {ω α ε : Type}

/-- Goes on after `attempts` checks, for at most `fuel` more. -/
def pollFrom (c : PollConfig) (check : Timed ω (Except ε (Progress α)))
    (started deadline : Instant) :
    (fuel attempts : Nat) → Timed ω (Except (PollError α ε) (α × Nat))
  | 0, _ => .halt .attempts
  | fuel + 1, attempts => do
    match ← check with
    | .error e => return .error (.aborted e)
    | .ok (.done a) => return .ok (a, attempts + 1)
    | .ok (.pending a) =>
      let now ← Timed.now
      let next ← Timed.later now c.interval
      if deadline.nanos < next.nanos then
        return .error (.timeout (now.since started) (attempts + 1) a)
      Timed.log .trace .polling "Still pending"
        [("attempts", .number (attempts + 1)), ("interval_ms", .number c.interval.millis.toNat)]
      Timed.sleep c.interval
      pollFrom c check started deadline fuel (attempts + 1)

/-- Checks until done, and says how many checks that took. -/
def poll (c : PollConfig) (check : Timed ω (Except ε (Progress α))) :
    Timed ω (Except (PollError α ε) (α × Nat)) := do
  let started ← Timed.now
  let deadline ← Timed.later started c.timeout
  pollFrom c check started deadline PollConfig.attemptLimit 0

end Provision
