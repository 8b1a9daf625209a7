import Provision.Http.Exchange

/-!
Answers known beforehand. A run that is given those to its first requests comes as far as the next
one; once that is answered too, the run can be made again and comes further.
-/
namespace Provision.Http

structure Replay where
  /-- The answers to come. -/
  answers : List (Option Response)
  /-- The first request that no answer is known to. -/
  pending : Option Request

/-- From the pending request on the connection is broken. -/
def Replay.transport : Transport Replay := fun q r =>
  if r.pending.isSome then (none, r)
  else
    match r.answers with
    | [] => (none, { r with pending := some q })
    | a :: as => (a, { r with answers := as })

@[simp] theorem Replay.transport_of_pending {q p : Request} {as : List (Option Response)} :
    Replay.transport q ⟨as, some p⟩ = (none, ⟨as, some p⟩) := rfl

@[simp] theorem Replay.transport_cons {q : Request} {a : Option Response}
    {as : List (Option Response)} :
    Replay.transport q ⟨a :: as, none⟩ = (a, ⟨as, none⟩) := rfl

@[simp] theorem Replay.transport_nil {q : Request} :
    Replay.transport q ⟨[], none⟩ = (none, ⟨[], some q⟩) := rfl

end Provision.Http
