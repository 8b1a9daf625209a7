import Provision.Http.Exchange

/-!
A server that gives its answers in order, one for each request, and keeps the requests.
-/
namespace Provision.Http

structure Script where
  /-- Whom requests must be meant for; others reach nobody. -/
  authority : String
  /-- The answers to come; where there is none, or none that is final, the connection breaks. -/
  answers : List (Option Response)
  /-- The requests so far. -/
  requests : List Request

/-- What is answered when no answer is left. -/
def Script.exhausted : Response := ⟨500, "no scripted response"⟩

def Script.transport : Transport Script := fun q s =>
  if q.url.authority = s.authority then
    let s := { s with requests := s.requests ++ [q] }
    match s.answers with
    | [] => (some Script.exhausted, s)
    | a :: as => (a.filter Response.isFinal, { s with answers := as })
  else (none, s)

end Provision.Http
