import Provision.Json.Decode

/-!
Failed calls of the compute service.
-/
namespace Provision

/-- How messages quote the fault of a text: in brief, or with the place where it shows. -/
inductive Wording where
  | brief
  | located
  deriving DecidableEq

def Json.DecodeError.text (w : Wording) (e : Json.DecodeError) : String :=
  match w with
  | .brief => e.brief
  | .located => e.located

/-- What kind of failure it is. -/
inductive ErrorKind where
  | notFound
  | conflict
  | permissionDenied
  | invalidArgument
  | rateLimited
  | unavailable
  | transport
  | decode
  | other
  deriving DecidableEq

namespace ErrorKind

def name : ErrorKind → String
  | .notFound => "not_found"
  | .conflict => "conflict"
  | .permissionDenied => "permission_denied"
  | .invalidArgument => "invalid_argument"
  | .rateLimited => "rate_limited"
  | .unavailable => "unavailable"
  | .transport => "transport"
  | .decode => "decode"
  | .other => "other"

/-- The kind of an HTTP status. -/
def ofStatus (status : Nat) : ErrorKind :=
  if status = 400 then .invalidArgument
  else if status = 401 ∨ status = 403 then .permissionDenied
  else if status = 404 then .notFound
  else if status = 409 then .conflict
  else if status = 429 then .rateLimited
  else if 500 ≤ status ∧ status ≤ 599 then .unavailable
  else .other

end ErrorKind

/-- What is said of a failure: a text, the fault of a body, or why no answer or no token was had. -/
inductive ErrorDetail where
  | said (text : String)
  | undecodable (e : Json.DecodeError)
  | unbuilt
  | unsent (url : String)
  | badToken (url : String)
  deriving DecidableEq

def ErrorDetail.text (w : Wording) : ErrorDetail → String
  | .said text => text
  | .undecodable e => e.text w
  | .unbuilt => "builder error"
  | .unsent url => "error sending request for url (" ++ url ++ ")"
  | .badToken url => "error decoding response body for url (" ++ url ++ ")"

structure ComputeError where
  kind : ErrorKind
  status : Option Nat
  detail : ErrorDetail
  deriving DecidableEq

namespace ComputeError

def ofKind (kind : ErrorKind) (text : String) : ComputeError := ⟨kind, none, .said text⟩

/-- The error of an answer with a status that is no success. -/
def ofStatus (status : Nat) (text : String) : ComputeError :=
  ⟨.ofStatus status, some status, .said text⟩

def notFound (text : String) : ComputeError := ofStatus 404 text

def conflict (text : String) : ComputeError := ofStatus 409 text

def isNotFound (e : ComputeError) : Bool := e.kind = .notFound

def text (w : Wording) (e : ComputeError) : String := e.detail.text w

def message (w : Wording) (e : ComputeError) : String :=
  match e.status with
  | some status => "googleapi: Error " ++ toString status ++ ": " ++ e.text w
  | none => e.kind.name ++ ": " ++ e.text w

@[simp] theorem isNotFound_notFound (text : String) : (notFound text).isNotFound = true := rfl

@[simp] theorem isNotFound_conflict (text : String) : (conflict text).isNotFound = false := rfl

end ComputeError
end Provision
