import Provision.Http.Exchange
import Provision.Text.Unsigned

/-!
Requests and responses as they are sent, one of each to a connection.
-/
namespace Provision.Http

def Header.line (h : Header) : String := h.name ++ ": " ++ h.value ++ "\r\n"

/-- The request as it is sent. -/
def Request.wire (q : Request) : String :=
  let length := (q.body.map fun b => Header.mk "content-length" (toString b.utf8ByteSize)).toList
  let headers := ⟨"host", q.url.authority⟩ :: q.headers ++ length
  q.method ++ " " ++ q.url.target ++ " HTTP/1.0\r\n" ++
    String.join (headers.map Header.line) ++ "\r\n" ++
    q.body.getD ""

/-- The lines before the first that is empty, and what follows that one. -/
def splitHead : List Char → Option (List (List Char) × List Char)
  | [] => none
  | '\r' :: '\n' :: '\r' :: '\n' :: body => some ([[]], body)
  | '\r' :: '\n' :: cs => (splitHead cs).map fun (lines, body) => ([] :: lines, body)
  | c :: cs =>
    (splitHead cs).map fun
      | ([], body) => ([[c]], body)
      | (l :: ls, body) => ((c :: l) :: ls, body)

def readNumber? (cs : List Char) : Option Nat :=
  (Text.readUnsigned UInt64.size (String.ofList cs)).toOption

/-- The status in the first line of a response. -/
def readStatus? : List Char → Option Nat
  | 'H' :: 'T' :: 'T' :: 'P' :: '/' :: '1' :: '.' :: _ :: ' ' :: cs =>
    readNumber? (cs.takeWhile (· ≠ ' '))
  | _ => none

/-- The value in a header line, if the header has this name. -/
def readHeader? (name : String) (line : List Char) : Option (List Char) :=
  if (line.takeWhile (· ≠ ':')).map Char.toLower = name.toList then
    some (((line.dropWhile (· ≠ ':')).drop 1).dropWhile (· = ' '))
  else none

/-- A response as it was received. One that is shorter than it says is none, nor is one that is not
final, since requests of this version get no other. -/
def Response.ofWire? (s : String) : Option Response := do
  let (lines, body) ← splitHead s.toList
  let r : Response := ⟨← readStatus? (← lines.head?), String.ofList body⟩
  guard r.isFinal
  match lines.findSome? (readHeader? "content-length") with
  | none => return r
  | some length => if (← readNumber? length) ≤ r.body.utf8ByteSize then return r else none

example : Response.ofWire? "HTTP/1.1 200 OK\r\nContent-Length: 2\r\n\r\n[]" = some ⟨200, "[]"⟩ := by
  decide +kernel
example : Response.ofWire? "HTTP/1.1 200 OK\r\nContent-Length: 2\r\n\r\n[" = none := by
  decide +kernel

end Provision.Http
