import Provision.Http.Url

/-!
Requests, responses, and what carries the one out and brings the other back.
-/
namespace Provision.Http

structure Header where
  name : String
  value : String
  deriving DecidableEq

structure Request where
  method : String
  url : Url
  headers : List Header
  body : Option String
  deriving DecidableEq

structure Response where
  status : Nat
  body : String
  deriving DecidableEq

namespace Response

def isSuccess (r : Response) : Bool := 200 ≤ r.status && r.status < 300

/-- An exchange ends with a status of three digits, and not with one that announces another
answer. -/
def isFinal (r : Response) : Bool := r.status = 101 || (200 ≤ r.status && r.status ≤ 999)

/-- Some answers have no body, whatever is sent. -/
def content (r : Response) : String :=
  if r.status = 101 ∨ r.status = 204 ∨ r.status = 304 then "" else r.body

end Response

/-- What carries requests, with a state `ρ`. No response comes of a connection that breaks. -/
abbrev Transport (ρ : Type) : Type := Request → ρ → Option Response × ρ

/-- A header value as it arrives, without blanks at its end. -/
def trimValue (s : String) : String :=
  String.ofList (s.toList.reverse.dropWhile fun c => c = ' ' || c = '\t').reverse

/-- A text that can stand in a header. -/
def isHeaderValue (s : String) : Bool :=
  s.toList.all fun c => c = '\t' || (0x20 ≤ c.toNat && c.toNat ≠ 0x7F)

/-- The names of statuses. -/
def statusNames : List (Nat × String) :=
  [(100, "Continue"), (101, "Switching Protocols"), (102, "Processing"),
    (200, "OK"), (201, "Created"),
    (202, "Accepted"), (203, "Non Authoritative Information"), (204, "No Content"),
    (205, "Reset Content"), (206, "Partial Content"), (207, "Multi-Status"),
    (208, "Already Reported"),
    (226, "IM Used"), (300, "Multiple Choices"), (301, "Moved Permanently"), (302, "Found"),
    (303, "See Other"), (304, "Not Modified"), (305, "Use Proxy"), (307, "Temporary Redirect"),
    (308, "Permanent Redirect"), (400, "Bad Request"), (401, "Unauthorized"),
    (402, "Payment Required"),
    (403, "Forbidden"), (404, "Not Found"), (405, "Method Not Allowed"), (406, "Not Acceptable"),
    (407, "Proxy Authentication Required"), (408, "Request Timeout"),
    (409, "Conflict"), (410, "Gone"),
    (411, "Length Required"), (412, "Precondition Failed"), (413, "Payload Too Large"),
    (414, "URI Too Long"), (415, "Unsupported Media Type"), (416, "Range Not Satisfiable"),
    (417, "Expectation Failed"), (418, "I'm a teapot"), (421, "Misdirected Request"),
    (422, "Unprocessable Entity"), (423, "Locked"), (424, "Failed Dependency"), (425, "Too Early"),
    (426, "Upgrade Required"), (428, "Precondition Required"), (429, "Too Many Requests"),
    (431, "Request Header Fields Too Large"), (451, "Unavailable For Legal Reasons"),
    (500, "Internal Server Error"), (501, "Not Implemented"), (502, "Bad Gateway"),
    (503, "Service Unavailable"), (504, "Gateway Timeout"), (505, "HTTP Version Not Supported"),
    (506, "Variant Also Negotiates"), (507, "Insufficient Storage"), (508, "Loop Detected"),
    (510, "Not Extended"), (511, "Network Authentication Required")]

/-- A status and its name. -/
def statusText (status : Nat) : String :=
  toString status ++ " " ++ (statusNames.lookup status).getD "<unknown status code>"

end Provision.Http
