import Provision.Proofs.Json.Faithful

/-!
Paths through values: which members, and members of members, a value has. What a record is written
as has a member just for each field that is not left out.
-/
namespace Provision.Json

/-- There is a value at the end of a path of names. Where a list stands on the way, the path leads
on from one of its items. -/
inductive Has : Json → List String → Prop
  | here (v : Json) : Has v []
  | member {ms : List (Str × Json)} {k : String} {v : Json} {path : List String}
      (hm : (.ok k, v) ∈ ms) (h : Has v path) : Has (.object ms) (k :: path)
  | item {vs : List Json} {v : Json} {k : String} {path : List String} (hv : v ∈ vs)
      (h : Has v (k :: path)) :
      Has (.array vs) (k :: path)

variable {k : String} {path : List String}

/-- What is written for the fields has a member of the name, and from there the path leads to a
value. -/
def Fields.Leads (k : String) (path : List String) : {ts : List Type} → Fields ts → Tuple ts → Prop
  | _, .nil, _ => False
  | _, .cons f fs, (a, as) =>
    (f.omits a = false ∧ f.name = k ∧ (f.codec.encode a).Has path) ∨ fs.Leads k path as

end Provision.Json
