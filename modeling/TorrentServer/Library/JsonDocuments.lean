import Mathlib.Data.List.Basic

namespace TorrentServer.Library.JsonDocuments

/-- A document as a parser hands it out. The numbers are left to the parser. -/
inductive Document (ν : Type)
  | null
  | boolean (value : Bool)
  | number (value : ν)
  | string (value : String)
  | array (items : List (Document ν))
  | object (members : List (String × Document ν))

variable {ν : Type}

def Document.number? : Document ν → Option ν
  | .number value => some value
  | _ => none

def Document.string? : Document ν → Option String
  | .string value => some value
  | _ => none

def Document.array? : Document ν → Option (List (Document ν))
  | .array items => some items
  | _ => none

def Document.object? : Document ν → Option (List (String × Document ν))
  | .object members => some members
  | _ => none

/-- A member of an object; there is none of any other document. -/
def Document.member? (document : Document ν) (key : String) : Option (Document ν) :=
  document.object?.bind fun members => members.lookup key

end TorrentServer.Library.JsonDocuments
