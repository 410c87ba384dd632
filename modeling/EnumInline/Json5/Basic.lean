/-!
Values of JSON with the liberties of its fifth edition. Numbers are not told apart: no setting is one.
-/

namespace EnumInline

inductive Json5 where
  | null
  | bool (value : Bool)
  | number
  | string (text : String)
  | array (elements : List Json5)
  /-- The members in the order in which they are written; names may be repeated. -/
  | object (members : List (String × Json5))
  deriving Repr, Inhabited

namespace Json5

def named (name : String) (members : List (String × Json5)) : List Json5 :=
  (members.filter (·.1 == name)).map (·.2)

/-- A member of an object that may be missing, but not repeated. -/
def member? (members : List (String × Json5)) (name : String) : Option Json5 :=
  match named name members with
  | [] => some .null
  | [value] => some value
  | _ => none

/-- The fields of a record, `null` for those that are missing. A record is an object, or an array that
holds its fields in order. -/
def fields? (names : List String) : Json5 → Option (List Json5)
  | .object members => names.mapM (member? members)
  | .array elements => if elements.length < names.length then none else some (elements.take names.length)
  | _ => none

def string? : Json5 → Option String
  | .string text => some text
  | _ => none

def strings? : Json5 → Option (List String)
  | .array elements => elements.mapM string?
  | _ => none

/-- A setting that may be left out. -/
def setting? {α : Type} (decode : Json5 → Option α) : Json5 → Option (Option α)
  | .null => some none
  | value => (decode value).map some

end Json5

end EnumInline
