import EnumInline.Text.Character

/-!
Names that can stand after the point of a member access.
-/

namespace EnumInline.Text

def isPlainName (name : String) : Bool :=
  match name.toList with
  | [] => false
  | c :: rest => startsToken c && rest.all continuesToken

end EnumInline.Text
