/-!
The names that cannot stand for a variable.
-/

namespace EnumInline.TypeScript

/-- The words that no source may use as the name of a variable. -/
def keywords : List String :=
  ["break", "case", "catch", "class", "const", "continue", "debugger", "default", "delete", "do", "else",
    "enum", "export", "extends", "false", "finally", "for", "function", "if", "import", "in",
    "instanceof", "new", "null", "package", "return", "super", "switch", "this", "throw", "true", "try",
    "typeof", "var", "void", "while", "with"]

def moduleKeywords : List String :=
  ["await", "implements", "interface", "let", "private", "protected", "public", "yield"]

/-- The names that must not be bound, though they can be read where a variable is named. -/
def unbindableNames : List String :=
  ["arguments", "enum", "eval", "implements", "interface", "let", "package", "private", "protected",
    "public", "static", "yield"]

def isKeyword (text : String) : Bool := keywords.contains text

/-- Whether a name cannot stand for a variable of a module. -/
def isReserved (text : String) : Bool := isKeyword text || moduleKeywords.contains text

end EnumInline.TypeScript
