import EnumInline.Path.Lexical

/-!
The identity of a module: its normalized path without the extension of a source file. Files that differ
in their extension only are one module.
-/

namespace EnumInline.ModuleId

open Text

/-- The extensions of source files; the first that fits counts. -/
def sourceExtensions : List String :=
  [".d.mts", ".d.cts", ".d.ts", ".tsx", ".mts", ".cts", ".ts", ".svelte", ".vue"]

/-- The extensions of compiled files, which a specifier may carry instead. -/
def compiledExtensions : List String := [".jsx", ".mjs", ".cjs", ".js"]

/-- The path without the first extension that fits. A path whose last segment is a mere extension has
nothing to take away. -/
def dropExtension? (extensions : List String) (path : List Char) : Option (List Char) :=
  (extensions.findSome? fun extension => dropEnd? extension.toList path).filter fun stem =>
    !stem.isEmpty && stem.getLast? != some '/'

def stripSourceExtension : String → String :=
  onChars fun path => (dropExtension? sourceExtensions path).getD path

/-- The path without a source extension or, if it has none, without the extension of a compiled file. -/
def stripSpecifierExtension : String → String :=
  onChars fun path =>
    ((dropExtension? sourceExtensions path).or (dropExtension? compiledExtensions path)).getD path

def ofPath (path : String) : String := stripSourceExtension (Path.normalize path)

def tableKey (path : String) : String := Path.normalize path

end EnumInline.ModuleId
