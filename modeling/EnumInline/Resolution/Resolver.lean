import EnumInline.ModuleId
import EnumInline.Resolution.PathMapping
import Std.Data.ExtTreeSet

/-!
From the specifier of an import to the module that it means. Only modules that are known count; no file
system is asked.
-/

namespace EnumInline

structure Resolver where
  known : Std.ExtTreeSet String
  /-- Aliases in the order in which they are tried. -/
  aliases : List PathMapping
  /-- The directory in which specifiers without a path are looked for. -/
  baseUrl : Option String

namespace Resolver

def isKnown (resolver : Resolver) (id : String) : Bool := resolver.known.contains id

def isRelative (specifier : String) : Bool :=
  specifier == "." || specifier == ".." || "./".toList.isPrefixOf specifier.toList ||
    "../".toList.isPrefixOf specifier.toList

def isAbsolute (specifier : String) : Bool := specifier.toList.head? == some '/'

/-- The module at a path. A path that is no known module means its index if that is known. -/
def moduleAt (resolver : Resolver) (path : String) : String :=
  let id := ModuleId.stripSpecifierExtension (Path.normalize path)
  let index := Path.below id "index"
  if !resolver.isKnown id && resolver.isKnown index then index else id

/-- The modules that the first fitting alias offers for a specifier, in order. -/
def candidates (resolver : Resolver) (specifier : String) : List String :=
  match resolver.aliases.findSome? fun mapping =>
    (mapping.captured? specifier).map fun captured => mapping.substitute captured with
  | none => []
  | some targets => targets.map resolver.moduleAt

/-- The first known candidate of an alias, or else its first. -/
def resolveAlias? (resolver : Resolver) (specifier : String) : Option String :=
  let candidates := resolver.candidates specifier
  (candidates.find? resolver.isKnown).or candidates.head?

def resolveBase? (resolver : Resolver) (specifier : String) : Option String :=
  (resolver.baseUrl.map fun base => resolver.moduleAt (Path.below base specifier)).filter
    resolver.isKnown

/-- The module that `specifier` means in the module `importer`. A specifier that leads nowhere names
something outside the project and stays as it is. -/
def resolve (resolver : Resolver) (specifier importer : String) : String :=
  if isRelative specifier then resolver.moduleAt (Path.below (Path.parent importer) specifier)
  else if isAbsolute specifier then resolver.moduleAt specifier
  else ((resolver.resolveAlias? specifier).or (resolver.resolveBase? specifier)).getD specifier

end Resolver

end EnumInline
