import EnumInline.Enum.Evaluation
import EnumInline.Resolution.Aliases
import EnumInline.Table.Build

/-!
The analysis of a project: its modules are linked through their imports and exports, the members of their
enums are evaluated, and the replacements for each file are collected. The analysis of modules in memory
is a function of them; no file is read here.
-/

namespace EnumInline

/-- The modules of a project, with the declarations they make and the declarations that their imports and
exports stand for. -/
structure Project where
  modules : List SourceModule
  resolver : Resolver
  index : Enum.Index
  bindings : BindingGraph

namespace Project

/-- The path of each module. Of files that are one module, the first counts. -/
def pathsOf (modules : List SourceModule) : Std.ExtTreeMap String String :=
  modules.foldl (fun paths module => paths.insertIfNew module.id module.path) ∅

/-- The resolver of a project, to which the modules of the project are known. -/
def resolverOf (aliases : Aliases) (modules : List SourceModule) : Resolver :=
  ⟨.ofList (modules.map (·.id)), aliases.mappings, aliases.baseUrl⟩

def link (aliases : Aliases) (modules : List SourceModule) : Project :=
  let resolver := resolverOf aliases modules
  let index := Enum.Index.ofModules modules
  ⟨modules, resolver, index, BindingGraph.build resolver index modules⟩

end Project

/-- A project with the values of its members and its table of replacements. -/
structure Analysis where
  project : Project
  values : Enum.Values
  table : ReplacementTable

namespace Analysis

/-- Evaluates the members of a project and collects its replacements. Within the file that declares an
enum its members are replaced only if `inlineLocal` holds. -/
def ofProject (inlineLocal : Bool) (project : Project) : Except MemberFailure Analysis :=
  (Enum.evaluate project.index project.bindings).map fun values =>
    ⟨project, values,
      ReplacementTable.build project.index project.bindings values inlineLocal project.modules⟩

def ofModules (aliases : Aliases) (inlineLocal : Bool) (modules : List SourceModule) :
    Except MemberFailure Analysis :=
  ofProject inlineLocal (Project.link aliases modules)

def value? (analysis : Analysis) (key : MemberKey) : Option MemberValue := analysis.values[key]?

def membersOf? (analysis : Analysis) (key : DeclarationKey) : Option (List (String × MemberValue)) :=
  analysis.project.index[key]?.map (analysis.values.membersOf key)

end Analysis

end EnumInline
