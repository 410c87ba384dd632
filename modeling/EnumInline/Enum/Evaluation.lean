import EnumInline.Binding.Graph
import EnumInline.Enum.Value

/-!
The values of all members of a project. A literal is its own value, a reference has the value of the
member it names, and a member without an initializer counts on from the one before it. Members wait for
each other across modules; those on a cycle, and those behind an import that leads nowhere, get no
value.
-/

namespace EnumInline.Enum

/-- How the value of a member comes from the member it waits for. -/
inductive Rule where
  | copy
  | increment
  deriving DecidableEq, Repr

/-- Where the value of a member comes from. -/
inductive Origin where
  | value (value : MemberValue)
  | waits (awaited : MemberKey) (rule : Rule)
  /-- The member refers through an import that leads nowhere. -/
  | nowhere
  deriving DecidableEq, Repr

abbrev Values := Std.ExtTreeMap MemberKey MemberValue

namespace Evaluation

private def failure (key : DeclarationKey) (member : String) (cause : MemberCause) : MemberFailure :=
  ⟨key.module, key.name, member, cause⟩

/-- What a qualifier means in a module: the constant enum of that name or else the import of that name.
An import that leads nowhere means nothing, which is no failure. -/
def qualified (index : Index) (bindings : BindingGraph) (module qualifier : String) :
    Except MemberCause (Option DeclarationKey) :=
  let localKey : DeclarationKey := ⟨module, qualifier⟩
  if localKey ∈ index then .ok (some localKey)
  else if bindings.hasImport module qualifier then .ok (bindings.importTarget? module qualifier)
  else .error (.unknownQualifier qualifier)

/-- The member that a reference through a qualifier names. -/
def qualifiedOrigin (index : Index) (bindings : BindingGraph) (module qualifier member : String) :
    Except MemberCause Origin :=
  match qualified index bindings module qualifier with
  | .error cause => .error cause
  | .ok none => .ok .nowhere
  | .ok (some key) =>
      match index[key]? with
      | none => .ok .nowhere
      | some declaration =>
          if declaration.hasMember member then .ok (.waits ⟨key, member⟩ .copy)
          else .error (.noSuchMember qualifier member)

/-- Where a member gets its value, `previous` being the member before it. -/
def origin (index : Index) (bindings : BindingGraph) (key : DeclarationKey)
    (declaration : Declaration) (previous : Option String) :
    Initializer → Except MemberCause Origin
  | .literal operator constant => .ok (.value ⟨operator, constant⟩)
  | .implicit =>
      match previous with
      | none => .ok (.value (.ordinal .zero))
      | some previous => .ok (.waits ⟨key, previous⟩ .increment)
  | .reference none member =>
      if declaration.hasMember member then .ok (.waits ⟨key, member⟩ .copy)
      else .error (.notAMember member key.name)
  | .reference (some qualifier) member =>
      qualifiedOrigin index bindings key.module qualifier member
  | .unsupported form => .error (.unsupported form.description)

/-- The origins of the members of a declaration, in their order, up to the first failure. -/
def originsOf (index : Index) (bindings : BindingGraph) (key : DeclarationKey)
    (declaration : Declaration) :
    (previous : Option String) → List Member → Except MemberFailure (List (MemberKey × Origin))
  | _, [] => .ok []
  | previous, member :: rest =>
      match origin index bindings key declaration previous member.initializer with
      | .error cause => .error (failure key member.name cause)
      | .ok found =>
          (originsOf index bindings key declaration (some member.name) rest).map
            ((⟨key, member.name⟩, found) :: ·)

def origins (index : Index) (bindings : BindingGraph) :
    List (DeclarationKey × Declaration) → Except MemberFailure (List (MemberKey × Origin))
  | [] => .ok []
  | (key, declaration) :: rest =>
      match originsOf index bindings key declaration none declaration.members with
      | .error failure => .error failure
      | .ok found => (origins index bindings rest).map (found ++ ·)

/-- The members with a value of their own. -/
def seeds (origins : List (MemberKey × Origin)) : List (MemberKey × MemberValue) :=
  origins.filterMap fun (key, origin) =>
    match origin with
    | .value value => some (key, value)
    | _ => none

/-- For each member, the members that wait for it, in order. -/
def waiting (origins : List (MemberKey × Origin)) : Std.ExtTreeMap MemberKey (List MemberKey) :=
  origins.foldl
    (fun waiting (key, origin) =>
      match origin with
      | .waits awaited _ => waiting.insert awaited (waiting.getD awaited [] ++ [key])
      | _ => waiting) ∅

/-- For each member that waits, its rule; the last counts if a name is repeated. -/
def rules (origins : List (MemberKey × Origin)) : Std.ExtTreeMap MemberKey Rule :=
  origins.foldl
    (fun rules (key, origin) =>
      match origin with
      | .waits _ rule => rules.insert key rule
      | _ => rules) ∅

/-- The value of a member that waits, from the value it waited for. Only a number can be counted on
from. -/
def derive (rules : Std.ExtTreeMap MemberKey Rule) (key : MemberKey) (awaited : MemberValue) :
    Except MemberFailure (Option MemberValue) :=
  match rules[key]? with
  | none => .ok none
  | some .copy => .ok (some awaited)
  | some .increment =>
      match awaited.next? with
      | some value => .ok (some value)
      | none => .error (failure key.declaration key.member (.followsNonNumeric awaited.text))

def propagation (origins : List (MemberKey × Origin)) :
    Propagation MemberKey MemberValue MemberFailure :=
  let waiting := waiting origins
  let rules := rules origins
  { dependents := fun key => waiting.getD key [], derive := derive rules }

end Evaluation

def evaluate (index : Index) (bindings : BindingGraph) : Except MemberFailure Values :=
  match Evaluation.origins index bindings index.toList with
  | .error failure => .error failure
  | .ok origins =>
      (Evaluation.propagation origins).propagate origins.length (Evaluation.seeds origins)

def Values.membersOf (values : Values) (key : DeclarationKey) (declaration : Declaration) :
    List (String × MemberValue) :=
  declaration.members.filterMap fun member =>
    values[(⟨key, member.name⟩ : MemberKey)]?.map fun value => (member.name, value)

end EnumInline.Enum
