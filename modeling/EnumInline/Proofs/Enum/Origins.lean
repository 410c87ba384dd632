import EnumInline.Proofs.Enum.Meaning
import EnumInline.Proofs.Outcome

/-!
Where the values of members come from. The members of all enums stand in a
row; each has one origin, which fits its initializer. The origins are found
for all members or the first that has none stops the evaluation.
-/

namespace EnumInline.Enum.Evaluation

/-- A member in its enum, with the name of the member before it. -/
structure Place where
  key : DeclarationKey
  declaration : Declaration
  previous : Option String
  member : Member

namespace Place

def memberKey (place : Place) : MemberKey := ⟨place.key, place.member.name⟩

def origin (index : Index) (bindings : BindingGraph) (place : Place) :
    Except MemberFailure (MemberKey × Origin) :=
  match Evaluation.origin index bindings place.key place.declaration place.previous
      place.member.initializer with
  | .error cause =>
      .error ⟨place.key.module, place.key.name, place.member.name, cause⟩
  | .ok origin => .ok (place.memberKey, origin)

end Place

def placesOf (key : DeclarationKey) (declaration : Declaration) :
    (previous : Option String) → List Member → List Place
  | _, [] => []
  | previous, member :: rest =>
      ⟨key, declaration, previous, member⟩ ::
        placesOf key declaration (some member.name) rest

/-- All members in the order of their evaluation. -/
def places (declarations : List (DeclarationKey × Declaration)) : List Place :=
  declarations.flatMap fun (key, declaration) =>
    placesOf key declaration none declaration.members

variable {index : Index} {bindings : BindingGraph}

theorem originsOf_eq_mapM {key : DeclarationKey} {declaration : Declaration}
    {previous : Option String} {members : List Member} :
    originsOf index bindings key declaration previous members =
      (placesOf key declaration previous members).mapM
        (Place.origin index bindings) := by
  induction members generalizing previous with
  | nil => rfl
  | cons member rest ih =>
    simp only [originsOf, placesOf, List.mapM_cons, Place.origin, ih]
    cases origin index bindings key declaration previous member.initializer with
    | error cause => rfl
    | ok found => rfl

/-- The origins of all members are found one by one. -/
theorem origins_eq_mapM {declarations : List (DeclarationKey × Declaration)} :
    origins index bindings declarations =
      (places declarations).mapM (Place.origin index bindings) := by
  induction declarations with
  | nil => rfl
  | cons entry rest ih =>
    obtain ⟨key, declaration⟩ := entry
    have hplaces : places ((key, declaration) :: rest) =
        placesOf key declaration none declaration.members ++ places rest := by
      simp [places]
    rw [origins, originsOf_eq_mapM, ih, hplaces, List.mapM_append]
    cases (placesOf key declaration none declaration.members).mapM
        (Place.origin index bindings) with
    | error failure => rfl
    | ok found => rfl

theorem mem_placesOf {key : DeclarationKey} {declaration : Declaration}
    {previous : Option String} {members : List Member} {place : Place} :
    place ∈ placesOf key declaration previous members ↔
      place.key = key ∧ place.declaration = declaration ∧
        ∃ position, members[position]? = some place.member ∧
          place.previous =
            match position with
            | 0 => previous
            | before + 1 => members[before]?.map Member.name := by
  induction members generalizing previous with
  | nil => simp [placesOf]
  | cons member rest ih =>
    rw [placesOf, List.mem_cons, ih]
    constructor
    · rintro (rfl | ⟨hkey, hdeclaration, position, hmember, hprevious⟩)
      · exact ⟨rfl, rfl, 0, rfl, rfl⟩
      · refine ⟨hkey, hdeclaration, position + 1, by simpa using hmember, ?_⟩
        cases position with
        | zero => simpa using hprevious
        | succ before => simpa using hprevious
    · rintro ⟨hkey, hdeclaration, position, hmember, hprevious⟩
      cases position with
      | zero =>
        obtain ⟨placeKey, placeDeclaration, placePrevious, placeMember⟩ := place
        simp_all
      | succ position =>
        refine Or.inr ⟨hkey, hdeclaration, position, by simpa using hmember, ?_⟩
        cases position with
        | zero => simpa using hprevious
        | succ before => simpa using hprevious

/-- The places of an index are its members. The name before a member is that of
the member at the position before. -/
theorem mem_places {place : Place} :
    place ∈ places index.toList ↔
      index[place.key]? = some place.declaration ∧
        ∃ position, place.declaration.members[position]? = some place.member ∧
          place.previous =
            match position with
            | 0 => none
            | before + 1 => place.declaration.members[before]?.map Member.name := by
  simp only [places, List.mem_flatMap, Prod.exists, mem_placesOf,
    Std.ExtTreeMap.mem_toList_iff_getElem?_eq_some]
  constructor
  · rintro ⟨key, declaration, hindex, rfl, rfl, hplace⟩
    exact ⟨hindex, hplace⟩
  · rintro ⟨hindex, hplace⟩
    exact ⟨place.key, place.declaration, hindex, rfl, rfl, hplace⟩

/-- The origin that the initializer of a member calls for at its position. -/
inductive Fits (index : Index) (bindings : BindingGraph) (key : MemberKey) :
    Nat → Initializer → Origin → Prop where
  | literal {position : Nat} {operator : Option PrefixOperator}
      {constant : Literal} :
      Fits index bindings key position (.literal operator constant)
        (.value ⟨operator, constant⟩)
  | first : Fits index bindings key 0 .implicit (.value (.ordinal .zero))
  | next {position : Nat} {previous : String} {initializer : Initializer}
      (hprevious :
        IsMember index ⟨key.declaration, previous⟩ position initializer) :
      Fits index bindings key (position + 1) .implicit
        (.waits ⟨key.declaration, previous⟩ .increment)
  | reference {position : Nat} {qualifier : Option String} {member : String}
      {target : DeclarationKey} {there : Nat} {initializer : Initializer}
      (htarget : Denotes index bindings key.declaration qualifier target)
      (hthere : IsMember index ⟨target, member⟩ there initializer) :
      Fits index bindings key position (.reference qualifier member)
        (.waits ⟨target, member⟩ .copy)
  | nowhere {position : Nat} {qualifier member : String}
      (hunlinked : Unlinked index bindings key.declaration qualifier) :
      Fits index bindings key position (.reference (some qualifier) member) .nowhere

theorem exists_member_of_hasMember {key : DeclarationKey}
    {declaration : Declaration} {name : String}
    (hindex : index[key]? = some declaration)
    (hname : declaration.hasMember name = true) :
    ∃ position initializer,
      IsMember index ⟨key, name⟩ position initializer := by
  obtain ⟨member, hmember, heq⟩ := List.any_eq_true.mp hname
  obtain rfl : member.name = name := by simpa using heq
  obtain ⟨position, hposition⟩ := List.mem_iff_getElem?.mp hmember
  exact ⟨position, member.initializer, declaration, hindex, hposition⟩

theorem qualified_ok {module qualifier : String} {found : Option DeclarationKey}
    (h : qualified index bindings module qualifier = .ok found) :
    (⟨module, qualifier⟩ ∈ index ∧ found = some ⟨module, qualifier⟩) ∨
      (⟨module, qualifier⟩ ∉ index ∧ bindings.hasImport module qualifier = true ∧
        found = bindings.importTarget? module qualifier) := by
  by_cases hown : ⟨module, qualifier⟩ ∈ index
  · simp only [qualified, hown, if_true] at h
    cases h
    exact Or.inl ⟨hown, rfl⟩
  · by_cases hname : bindings.hasImport module qualifier = true
    · simp only [qualified, hown, hname, if_true, if_false] at h
      cases h
      exact Or.inr ⟨hown, hname, rfl⟩
    · simp [qualified, hown, hname] at h

theorem qualifiedOrigin_fits {key : MemberKey} {position : Nat}
    {qualifier member : String} {origin : Origin} (h :
      qualifiedOrigin index bindings key.declaration.module qualifier member =
        .ok origin) :
    Fits index bindings key position (.reference (some qualifier) member)
      origin := by
  unfold qualifiedOrigin at h
  split at h
  case h_1 => cases h
  case h_2 hqualified =>
    cases h
    rcases qualified_ok hqualified with ⟨_, hsome⟩ | ⟨hown, hname, himport⟩
    · cases hsome
    · exact .nowhere (.unresolved hown hname himport.symm)
  case h_3 target hqualified =>
    split at h
    case h_1 hunknown =>
      cases h
      have hunknown : target ∉ index := by simpa using hunknown
      rcases qualified_ok hqualified with ⟨hown, hsome⟩ | ⟨hown, _, himport⟩
      · cases hsome
        exact absurd hown hunknown
      · exact .nowhere (.unknown hown himport.symm hunknown)
    case h_2 declaration hindex =>
      split at h
      case isTrue hmember =>
        cases h
        obtain ⟨there, initializer, hthere⟩ :=
          exists_member_of_hasMember hindex hmember
        rcases qualified_ok hqualified with ⟨hown, hsome⟩ | ⟨hown, _, himport⟩
        · cases hsome
          exact .reference (.own hown) hthere
        · exact .reference (.imported hown himport.symm) hthere
      case isFalse => cases h

theorem origin_fits {key : MemberKey} {declaration : Declaration} {position : Nat}
    {initializer : Initializer} {previous : Option String} {origin : Origin}
    (hindex : index[key.declaration]? = some declaration)
    (hprevious : previous =
      match position with
      | 0 => none
      | before + 1 => declaration.members[before]?.map Member.name)
    (hposition : position < declaration.members.length)
    (h : Evaluation.origin index bindings key.declaration declaration previous
      initializer = .ok origin) :
    Fits index bindings key position initializer origin := by
  cases initializer with
  | literal operator constant =>
    cases h
    exact .literal
  | unsupported form => cases h
  | implicit =>
    cases position with
    | zero =>
      subst hprevious
      cases h
      exact .first
    | succ before =>
      have hbefore : declaration.members[before]? =
          some declaration.members[before] := by
        simp
      subst hprevious
      simp only [hbefore, Option.map_some, Evaluation.origin] at h
      cases h
      exact .next ⟨declaration, hindex, hbefore⟩
  | reference qualifier member =>
    cases qualifier with
    | none =>
      simp only [Evaluation.origin] at h
      split at h
      case isTrue hmember =>
        cases h
        obtain ⟨there, initializer, hthere⟩ :=
          exists_member_of_hasMember hindex hmember
        exact .reference .same hthere
      case isFalse => cases h
    | some qualifier => exact qualifiedOrigin_fits h

/-- A member of the index has an origin. -/
def IsOrigin (index : Index) (bindings : BindingGraph) (key : MemberKey)
    (origin : Origin) : Prop :=
  ∃ position initializer, IsMember index key position initializer ∧
    Fits index bindings key position initializer origin

theorem Fits.unique {key : MemberKey} {position : Nat}
    {initializer : Initializer} {first second : Origin}
    (h : Fits index bindings key position initializer first)
    (hother : Fits index bindings key position initializer second) :
    first = second := by
  cases h with
  | literal =>
    cases hother
    rfl
  | first =>
    cases hother
    rfl
  | next hprevious =>
    cases hother with
    | next hsame =>
      obtain ⟨declaration, hdeclaration, hat⟩ := hprevious
      obtain ⟨other, hequal, hbefore⟩ := hsame
      obtain rfl : declaration = other :=
        Option.some.inj (hdeclaration.symm.trans hequal)
      cases hat.symm.trans hbefore
      rfl
  | reference htarget hthere =>
    cases hother with
    | reference hdenotes _ => rw [htarget.unique hdenotes]
    | nowhere hunlinked => exact absurd hthere.mem_index (hunlinked.not_mem htarget)
  | nowhere hunlinked =>
    cases hother with
    | reference hdenotes hthere =>
        exact absurd hthere.mem_index (hunlinked.not_mem hdenotes)
    | nowhere _ => rfl

theorem IsOrigin.unique_of_distinctIn {key : MemberKey}
    (hdistinct : DistinctIn index key.declaration) {first second : Origin}
    (h : IsOrigin index bindings key first)
    (hother : IsOrigin index bindings key second) : first = second := by
  obtain ⟨position, initializer, hmember, hfits⟩ := h
  obtain ⟨other, same, hsame, hothers⟩ := hother
  obtain ⟨rfl, rfl⟩ := hmember.unique_of_distinctIn hdistinct hsame
  exact hfits.unique hothers

theorem IsOrigin.unique (hdistinct : DistinctMembers index) {key : MemberKey}
    {first second : Origin} (h : IsOrigin index bindings key first)
    (hother : IsOrigin index bindings key second) : first = second :=
  h.unique_of_distinctIn (hdistinct key.declaration) hother

theorem Place.origin_ok {place : Place} (hplace : place ∈ places index.toList)
    {entry : MemberKey × Origin} (h : place.origin index bindings = .ok entry) :
    entry.1 = place.memberKey ∧ IsOrigin index bindings entry.1 entry.2 := by
  obtain ⟨hindex, position, hposition, hprevious⟩ := mem_places.mp hplace
  unfold Place.origin at h
  split at h
  case h_1 => cases h
  case h_2 origin horigin =>
    cases h
    have hlt : position < place.declaration.members.length :=
      (List.getElem?_eq_some_iff.mp hposition).1
    exact ⟨rfl, position, place.member.initializer,
      ⟨place.declaration, hindex, hposition⟩,
      origin_fits hindex hprevious hlt horigin⟩

theorem exists_place {key : MemberKey} {position : Nat}
    {initializer : Initializer} (h : IsMember index key position initializer) :
    ∃ place ∈ places index.toList, place.memberKey = key := by
  obtain ⟨declaration, hindex, hposition⟩ := h
  cases position with
  | zero =>
    exact ⟨⟨key.declaration, declaration, none, ⟨key.member, initializer⟩⟩,
      mem_places.mpr ⟨hindex, 0, hposition, rfl⟩, rfl⟩
  | succ before =>
    exact ⟨⟨key.declaration, declaration,
      declaration.members[before]?.map Member.name,
      ⟨key.member, initializer⟩⟩,
        mem_places.mpr ⟨hindex, before + 1, hposition, rfl⟩, rfl⟩

/-- An evaluation that finds all origins finds one for every member of
the index. -/
theorem exists_origin {found : List (MemberKey × Origin)}
    (h : origins index bindings index.toList = .ok found) {key : MemberKey}
    {position : Nat} {initializer : Initializer}
    (hmember : IsMember index key position initializer) :
    ∃ origin, (key, origin) ∈ found ∧ IsOrigin index bindings key origin := by
  rw [origins_eq_mapM] at h
  obtain ⟨place, hplace, rfl⟩ := exists_place hmember
  obtain ⟨⟨key, origin⟩, hmem, horigin⟩ := (mapM_ok h).1 place hplace
  obtain ⟨rfl, hfits⟩ := Place.origin_ok hplace horigin
  exact ⟨origin, hmem, hfits⟩

theorem isOrigin_of_mem {found : List (MemberKey × Origin)}
    (h : origins index bindings index.toList = .ok found) {key : MemberKey}
    {origin : Origin} (hmem : (key, origin) ∈ found) :
    IsOrigin index bindings key origin := by
  rw [origins_eq_mapM] at h
  obtain ⟨place, hplace, horigin⟩ := (mapM_ok h).2 _ hmem
  exact (Place.origin_ok hplace horigin).2

/-- The origins that are found are those of the members of the index. -/
theorem mem_origins_iff (hdistinct : DistinctMembers index)
    {found : List (MemberKey × Origin)}
    (h : origins index bindings index.toList = .ok found) {key : MemberKey}
    {origin : Origin} :
    (key, origin) ∈ found ↔ IsOrigin index bindings key origin := by
  constructor
  · exact isOrigin_of_mem h
  · intro horigin
    obtain ⟨position, initializer, hmember, _⟩ := id horigin
    obtain ⟨other, hmem, hother⟩ := exists_origin h hmember
    obtain rfl := hother.unique hdistinct horigin
    exact hmem

end EnumInline.Enum.Evaluation
