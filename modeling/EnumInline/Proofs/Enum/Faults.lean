import EnumInline.Proofs.Enum.Origins
import EnumInline.Proofs.Text.ByteOrder

/-!
Members that no analysis can evaluate, told from the project as it is written:
their initializer is no constant, or it names something that is not there. The
members of a project have one order, that of the bytes of their module and of
their enum and then that of their declaration; the evaluation stops at the
first faulty member in it.
-/

namespace EnumInline.Enum

section Meaning

variable (index : Index) (bindings : BindingGraph)

/-- A member is faulty, whatever the values of other members are. -/
inductive Fault (key : MemberKey) (position : Nat) : MemberCause → Prop where
  | unsupported {form : UnsupportedForm}
      (hmember : IsMember index key position (.unsupported form)) :
      Fault key position (.unsupported form.description)
  | notAMember {name : String}
      (hmember : IsMember index key position (.reference none name))
      (hname : ∀ there initializer,
        ¬ IsMember index ⟨key.declaration, name⟩ there initializer) :
      Fault key position (.notAMember name key.declaration.name)
  | unknownQualifier {qualifier member : String}
      (hmember : IsMember index key position (.reference (some qualifier) member))
      (hown : ⟨key.declaration.module, qualifier⟩ ∉ index)
      (himport : bindings.hasImport key.declaration.module qualifier = false) :
      Fault key position (.unknownQualifier qualifier)
  | noSuchMember {qualifier member : String} {target : DeclarationKey}
      (hmember : IsMember index key position (.reference (some qualifier) member))
      (htarget : Denotes index bindings key.declaration (some qualifier) target)
      (hindex : target ∈ index)
      (hname : ∀ there initializer,
        ¬ IsMember index ⟨target, member⟩ there initializer) :
      Fault key position (.noSuchMember qualifier member)

/-- A faulty member before which there is no other. -/
def FirstFault (key : MemberKey) (position : Nat) (cause : MemberCause) : Prop :=
  Fault index bindings key position cause ∧
    ∀ other there reason, Fault index bindings other there reason →
      key.declaration.Precedes other.declaration ∨
        key.declaration = other.declaration ∧ position ≤ there

end Meaning

variable {index : Index} {bindings : BindingGraph}

theorem Fault.isMember {key : MemberKey} {position : Nat} {cause : MemberCause}
    (h : Fault index bindings key position cause) :
    ∃ initializer, IsMember index key position initializer := by
  cases h with
  | unsupported hmember => exact ⟨_, hmember⟩
  | notAMember hmember _ => exact ⟨_, hmember⟩
  | unknownQualifier hmember _ _ => exact ⟨_, hmember⟩
  | noSuchMember hmember _ _ _ => exact ⟨_, hmember⟩

namespace Evaluation

theorem hasMember_eq_false {key : DeclarationKey} {declaration : Declaration}
    (hindex : index[key]? = some declaration) {name : String} :
    declaration.hasMember name = false ↔
      ∀ position initializer, ¬ IsMember index ⟨key, name⟩ position initializer := by
  constructor
  · rintro hnone position initializer ⟨same, hsame, hposition⟩
    obtain rfl := Option.some.inj (hindex.symm.trans hsame)
    have hmem : (⟨name, initializer⟩ : Member) ∈ declaration.members :=
      List.mem_of_getElem? hposition
    have hname : declaration.hasMember name = true :=
      List.any_eq_true.mpr ⟨_, hmem, by simp⟩
    rw [hnone] at hname
    cases hname
  · intro hnever
    cases hname : declaration.hasMember name with
    | false => rfl
    | true =>
      obtain ⟨position, initializer, hmember⟩ :=
        exists_member_of_hasMember hindex hname
      exact absurd hmember (hnever position initializer)

theorem qualified_error_iff {module qualifier : String} {cause : MemberCause} :
    qualified index bindings module qualifier = .error cause ↔
      cause = .unknownQualifier qualifier ∧ ⟨module, qualifier⟩ ∉ index ∧
        bindings.hasImport module qualifier = false := by
  by_cases hown : ⟨module, qualifier⟩ ∈ index
  · simp [qualified, hown]
  · cases himport : bindings.hasImport module qualifier with
    | true => simp [qualified, hown, himport]
    | false => simp [qualified, hown, himport, eq_comm]

theorem qualifiedOrigin_error {key : MemberKey} {position : Nat}
    {qualifier member : String} {cause : MemberCause}
    (hmember : IsMember index key position (.reference (some qualifier) member))
    (h : qualifiedOrigin index bindings key.declaration.module qualifier member =
      .error cause) : Fault index bindings key position cause := by
  unfold qualifiedOrigin at h
  split at h
  case h_1 cause hqualified =>
    cases h
    obtain ⟨rfl, hown, himport⟩ := qualified_error_iff.mp hqualified
    exact .unknownQualifier hmember hown himport
  case h_2 => cases h
  case h_3 target hqualified =>
    split at h
    case h_1 => cases h
    case h_2 declaration hindex =>
      split at h
      case isTrue => cases h
      case isFalse hname =>
        cases h
        have htarget : Denotes index bindings key.declaration (some qualifier)
            target := by
          rcases qualified_ok hqualified with ⟨hown, hsome⟩ | ⟨hown, _, himport⟩
          · cases hsome
            exact .own hown
          · exact .imported hown himport.symm
        exact .noSuchMember hmember htarget
          (KeyedList.mem_iff_exists.mpr ⟨declaration, hindex⟩)
          ((hasMember_eq_false hindex).mp (by simpa using hname))

theorem fault_of_origin {key : MemberKey} {declaration : Declaration}
    {position : Nat} {initializer : Initializer} {previous : Option String}
    {cause : MemberCause} (hindex : index[key.declaration]? = some declaration)
    (hmember : IsMember index key position initializer)
    (h : Evaluation.origin index bindings key.declaration declaration previous
      initializer = .error cause) : Fault index bindings key position cause := by
  cases initializer with
  | literal operator constant => cases h
  | implicit => cases previous <;> cases h
  | unsupported form =>
    cases h
    exact .unsupported hmember
  | reference qualifier member =>
    cases qualifier with
    | none =>
      simp only [Evaluation.origin] at h
      split at h
      case isTrue => cases h
      case isFalse hname =>
        cases h
        exact .notAMember hmember
          ((hasMember_eq_false hindex).mp (by simpa using hname))
    | some qualifier => exact qualifiedOrigin_error hmember h

theorem qualifiedOrigin_error_of_denotes {key target : DeclarationKey}
    {qualifier member : String}
    (htarget : Denotes index bindings key (some qualifier) target)
    (hindex : target ∈ index)
    (hname : ∀ there initializer,
      ¬ IsMember index ⟨target, member⟩ there initializer) :
    ∃ cause, qualifiedOrigin index bindings key.module qualifier member =
      .error cause := by
  have hmissing : qualified index bindings key.module qualifier =
      .ok (some target) →
      qualifiedOrigin index bindings key.module qualifier member =
        .error (.noSuchMember qualifier member) := by
    intro hqualified
    obtain ⟨declaration, hdeclaration⟩ := KeyedList.mem_iff_exists.mp hindex
    have hnone := (hasMember_eq_false hdeclaration).mpr hname
    simp [qualifiedOrigin, hqualified, hdeclaration, hnone]
  cases htarget with
  | own hown => exact ⟨_, hmissing (by simp [qualified, hown])⟩
  | imported hown himport =>
    cases hstated : bindings.hasImport key.module qualifier with
    | true => exact ⟨_, hmissing (by simp [qualified, hown, hstated, himport])⟩
    | false =>
      refine ⟨.unknownQualifier qualifier, ?_⟩
      rw [qualifiedOrigin, qualified_error_iff.mpr ⟨rfl, hown, hstated⟩]

theorem origin_of_fault (hdistinct : DistinctMembers index) {key : MemberKey}
    {declaration : Declaration} {position there : Nat}
    {initializer : Initializer} {previous : Option String} {cause : MemberCause}
    (hindex : index[key.declaration]? = some declaration)
    (hmember : IsMember index key there initializer)
    (h : Fault index bindings key position cause) :
    ∃ reason, Evaluation.origin index bindings key.declaration declaration previous
      initializer = .error reason := by
  cases h with
  | unsupported hsame =>
    cases (hmember.unique hdistinct hsame).2
    exact ⟨_, rfl⟩
  | @notAMember name hsame hname =>
    cases (hmember.unique hdistinct hsame).2
    have hnone := (hasMember_eq_false hindex).mpr hname
    exact ⟨.notAMember name key.declaration.name, by simp [Evaluation.origin, hnone]⟩
  | @unknownQualifier qualifier member hsame hown himport =>
    cases (hmember.unique hdistinct hsame).2
    refine ⟨.unknownQualifier qualifier, ?_⟩
    rw [Evaluation.origin, qualifiedOrigin,
      qualified_error_iff.mpr ⟨rfl, hown, himport⟩]
  | noSuchMember hsame htarget hthere hname =>
    cases (hmember.unique hdistinct hsame).2
    exact qualifiedOrigin_error_of_denotes htarget hthere hname

theorem Place.fault_of_error {place : Place} (hplace : place ∈ places index.toList)
    {failure : MemberFailure} (h : place.origin index bindings = .error failure) :
    ∃ position cause, Fault index bindings place.memberKey position cause ∧
      failure = ⟨place.key.module, place.key.name, place.member.name, cause⟩ := by
  obtain ⟨hindex, position, hposition, _⟩ := mem_places.mp hplace
  unfold Place.origin at h
  split at h
  case h_1 cause horigin =>
    cases h
    have hmember :
        IsMember index place.memberKey position place.member.initializer :=
      ⟨place.declaration, hindex, hposition⟩
    exact ⟨position, cause, fault_of_origin hindex hmember horigin, rfl⟩
  case h_2 => cases h

theorem exists_place_of_fault (hdistinct : DistinctMembers index)
    {key : MemberKey} {position : Nat} {cause : MemberCause}
    (h : Fault index bindings key position cause) :
    ∃ place ∈ places index.toList, place.memberKey = key ∧
      ∃ failure, place.origin index bindings = .error failure := by
  obtain ⟨initializer, hmember⟩ := h.isMember
  obtain ⟨place, hplace, rfl⟩ := exists_place hmember
  obtain ⟨hindex, there, hposition, _⟩ := mem_places.mp hplace
  have hthere : IsMember index place.memberKey there place.member.initializer :=
    ⟨place.declaration, hindex, hposition⟩
  have horigin : ∃ reason, Evaluation.origin index bindings place.key
      place.declaration place.previous place.member.initializer = .error reason :=
    origin_of_fault hdistinct hindex hthere h
  obtain ⟨reason, horigin⟩ := horigin
  refine ⟨place, hplace, rfl,
    ⟨place.key.module, place.key.name, place.member.name, reason⟩, ?_⟩
  simp only [Place.origin, horigin]

/-- The member of one place comes before that of another. -/
def Place.Before (index : Index) (first second : Place) : Prop :=
  first.key.Precedes second.key ∨
    first.key = second.key ∧ ∃ position there, position < there ∧
      IsMember index first.memberKey position first.member.initializer ∧
      IsMember index second.memberKey there second.member.initializer

theorem map_member_placesOf {key : DeclarationKey} {declaration : Declaration}
    {previous : Option String} {members : List Member} :
    (placesOf key declaration previous members).map Place.member = members := by
  induction members generalizing previous with
  | nil => rfl
  | cons member rest ih => rw [placesOf, List.map_cons, ih]

theorem getElem?_members_of_placesOf {key : DeclarationKey}
    {declaration : Declaration} {previous : Option String} {members : List Member}
    {position : Nat}
    (h : position < (placesOf key declaration previous members).length) :
    members[position]? =
      some (placesOf key declaration previous members)[position].member := by
  have hmap : ((placesOf key declaration previous members).map
      Place.member)[position]? = members[position]? := by
    rw [map_member_placesOf]
  rw [← hmap, List.getElem?_map, List.getElem?_eq_getElem h]
  rfl

theorem placesOf_pairwise {key : DeclarationKey} {declaration : Declaration}
    (hindex : index[key]? = some declaration) :
    (placesOf key declaration none declaration.members).Pairwise
      (Place.Before index) := by
  rw [List.pairwise_iff_getElem]
  intro first second hfirst hsecond hlt
  have hkey (position : Nat) (h : position <
      (placesOf key declaration none declaration.members).length) :
      (placesOf key declaration none declaration.members)[position].key = key :=
    (mem_placesOf.mp (List.getElem_mem h)).1
  have hmember (position : Nat) (h : position <
      (placesOf key declaration none declaration.members).length) :
      IsMember index
        (placesOf key declaration none declaration.members)[position].memberKey
        position (placesOf key declaration none
          declaration.members)[position].member.initializer := by
    refine ⟨declaration, ?_, getElem?_members_of_placesOf h⟩
    rw [Place.memberKey, hkey position h, hindex]
  exact Or.inr ⟨(hkey first hfirst).trans (hkey second hsecond).symm, first, second,
    hlt, hmember first hfirst, hmember second hsecond⟩

/-- The members of a project are evaluated in their order. -/
theorem places_pairwise :
    (places index.toList).Pairwise (Place.Before index) := by
  rw [places, List.pairwise_flatMap]
  constructor
  · rintro ⟨key, declaration⟩ hentry
    exact placesOf_pairwise
      (Std.ExtTreeMap.mem_toList_iff_getElem?_eq_some.mp hentry)
  · refine Std.ExtTreeMap.ordered_keys_toList.imp ?_
    rintro ⟨key, declaration⟩ ⟨other, another⟩ hlt first hfirst second hsecond
    obtain ⟨rfl, _⟩ := mem_placesOf.mp hfirst
    obtain ⟨rfl, _⟩ := mem_placesOf.mp hsecond
    exact Or.inl (DeclarationKey.compare_eq_lt_iff_precedes.mp hlt)

/-- A faulty member is the first if the places before its own have origins. -/
theorem firstFault_of_places (hdistinct : DistinctMembers index)
    {earlier later : List Place} {place : Place}
    (hplaces : places index.toList = earlier ++ place :: later)
    (hearlier : ∀ other ∈ earlier,
      ∃ origin, other.origin index bindings = .ok origin)
    {position : Nat} {cause : MemberCause}
    (hfault : Fault index bindings place.memberKey position cause) :
    FirstFault index bindings place.memberKey position cause := by
  refine ⟨hfault, ?_⟩
  intro key there reason hother
  obtain ⟨other, hmem, rfl, _, herror⟩ := exists_place_of_fault hdistinct hother
  obtain ⟨_, hmember⟩ := hfault.isMember
  obtain ⟨_, hanother⟩ := hother.isMember
  rw [hplaces] at hmem
  rcases List.mem_append.mp hmem with hbefore | hafter
  · obtain ⟨_, hok⟩ := hearlier other hbefore
    cases herror.symm.trans hok
  · rcases List.mem_cons.mp hafter with rfl | hafter
    · exact Or.inr ⟨rfl, (hmember.unique hdistinct hanother).1.le⟩
    · have hpairwise : (earlier ++ place :: later).Pairwise (Place.Before index) :=
        hplaces ▸ places_pairwise
      obtain ⟨_, hrest, _⟩ := List.pairwise_append.mp hpairwise
      rcases (List.pairwise_cons.mp hrest).1 other hafter with hprecedes |
          ⟨hkey, first, second, hlt, hsame, hthere⟩
      · exact Or.inl hprecedes
      · obtain ⟨rfl, _⟩ := hmember.unique hdistinct hsame
        obtain ⟨rfl, _⟩ := hanother.unique hdistinct hthere
        exact Or.inr ⟨hkey, hlt.le⟩

/-- Where the origins are not found, the failure names the first
faulty member. -/
theorem origins_error (hdistinct : DistinctMembers index) {failure : MemberFailure}
    (h : origins index bindings index.toList = .error failure) :
    ∃ key position cause, FirstFault index bindings key position cause ∧
      failure =
        ⟨key.declaration.module, key.declaration.name, key.member, cause⟩ := by
  rw [origins_eq_mapM] at h
  obtain ⟨earlier, place, later, hplaces, herror, hearlier⟩ := mapM_error h
  have hplace : place ∈ places index.toList := by simp [hplaces]
  obtain ⟨position, cause, hfault, rfl⟩ := Place.fault_of_error hplace herror
  exact ⟨place.memberKey, position, cause,
    firstFault_of_places hdistinct hplaces hearlier hfault, rfl⟩

theorem not_faulty_of_origins (hdistinct : DistinctMembers index)
    {found : List (MemberKey × Origin)}
    (h : origins index bindings index.toList = .ok found) {key : MemberKey}
    {position : Nat} {cause : MemberCause} :
    ¬ Fault index bindings key position cause := by
  intro hfault
  obtain ⟨place, hplace, _, failure, herror⟩ := exists_place_of_fault hdistinct hfault
  rw [origins_eq_mapM] at h
  obtain ⟨_, _, hfound⟩ := (mapM_ok h).1 place hplace
  cases herror.symm.trans hfound

end Evaluation

end EnumInline.Enum
