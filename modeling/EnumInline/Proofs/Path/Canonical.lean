import EnumInline.Proofs.Path.Lexical

/-!
The normal spelling of a path as a canonical form. None of its segments could be left out,
the parts of a path may be spelled normally before they are joined, and from the root the
spelling is that of the place which a walk along the segments reaches.
-/

namespace EnumInline.Path

open Text

variable {absolute : Bool} {path first second segment : List Char}
  {stack segments rest : List (List Char)}

/-- The path begins at the root. -/
def IsAbsolute (path : List Char) : Prop := (withSlashes path).head? = some '/'

instance : Decidable (IsAbsolute path) :=
  inferInstanceAs (Decidable ((withSlashes path).head? = some '/'))

/-- What stands between the slashes of a path, without the slash of the root. -/
def segmentsOf (path : List Char) : List (List Char) :=
  let behind := if path.head? = some '/' then path.tail else path
  if behind = [] then [] else splitWhere (· == '/') behind

/-- The place that segments lead to from another one; both have their innermost name first. A
step upwards leaves the innermost place, and at the root there is none to leave. -/
def walk (place : List (List Char)) : List (List Char) → List (List Char)
  | [] => place
  | segment :: rest =>
      if segment = [] ∨ segment = ['.'] then walk place rest
      else if segment = ['.', '.'] then walk place.tail rest
      else walk (segment :: place) rest

/-- The path is spelled without detours: nothing is empty or stands for the place itself, and
steps upwards only lead a path that is not to begin at the root. -/
structure IsCanonical (fromRoot : Prop) (path : List Char) : Prop where
  root : path.head? = some '/' ↔ fromRoot
  ne_nil : [] ∉ segmentsOf path
  ne_point : ['.'] ∉ segmentsOf path
  climbs : ∃ climbs names, segmentsOf path = List.replicate climbs ['.', '.'] ++ names ∧
    ['.', '.'] ∉ names ∧ (fromRoot → climbs = 0)

theorem head?_spell (h : ∀ segment ∈ segments, IsSegment segment) :
    (spell absolute segments).head? = some '/' ↔ absolute = true := by
  cases absolute with
  | true => simp [spell]
  | false => simpa [spell] using head?_intercalate_ne h

theorem segmentsOf_spell (h : ∀ segment ∈ segments, IsSegment segment) :
    segmentsOf (spell absolute segments) = segments := by
  have hbehind : (if (spell absolute segments).head? = some '/'
      then (spell absolute segments).tail else spell absolute segments) =
      List.intercalate ['/'] segments := by
    cases absolute with
    | true => simp [spell]
    | false => rw [if_neg (by simp [head?_spell h])]; rfl
  rw [segmentsOf, hbehind]
  cases segments with
  | nil => rfl
  | cons segment rest =>
    have hne : List.intercalate ['/'] (segment :: rest) ≠ [] := by
      have hsegment : segment ≠ [] := (h segment (by simp)).ne_nil
      cases rest with
      | nil => simpa [List.intercalate_singleton] using hsegment
      | cons next rest => simp [List.intercalate_cons_cons, hsegment]
    rw [if_neg hne, splitWhere_intercalate rfl (by simp) fun segment hsegment =>
      (h segment hsegment).isWhole]

/-- The steps upwards of a settled stack lie below all names. -/
theorem IsSettled.exists_climbs (h : IsSettled absolute stack) :
    ∃ climbs names, stack.reverse = List.replicate climbs ['.', '.'] ++ names ∧
      ['.', '.'] ∉ names ∧ (absolute = true → climbs = 0) := by
  induction stack with
  | nil => exact ⟨0, [], rfl, by simp, fun _ => rfl⟩
  | cons segment outer ih =>
    obtain ⟨-, hsteps, houter⟩ := h
    by_cases hup : segment = ['.', '.']
    · obtain ⟨rfl, hall⟩ := hsteps hup
      have hstack : segment :: outer = List.replicate (outer.length + 1) ['.', '.'] :=
        List.eq_replicate_iff.2 ⟨rfl, List.forall_mem_cons.2 ⟨hup, hall⟩⟩
      exact ⟨outer.length + 1, [], by rw [hstack, List.reverse_replicate, List.append_nil],
        by simp, by simp⟩
    · obtain ⟨climbs, names, hnames, hnot, habsolute⟩ := ih houter
      refine ⟨climbs, names ++ [segment], ?_, ?_, habsolute⟩
      · rw [List.reverse_cons, hnames, List.append_assoc]
      · simp [hnot, Ne.symm hup]

theorem isCanonical_spell (h : IsSettled absolute segments.reverse) :
    IsCanonical (absolute = true) (spell absolute segments) := by
  have hsegments : ∀ segment ∈ segments, IsSegment segment :=
    fun segment hsegment => h.isSegment segment (List.mem_reverse.2 hsegment)
  have hclimbs := h.exists_climbs
  rw [List.reverse_reverse] at hclimbs
  constructor
  case root => exact head?_spell hsegments
  all_goals rw [segmentsOf_spell hsegments]
  case ne_nil => exact fun hmem => (hsegments _ hmem).ne_nil rfl
  case ne_point => exact fun hmem => (hsegments _ hmem).ne_point rfl
  case climbs => exact hclimbs

/-- From the root, nothing on the way is a step upwards. -/
theorem IsSettled.ne_up (h : IsSettled true stack) : ∀ segment ∈ stack, segment ≠ ['.', '.'] := by
  induction stack with
  | nil => simp
  | cons segment outer ih =>
    refine List.forall_mem_cons.2 ⟨fun hup => ?_, ih h.2.2⟩
    have habsurd : true = false := (h.2.1 hup).1
    cases habsurd

theorem IsSettled.follow_up (h : IsSettled true stack) :
    Path.follow true stack ['.', '.'] = stack.tail := by
  cases stack with
  | nil => rfl
  | cons last outer =>
    have hlast : last ≠ ['.', '.'] := h.ne_up last (by simp)
    simp [Path.follow, hlast]

theorem follow_of_idle (h : segment = [] ∨ segment = ['.']) :
    follow absolute stack segment = stack := by
  unfold follow
  exact if_pos h

/-- From the root, following segments is walking along them. -/
theorem IsSettled.foldl_follow_eq_walk (h : IsSettled true stack)
    (hwhole : ∀ segment ∈ segments, ∀ c ∈ segment, c ≠ '/' ∧ c ≠ '\\') :
    segments.foldl (Path.follow true) stack = walk stack segments := by
  induction segments generalizing stack with
  | nil => rfl
  | cons segment rest ih =>
    obtain ⟨hsegment, hrest⟩ := List.forall_mem_cons.1 hwhole
    rw [List.foldl_cons, ih (h.follow hsegment) hrest, walk]
    split
    case isTrue hidle => rw [follow_of_idle hidle]
    case isFalse hidle =>
      obtain ⟨hnil, hpoint⟩ := not_or.1 hidle
      split
      case isTrue hup => rw [hup, h.follow_up]
      case isFalse hup => rw [follow_of_ne hnil hpoint hup]

/-- What a relative path still does after its detours have been taken out, one segment further. -/
theorem foldl_follow_follow (hrest : IsSettled false rest)
    (hwhole : ∀ c ∈ segment, c ≠ '/' ∧ c ≠ '\\') :
    (follow false rest segment).reverse.foldl (follow true) stack =
      follow true (rest.reverse.foldl (follow true) stack) segment := by
  have hpush {segment : List Char} : (segment :: rest).reverse.foldl (follow true) stack =
      follow true (rest.reverse.foldl (follow true) stack) segment := by
    rw [List.reverse_cons, List.foldl_append, List.foldl_cons, List.foldl_nil]
  by_cases hidle : segment = [] ∨ segment = ['.']
  · rw [follow_of_idle hidle, follow_of_idle hidle]
  obtain ⟨hnil, hpoint⟩ := not_or.1 hidle
  by_cases hup : segment = ['.', '.']
  case neg => rw [follow_of_ne hnil hpoint hup, hpush]
  subst hup
  cases rest with
  | nil => rfl
  | cons last outer =>
    by_cases hlast : last = ['.', '.']
    · have hkept : follow false (last :: outer) ['.', '.'] = ['.', '.'] :: last :: outer := by
        simp [follow, hlast]
      rw [hkept, hpush]
    · -- the step upwards leaves the name that was entered before
      have hleft : follow false (last :: outer) ['.', '.'] = outer := by simp [follow, hlast]
      have hentered : (last :: outer).reverse.foldl (follow true) stack =
          last :: outer.reverse.foldl (follow true) stack := by
        rw [List.reverse_cons, List.foldl_append, List.foldl_cons, List.foldl_nil,
          follow_of_ne hrest.1.ne_nil hrest.1.ne_point hlast]
      rw [hleft, hentered]
      simp [follow, hlast]

/-- The detours of a relative path may be taken out before it is followed from a place. -/
theorem foldl_follow_foldl_follow (hrest : IsSettled false rest)
    (hwhole : ∀ segment ∈ segments, ∀ c ∈ segment, c ≠ '/' ∧ c ≠ '\\') :
    (segments.foldl (follow false) rest).reverse.foldl (follow true) stack =
      segments.foldl (follow true) (rest.reverse.foldl (follow true) stack) := by
  induction segments generalizing rest with
  | nil => rfl
  | cons segment segments ih =>
    obtain ⟨hsegment, hsegments⟩ := List.forall_mem_cons.1 hwhole
    rw [List.foldl_cons, List.foldl_cons, ih (hrest.follow hsegment) hsegments,
      foldl_follow_follow hrest hsegment]

theorem foldl_follow_places :
    (places false (withSlashes path)).foldl (follow true) stack =
      (splitWhere (· == '/') (withSlashes path)).foldl (follow true) stack := by
  have hnone : IsSettled false [] := trivial
  exact foldl_follow_foldl_follow hnone fun segment => whole_of_mem_split

theorem normalizeChars_of_isAbsolute (h : IsAbsolute path) :
    normalizeChars path = spell true (places true (withSlashes path)) := by
  rw [normalizeChars, h]
  rfl

theorem normalizeChars_of_not_isAbsolute (h : ¬ IsAbsolute path) :
    normalizeChars path = spell false (places false (withSlashes path)) := by
  have hhead : ((withSlashes path).head? == some '/') = false := by simpa [IsAbsolute] using h
  rw [normalizeChars, hhead]

theorem isAbsolute_append (h : IsAbsolute first) : IsAbsolute (first ++ second) := by
  cases first with
  | nil => cases h
  | cons c first => exact h

theorem withSlashes_normalizeChars (path : List Char) :
    withSlashes (normalizeChars path) = normalizeChars path := by
  refine withSlashes_of_whole fun c => ne_backslash_of_mem_spell fun segment hsegment => ?_
  exact isSettled_places.isSegment segment (List.mem_reverse.2 hsegment)

theorem isAbsolute_normalizeChars (h : IsAbsolute path) : IsAbsolute (normalizeChars path) := by
  rw [IsAbsolute, withSlashes_normalizeChars, normalizeChars_of_isAbsolute h]
  rfl

theorem withSlashes_append_slash :
    withSlashes (first ++ '/' :: second) = withSlashes first ++ '/' :: withSlashes second :=
  withSlashes_append first ('/' :: second)

theorem foldl_follow_spell (h : ∀ segment ∈ segments, IsSegment segment) :
    (splitWhere (· == '/') (spell false segments)).foldl (follow absolute) stack =
      segments.foldl (follow absolute) stack := by
  have hspell : spell false segments = List.intercalate ['/'] segments := rfl
  cases segments with
  | nil => simp [hspell, splitWhere, follow_of_idle]
  | cons segment rest =>
    rw [hspell, splitWhere_intercalate rfl (by simp) fun segment hsegment =>
      (h segment hsegment).isWhole]

theorem places_append_slash :
    places absolute (first ++ '/' :: second) =
      ((splitWhere (· == '/') second).foldl (follow absolute)
        (places absolute first).reverse).reverse := by
  rw [places, splitWhere_append_mark rfl, List.foldl_append, places, List.reverse_reverse]

/-- A path may be spelled normally before another one is joined to it, and so may that one if it
is relative. -/
theorem normalizeChars_append_slash (hfirst : IsAbsolute first) (hsecond : ¬ IsAbsolute second) :
    normalizeChars (normalizeChars first ++ '/' :: normalizeChars second) =
      normalizeChars (first ++ '/' :: second) := by
  have hplaces : places true (normalizeChars first) = places true (withSlashes first) := by
    rw [normalizeChars_of_isAbsolute hfirst, places_spell isSettled_places]
  have hsegments : ∀ segment ∈ places false (withSlashes second), IsSegment segment :=
    fun segment hsegment => isSettled_places.isSegment segment (List.mem_reverse.2 hsegment)
  have hfollowed : (splitWhere (· == '/') (normalizeChars second)).foldl (follow true)
        (places true (withSlashes first)).reverse =
      (splitWhere (· == '/') (withSlashes second)).foldl (follow true)
        (places true (withSlashes first)).reverse := by
    rw [normalizeChars_of_not_isAbsolute hsecond, foldl_follow_spell hsegments,
      foldl_follow_places]
  rw [normalizeChars_of_isAbsolute (isAbsolute_append (isAbsolute_normalizeChars hfirst)),
    normalizeChars_of_isAbsolute (isAbsolute_append hfirst), withSlashes_append_slash,
    withSlashes_append_slash, withSlashes_normalizeChars, withSlashes_normalizeChars,
    places_append_slash, places_append_slash, hplaces, hfollowed]

theorem toList_normalize (path : String) :
    (normalize path).toList = normalizeChars path.toList :=
  String.toList_ofList

/-- The normal spelling of a path is canonical. Spelling it again changes nothing, and none of
its segments is empty, stands for the place itself or leads upwards where there is something to
leave. From the root it may be taken of the parts of a path before they are joined, and it spells
the place that the segments lead to. -/
theorem normalize_isCanonical (path : String) :
    normalize (normalize path) = normalize path ∧
      IsCanonical (IsAbsolute path.toList) (normalize path).toList ∧
      (IsAbsolute path.toList → ∀ name : String, ¬ IsAbsolute name.toList →
        normalize (below path name) = normalize (below (normalize path) (normalize name))) ∧
      (IsAbsolute path.toList → (normalize path).toList = '/' :: List.intercalate ['/']
        (walk [] (splitWhere (· == '/') (withSlashes path.toList))).reverse) := by
  refine ⟨normalize_normalize path, ?canonical, fun hpath name hname => ?joined,
    fun hpath => ?walked⟩
  case canonical =>
    have hspell : IsCanonical (((withSlashes path.toList).head? == some '/') = true)
        (normalize path).toList := by
      rw [toList_normalize]
      exact isCanonical_spell isSettled_places
    rwa [beq_iff_eq] at hspell
  case joined =>
    have hchars := normalizeChars_append_slash hpath hname
    simp only [normalize, onChars, below, String.toList_append, String.toList_ofList] at hchars ⊢
    simpa using congrArg String.ofList hchars.symm
  case walked =>
    have hwalk : (splitWhere (· == '/') (withSlashes path.toList)).foldl (follow true) [] =
        walk [] (splitWhere (· == '/') (withSlashes path.toList)) :=
      IsSettled.foldl_follow_eq_walk trivial fun segment => whole_of_mem_split
    rw [toList_normalize, normalizeChars_of_isAbsolute hpath, places, hwalk]
    rfl

theorem normalize_isCanonical_sample :
    IsAbsolute "/src/..\\../a//./b".toList ∧ ¬ IsAbsolute "c/../../../..".toList ∧
      normalize (below "/src/..\\../a//./b" "c/../../../..") =
        normalize (below (normalize "/src/..\\../a//./b") (normalize "c/../../../..")) ∧
      (normalize "/src/..\\../a//./b").toList = "/a/b".toList := by
  obtain ⟨-, -, hjoined, hwalked⟩ := normalize_isCanonical "/src/..\\../a//./b"
  have habsolute : IsAbsolute "/src/..\\../a//./b".toList := by decide
  have hrelative : ¬ IsAbsolute "c/../../../..".toList := by decide
  exact ⟨habsolute, hrelative, hjoined habsolute _ hrelative,
    (hwalked habsolute).trans (by decide +kernel)⟩

end EnumInline.Path
