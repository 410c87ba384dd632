import EnumInline.Path.Lexical
import EnumInline.Proofs.Text.Pieces

/-!
What the normal spelling of a path is. A path is followed from segment to segment, and
the places passed on the way are kept on a stack. Steps upwards are kept only where
there is nothing to leave, so that the stack always spells a path which is followed to
the same place without any detour.
-/

namespace EnumInline.Path

open Text

variable {absolute : Bool} {path segment ending : List Char}
  {stack segments : List (List Char)}

/-- A text without slashes of either kind that does not stand for the place where it is
read. -/
structure IsSegment (segment : List Char) : Prop where
  whole : ∀ c ∈ segment, c ≠ '/' ∧ c ≠ '\\'
  ne_nil : segment ≠ []
  ne_point : segment ≠ ['.']

theorem IsSegment.isWhole (h : IsSegment segment) : IsWhole (· == '/') segment :=
  fun c hc => by simpa using (h.whole c hc).1

/-- What the stack of a path can be, the innermost segment first: a step upwards is only
kept in a path that is not absolute, and only behind others of its kind. -/
def IsSettled (absolute : Bool) : List (List Char) → Prop
  | [] => True
  | segment :: outer =>
      IsSegment segment ∧
        (segment = ['.', '.'] → absolute = false ∧ ∀ step ∈ outer, step = ['.', '.']) ∧
        IsSettled absolute outer

theorem withSlashes_append (first second : List Char) :
    withSlashes (first ++ second) = withSlashes first ++ withSlashes second :=
  List.map_append

theorem withSlashes_of_whole (h : ∀ c ∈ path, c ≠ '\\') : withSlashes path = path := by
  have hsame : path.map (fun c => if c = '\\' then '/' else c) = path.map id :=
    List.map_congr_left fun c hc => if_neg (h c hc)
  rw [withSlashes, hsame, List.map_id]

theorem ne_backslash_of_mem_withSlashes {c : Char} (h : c ∈ withSlashes path) : c ≠ '\\' := by
  obtain ⟨d, -, rfl⟩ := List.mem_map.1 h
  split
  · decide
  · assumption

/-- The pieces of a path have no slashes left. -/
theorem whole_of_mem_split (h : segment ∈ splitWhere (· == '/') (withSlashes path)) :
    ∀ c ∈ segment, c ≠ '/' ∧ c ≠ '\\' := by
  intro c hc
  obtain ⟨hwhole, before, after, hpath, -, -⟩ := mem_splitWhere.1 h
  have hmem : c ∈ withSlashes path := by
    rw [hpath]
    simp [hc]
  exact ⟨by simpa using hwhole c hc, ne_backslash_of_mem_withSlashes hmem⟩

theorem follow_of_ne (hnil : segment ≠ []) (hpoint : segment ≠ ['.'])
    (hup : segment ≠ ['.', '.']) : follow absolute stack segment = segment :: stack := by
  unfold follow
  rw [if_neg (by simp [hnil, hpoint]), if_neg hup]

theorem IsSettled.follow (h : IsSettled absolute stack)
    (hwhole : ∀ c ∈ segment, c ≠ '/' ∧ c ≠ '\\') :
    IsSettled absolute (follow absolute stack segment) := by
  unfold Path.follow
  split
  case isTrue => exact h
  case isFalse hidle =>
    obtain ⟨hnil, hpoint⟩ := not_or.1 hidle
    have hsegment : IsSegment segment := ⟨hwhole, hnil, hpoint⟩
    split
    case isFalse hname => exact ⟨hsegment, fun hup => absurd hup hname, h⟩
    case isTrue hup =>
      cases stack with
      | nil => cases absolute <;> simp [IsSettled, hsegment]
      | cons last outer =>
        obtain ⟨hlast, hsteps, houter⟩ := h
        dsimp only
        split
        case isTrue => exact houter
        case isFalse hlastUp =>
          have hlastUp : last = ['.', '.'] := by simpa using hlastUp
          obtain ⟨rfl, hall⟩ := hsteps hlastUp
          have hstack : ∀ step ∈ last :: outer, step = ['.', '.'] :=
            List.forall_mem_cons.2 ⟨hlastUp, hall⟩
          exact ⟨hsegment, fun _ => ⟨rfl, hstack⟩, hlast, hsteps, houter⟩

theorem follow_of_isSettled (h : IsSettled absolute (segment :: stack)) :
    follow absolute stack segment = segment :: stack := by
  obtain ⟨hsegment, hsteps, -⟩ := h
  by_cases hup : segment = ['.', '.']
  · obtain ⟨rfl, hall⟩ := hsteps hup
    subst hup
    cases stack with
    | nil => rfl
    | cons last outer =>
      obtain rfl : last = ['.', '.'] := hall last (by simp)
      rfl
  · exact follow_of_ne hsegment.ne_nil hsegment.ne_point hup

theorem IsSettled.of_append {top : List (List Char)} (h : IsSettled absolute (top ++ stack)) :
    IsSettled absolute stack := by
  induction top with
  | nil => exact h
  | cons segment top ih => exact ih h.2.2

theorem foldl_follow_of_isSettled (h : IsSettled absolute (segments.reverse ++ stack)) :
    segments.foldl (follow absolute) stack = segments.reverse ++ stack := by
  induction segments generalizing stack with
  | nil => rfl
  | cons segment rest ih =>
    have hstack : IsSettled absolute (rest.reverse ++ segment :: stack) := by simpa using h
    rw [List.foldl_cons, follow_of_isSettled hstack.of_append, ih hstack]
    simp

theorem isSettled_foldl_follow (h : IsSettled absolute stack)
    (hwhole : ∀ segment ∈ segments, ∀ c ∈ segment, c ≠ '/' ∧ c ≠ '\\') :
    IsSettled absolute (segments.foldl (Path.follow absolute) stack) := by
  induction segments generalizing stack with
  | nil => exact h
  | cons segment rest ih =>
    obtain ⟨hsegment, hrest⟩ := List.forall_mem_cons.1 hwhole
    exact ih (h.follow hsegment) hrest

theorem isSettled_places : IsSettled absolute (places absolute (withSlashes path)).reverse := by
  rw [places, List.reverse_reverse]
  exact isSettled_foldl_follow trivial fun segment => whole_of_mem_split

theorem IsSettled.isSegment (h : IsSettled absolute stack) :
    ∀ segment ∈ stack, IsSegment segment := by
  induction stack with
  | nil => simp
  | cons segment outer ih => exact List.forall_mem_cons.2 ⟨h.1, ih h.2.2⟩

/-- Reading the spelling of settled segments leads back to them. -/
theorem places_spell (h : IsSettled absolute segments.reverse) :
    places absolute (spell absolute segments) = segments := by
  have hwhole : ∀ segment ∈ segments, IsWhole (· == '/') segment :=
    fun segment hsegment => (h.isSegment segment (List.mem_reverse.2 hsegment)).isWhole
  have hfold : segments.foldl (Path.follow absolute) [] = segments.reverse := by
    rw [← List.append_nil segments.reverse] at h ⊢
    exact foldl_follow_of_isSettled h
  have hjoined : (splitWhere (· == '/') (List.intercalate ['/'] segments)).foldl
      (Path.follow absolute) [] = segments.reverse := by
    cases segments with
    | nil => rfl
    | cons segment rest => rw [splitWhere_intercalate rfl (by simp) hwhole, hfold]
  have hspell : (splitWhere (· == '/') (spell absolute segments)).foldl
      (Path.follow absolute) [] = segments.reverse := by
    cases absolute with
    | false => exact hjoined
    | true => simpa [spell, splitWhere, Path.follow] using hjoined
  rw [places, hspell, List.reverse_reverse]

theorem intercalate_append_singleton {separator : List Char} (hne : segments ≠ []) :
    List.intercalate separator (segments ++ [segment]) =
      List.intercalate separator segments ++ (separator ++ segment) := by
  induction segments with
  | nil => exact absurd rfl hne
  | cons first rest ih =>
    cases rest with
    | nil => simp [List.intercalate_cons_cons, List.intercalate_singleton]
    | cons next rest =>
      have hrest := ih (by simp)
      rw [List.cons_append] at hrest
      simp only [List.cons_append, List.intercalate_cons_cons, hrest, List.append_assoc]

/-- The last segment stands behind the spelling of the others. -/
theorem spell_append_singleton (hne : segments ≠ []) :
    spell absolute (segments ++ [segment]) = spell absolute segments ++ '/' :: segment := by
  have hjoined : List.intercalate ['/'] (segments ++ [segment]) =
      List.intercalate ['/'] segments ++ (['/'] ++ segment) :=
    intercalate_append_singleton hne
  cases absolute <;> simp [spell, hjoined]

theorem spell_append_ending :
    spell absolute (segments ++ [segment ++ ending]) =
      spell absolute (segments ++ [segment]) ++ ending := by
  cases segments with
  | nil => cases absolute <;> simp [spell, List.intercalate_singleton]
  | cons first rest =>
    rw [spell_append_singleton (by simp), spell_append_singleton (by simp)]
    simp

theorem head?_intercalate_ne (h : ∀ segment ∈ segments, IsSegment segment) :
    (List.intercalate ['/'] segments).head? ≠ some '/' := by
  cases segments with
  | nil => simp
  | cons segment rest =>
    have hsegment : IsSegment segment := h segment (by simp)
    cases segment with
    | nil => exact absurd rfl hsegment.ne_nil
    | cons c text =>
      have hc : c ≠ '/' := (hsegment.whole c (by simp)).1
      cases rest with
      | nil => simpa [List.intercalate_singleton] using hc
      | cons next rest => simpa [List.intercalate_cons_cons] using hc

theorem ne_backslash_of_mem_spell (h : ∀ segment ∈ segments, IsSegment segment) {c : Char}
    (hc : c ∈ spell absolute segments) : c ≠ '\\' := by
  have hjoined : ∀ c ∈ List.intercalate ['/'] segments, c ≠ '\\' := by
    clear hc
    induction segments with
    | nil => simp
    | cons segment rest ih =>
      obtain ⟨hsegment, hrest⟩ := List.forall_mem_cons.1 h
      have hwhole : ∀ c ∈ segment, c ≠ '\\' := fun c hc => (hsegment.whole c hc).2
      cases rest with
      | nil => simpa [List.intercalate_singleton] using hwhole
      | cons next rest =>
        intro c hc
        rw [List.intercalate_cons_cons, List.append_assoc, List.mem_append, List.mem_append,
          List.mem_singleton] at hc
        rcases hc with hc | rfl | hc
        · exact hwhole c hc
        · decide
        · exact ih hrest c hc
  cases absolute with
  | false => exact hjoined c hc
  | true =>
    rcases List.mem_cons.1 hc with rfl | hc
    · decide
    · exact hjoined c hc

theorem normalizeChars_spell (h : IsSettled absolute segments.reverse) :
    normalizeChars (spell absolute segments) = spell absolute segments := by
  have hsegments : ∀ segment ∈ segments, IsSegment segment :=
    fun segment hsegment => h.isSegment segment (List.mem_reverse.2 hsegment)
  have hhead : ((spell absolute segments).head? == some '/') = absolute := by
    cases absolute with
    | true => simp [spell]
    | false => simpa [spell] using head?_intercalate_ne hsegments
  have hslashes : withSlashes (spell absolute segments) = spell absolute segments :=
    withSlashes_of_whole fun _ => ne_backslash_of_mem_spell hsegments
  simp only [normalizeChars, hslashes, hhead, places_spell h]

theorem normalize_normalize (path : String) : normalize (normalize path) = normalize path := by
  have hchars : normalizeChars (normalizeChars path.toList) = normalizeChars path.toList :=
    normalizeChars_spell isSettled_places
  simp only [normalize, onChars, String.toList_ofList, hchars]

/-- A text that makes a name of whatever part of a segment stands before it. -/
structure IsEnding (ending : List Char) : Prop where
  whole : ∀ c ∈ ending, c ≠ '/' ∧ c ≠ '\\'
  names : ∃ c ∈ ending, c ≠ '.'

theorem IsEnding.follow (h : IsEnding ending) :
    follow absolute stack (segment ++ ending) = (segment ++ ending) :: stack := by
  obtain ⟨c, hc, hpoint⟩ := h.names
  have hmem : c ∈ segment ++ ending := List.mem_append_right _ hc
  refine follow_of_ne ?_ ?_ ?_ <;> intro heq <;> rw [heq] at hmem <;> simp [hpoint] at hmem

theorem IsEnding.withSlashes (h : IsEnding ending) : withSlashes ending = ending :=
  withSlashes_of_whole fun c hc => (h.whole c hc).2

theorem IsEnding.head?_append (h : IsEnding ending) :
    ((path ++ ending).head? == some '/') = (path.head? == some '/') := by
  cases path with
  | cons c rest => rfl
  | nil =>
    cases ending with
    | nil => rfl
    | cons c rest =>
      have hc : c ≠ '/' := (h.whole c (by simp)).1
      simpa using hc

/-- The ending of a path is that of its normal spelling, and another ending leaves the
rest of the spelling as it is. -/
theorem exists_normalize_append (path : String) :
    ∃ place : String, ∀ ending : String, IsEnding ending.toList →
      normalize (path ++ ending) = place ++ ending := by
  obtain ⟨pieces, last, hsplit⟩ :=
    exists_splitWhere_append (· == '/') (withSlashes path.toList)
  let absolute := (withSlashes path.toList).head? == some '/'
  let segments := (pieces.foldl (Path.follow absolute) []).reverse
  refine ⟨String.ofList (spell absolute (segments ++ [last])), fun ending hending => ?_⟩
  have hwhole : IsWhole (· == '/') ending.toList := fun c hc => by
    simpa using (hending.whole c hc).1
  have hplaces : places absolute (withSlashes path.toList ++ ending.toList) =
      segments ++ [last ++ ending.toList] := by
    rw [places, hsplit _ hwhole, List.foldl_append, List.foldl_cons, hending.follow]
    simp [segments]
  rw [normalize, onChars, String.toList_append, normalizeChars, withSlashes_append,
    hending.withSlashes, hending.head?_append, hplaces, spell_append_ending,
    String.ofList_append, String.ofList_toList]

theorem places_append_cons (h : IsEnding ending) :
    places absolute (path ++ '/' :: ending) = places absolute path ++ [ending] := by
  have hwhole : IsWhole (· == '/') ending := fun c hc => by simpa using (h.whole c hc).1
  have hfollow {stack : List (List Char)} : follow absolute stack ending = ending :: stack := by
    rw [← List.nil_append ending]
    exact h.follow
  rw [places, splitWhere_append_mark rfl, splitWhere_of_isWhole hwhole, List.foldl_append,
    List.foldl_cons, hfollow]
  simp [places]

theorem normalizeChars_append_cons (hne : path ≠ []) (h : IsEnding ending) :
    ∃ absolute, normalizeChars path = spell absolute (places absolute (withSlashes path)) ∧
      normalizeChars (path ++ '/' :: ending) =
        spell absolute (places absolute (withSlashes path) ++ [ending]) := by
  refine ⟨(withSlashes path).head? == some '/', rfl, ?_⟩
  have hslashed : withSlashes (path ++ '/' :: ending) = withSlashes path ++ '/' :: ending := by
    rw [withSlashes_append, ← List.singleton_append, withSlashes_append, h.withSlashes]
    rfl
  have hhead : (withSlashes path ++ '/' :: ending).head? = (withSlashes path).head? := by
    cases path with
    | nil => exact absurd rfl hne
    | cons c rest => rfl
  simp only [normalizeChars, hslashed, hhead, places_append_cons h]

/-- A directory with a name below it is only spelled normally if it is so itself. -/
theorem normalize_of_below {directory name : String} (hname : IsEnding name.toList)
    (hnormal : normalize (below directory name) = below directory name) :
    normalize directory = directory := by
  rcases eq_or_ne directory "" with rfl | hdirectory
  · rfl
  have hne : directory.toList ≠ [] := by simpa using hdirectory
  obtain ⟨absolute, hspell, hbelow⟩ := normalizeChars_append_cons hne hname
  have hchars : normalizeChars (directory.toList ++ '/' :: name.toList) =
      directory.toList ++ '/' :: name.toList := by
    have h := congrArg String.toList hnormal
    simpa [normalize, onChars, below] using h
  rw [hbelow] at hchars
  generalize places absolute (withSlashes directory.toList) = segments at hspell hchars
  have hsegments : segments ≠ [] := by
    rintro rfl
    have hpos : 0 < directory.toList.length := List.length_pos_iff.2 hne
    have hlength := congrArg List.length hchars
    rw [List.nil_append, List.length_append, List.length_cons] at hlength
    have hspelled : (spell absolute [name.toList]).length ≤ name.toList.length + 1 := by
      cases absolute <;> simp [spell, List.intercalate_singleton]
    omega
  rw [spell_append_singleton hsegments, ← hspell] at hchars
  rw [normalize, onChars, List.append_cancel_right hchars, String.ofList_toList]

end EnumInline.Path
