import EnumInline.Proofs.Resolution.Files
import EnumInline.Proofs.Text.ByteOrder
import Mathlib.Data.List.Nodup

/-!
Which alias decides where a specifier leads. The order in which aliases are tried is a
total order of their patterns, so the one that is found first is the one that outranks
all others that fit, however they are listed. It alone is asked: its targets are places,
and the first that holds a known module is taken.
-/

namespace EnumInline

open Text

namespace PathMapping

variable {mapping other : PathMapping} {mappings others : List PathMapping}
  {specifier : String} {captured text : List Char}

/-- A specifier is the pattern with `captured` in the place of its star. -/
inductive Fits (mapping : PathMapping) (specifier : String) : List Char → Prop
  /-- A pattern without a star fits itself only. -/
  | plain (hplain : '*' ∉ mapping.pattern.toList) (hsame : mapping.pattern = specifier) :
      Fits mapping specifier []
  | star {before captured after : List Char} (hfirst : '*' ∉ before)
      (hpattern : mapping.pattern.toList = before ++ '*' :: after)
      (hspecifier : specifier.toList = before ++ (captured ++ after)) :
      Fits mapping specifier captured

theorem captured?_eq_some_iff :
    mapping.captured? specifier = some captured ↔ mapping.Fits specifier captured := by
  unfold captured? parts?
  cases hparts : cutAt? '*' mapping.pattern.toList with
  | none =>
    have hplain := cutAt?_eq_none_iff.1 hparts
    simp only [Option.ite_none_right_eq_some, Option.some.injEq]
    constructor
    · rintro ⟨hsame, rfl⟩
      exact .plain hplain hsame
    · rintro (⟨-, hsame⟩ | ⟨-, hpattern, -⟩)
      · exact ⟨hsame, rfl⟩
      · exact absurd (by simp [hpattern]) hplain
  | some parts =>
    obtain ⟨before, after⟩ := parts
    obtain ⟨hfirst, hpattern⟩ := cutAt?_eq_some_iff.1 hparts
    simp only [Option.bind_eq_some_iff, dropStart?_eq_some_iff, dropEnd?_eq_some_iff]
    constructor
    · rintro ⟨rest, hstart, rfl⟩
      exact .star hfirst hpattern hstart
    · rintro (⟨hplain, -⟩ | ⟨hfirst', hpattern', hspecifier⟩)
      · exact absurd (by simp [hpattern]) hplain
      · have hsame := hparts.symm.trans (cutAt?_eq_some_iff.2 ⟨hfirst', hpattern'⟩)
        cases hsame
        exact ⟨_, hspecifier, rfl⟩

theorem captured?_eq_none_iff :
    mapping.captured? specifier = none ↔ ∀ captured, ¬ mapping.Fits specifier captured := by
  simp only [Option.eq_none_iff_forall_ne_some, ne_eq, captured?_eq_some_iff]

theorem Fits.unique (h : mapping.Fits specifier captured) (hother : mapping.Fits specifier text) :
    text = captured :=
  Option.some.inj
    ((captured?_eq_some_iff.2 hother).symm.trans (captured?_eq_some_iff.2 h))

/-- A path is a target with `captured` in the place of its first star. -/
inductive Fills (captured : List Char) (target path : String) : Prop
  /-- A target without a star is a path. -/
  | plain (hplain : '*' ∉ target.toList) (hsame : path = target)
  | star {before after : List Char} (hfirst : '*' ∉ before)
      (htarget : target.toList = before ++ '*' :: after)
      (hpath : path.toList = before ++ (captured ++ after))

theorem fills_fill (captured : List Char) (target : String) :
    Fills captured target (fill captured target) := by
  rw [fill, onChars]
  cases hcut : cutAt? '*' target.toList with
  | none => exact .plain (cutAt?_eq_none_iff.1 hcut) String.ofList_toList
  | some parts =>
    obtain ⟨hfirst, htarget⟩ := cutAt?_eq_some_iff.1 hcut
    exact .star hfirst htarget (by simp)

/-- The number of bytes that stand for themselves, which are those before and behind the
first star. -/
def ownLength (mapping : PathMapping) : Nat :=
  (bytes (String.ofList (mapping.pattern.toList.erase '*'))).length

theorem specificity_eq : mapping.specificity = mapping.ownLength := by
  have hlength (chars : List Char) :
      (String.ofList chars).utf8ByteSize = (bytes (String.ofList chars)).length := rfl
  unfold specificity ownLength parts?
  cases hcut : cutAt? '*' mapping.pattern.toList with
  | none =>
    rw [List.erase_of_not_mem (cutAt?_eq_none_iff.1 hcut), ← hlength, String.ofList_toList]
  | some parts =>
    obtain ⟨before, after⟩ := parts
    obtain ⟨hfirst, hpattern⟩ := cutAt?_eq_some_iff.1 hcut
    rw [hpattern, List.erase_append_right _ hfirst, List.erase_cons_head, ← hlength,
      String.ofList_append, String.utf8ByteSize_append]

/-- A mapping is tried before another: one without a star before one with a star, and
otherwise the one with more bytes that stand for themselves, or with as many and a
pattern whose bytes come first. -/
inductive Outranks (mapping other : PathMapping) : Prop
  | plain (hplain : '*' ∉ mapping.pattern.toList) (hstar : '*' ∈ other.pattern.toList)
  | longer (hkind : '*' ∈ mapping.pattern.toList ↔ '*' ∈ other.pattern.toList)
      (hlonger : other.ownLength < mapping.ownLength)
  | earlier (hkind : '*' ∈ mapping.pattern.toList ↔ '*' ∈ other.pattern.toList)
      (hlength : mapping.ownLength = other.ownLength)
      (hbytes : bytes mapping.pattern < bytes other.pattern)

theorem isWildcard_iff : mapping.isWildcard = true ↔ '*' ∈ mapping.pattern.toList := by
  rw [isWildcard, parts?, Option.isSome_iff_ne_none, ne_eq, cutAt?_eq_none_iff, not_not]

/-- The three orders that decide one after the other which mapping is tried first. -/
def compareRank : PathMapping → PathMapping → Ordering :=
  compareLex (compareOn isWildcard)
    (compareLex (fun mapping other => compareOn specificity other mapping) (compareOn pattern))

instance : Std.TransCmp compareRank :=
  inferInstanceAs (Std.TransCmp (compareLex _ (compareLex (fun mapping other =>
    compareOn specificity other mapping) _)))

theorem compare_isWildcard_iff :
    compare mapping.isWildcard other.isWildcard = .lt ↔
      '*' ∉ mapping.pattern.toList ∧ '*' ∈ other.pattern.toList := by
  have hbool : ∀ first second : Bool,
      compare first second = .lt ↔ ¬ first = true ∧ second = true := by
    decide
  rw [hbool, isWildcard_iff, isWildcard_iff]

theorem compareRank_eq_lt_iff : compareRank mapping other = .lt ↔ mapping.Outranks other := by
  have hkind : mapping.isWildcard = other.isWildcard ↔
      ('*' ∈ mapping.pattern.toList ↔ '*' ∈ other.pattern.toList) := by
    rw [Bool.eq_iff_iff, isWildcard_iff, isWildcard_iff]
  simp only [compareRank, compareLex, compareOn, Ordering.then_eq_lt, compare_isWildcard_iff,
    Std.compare_eq_iff_eq, hkind, Nat.compare_eq_lt, compare_eq_lt_iff_bytes, specificity_eq]
  constructor
  · rintro (⟨hplain, hstar⟩ | ⟨hkind, hlonger | ⟨hlength, hbytes⟩⟩)
    · exact .plain hplain hstar
    · exact .longer hkind hlonger
    · exact .earlier hkind hlength.symm hbytes
  · rintro (⟨hplain, hstar⟩ | ⟨hkind, hlonger⟩ | ⟨hkind, hlength, hbytes⟩)
    · exact Or.inl ⟨hplain, hstar⟩
    · exact Or.inr ⟨hkind, Or.inl hlonger⟩
    · exact Or.inr ⟨hkind, Or.inr ⟨hlength.symm, hbytes⟩⟩

instance : DecidableRel Outranks := fun _ _ => decidable_of_iff _ compareRank_eq_lt_iff

theorem compareRank_eq_eq_iff :
    compareRank mapping other = .eq ↔ mapping.pattern = other.pattern := by
  simp only [compareRank, compareLex, compareOn, Ordering.then_eq_eq, Std.compare_eq_iff_eq]
  constructor
  · exact fun h => h.2.2
  · intro h
    simp [isWildcard, specificity, parts?, h]

theorem precedes_eq : precedes mapping other = (compareRank mapping other).isLE := by
  have hbool : compare false true = .lt ∧ compare true false ≠ .lt := by decide
  rw [Bool.eq_iff_iff, compareRank, compareLex, Ordering.isLE_then_iff_or, compareLex,
    Ordering.isLE_then_iff_or]
  simp only [compareOn, isLE_compare_iff, Std.compare_eq_iff_eq, Nat.compare_eq_lt]
  unfold precedes
  by_cases hlength : mapping.specificity = other.specificity
  · cases mapping.isWildcard <;> cases other.isWildcard <;> simp [hbool, hlength]
  · cases mapping.isWildcard <;> cases other.isWildcard <;> simp [hbool, hlength, Ne.symm hlength]

theorem precedes_eq_decide : precedes mapping other = decide (¬ other.Outranks mapping) := by
  rw [precedes_eq, Bool.eq_iff_iff, decide_eq_true_eq, ← compareRank_eq_lt_iff,
    ← Std.OrientedCmp.gt_iff_lt, ← ne_eq, Ordering.isLE_iff_ne_gt]

theorem sort_pairwise (mappings : List PathMapping) :
    (sort mappings).Pairwise fun mapping other => (compareRank mapping other).isLE = true := by
  have htrans (first second third : PathMapping) :
      precedes first second = true → precedes second third = true →
        precedes first third = true := by
    simp only [precedes_eq]
    exact Std.TransCmp.isLE_trans
  have htotal (first second : PathMapping) :
      (precedes first second || precedes second first) = true := by
    rw [precedes_eq, precedes_eq, Bool.or_eq_true]
    cases hrank : compareRank first second with
    | lt | eq => exact Or.inl rfl
    | gt => exact Or.inr (by rw [Std.OrientedCmp.lt_of_gt hrank]; rfl)
  exact (List.pairwise_mergeSort htrans htotal mappings).imp fun h => precedes_eq ▸ h

/-- However mappings are listed, they are tried in one order. -/
theorem sort_congr (hmappings : (mappings.map pattern).Nodup)
    (hothers : (others.map pattern).Nodup)
    (hmem : ∀ mapping, mapping ∈ others ↔ mapping ∈ mappings) : sort others = sort mappings := by
  have hperm : (sort others).Perm (sort mappings) :=
    (List.mergeSort_perm others precedes).trans
      (((List.perm_ext_iff_of_nodup (hothers.of_map _) (hmappings.of_map _)).2 hmem).trans
        (List.mergeSort_perm mappings precedes).symm)
  refine List.Perm.eq_of_pairwise ?_ (sort_pairwise others) (sort_pairwise mappings) hperm
  intro first second hfirst hsecond hle hge
  have hpattern := compareRank_eq_eq_iff.1 (Std.OrientedCmp.isLE_antisymm hle hge)
  exact List.inj_on_of_nodup_map hmappings
    ((hmem first).1 ((List.mergeSort_perm _ _).mem_iff.1 hfirst))
    ((List.mergeSort_perm _ _).mem_iff.1 hsecond) hpattern

/-- A mapping fits a specifier and outranks all others that do. -/
structure Decides (mappings : List PathMapping) (specifier : String) (mapping : PathMapping)
    (captured : List Char) : Prop where
  mem : mapping ∈ mappings
  fits : mapping.Fits specifier captured
  outranks : ∀ other ∈ mappings, ∀ text, other.Fits specifier text →
    other = mapping ∨ mapping.Outranks other

theorem Decides.unique (h : Decides mappings specifier mapping captured)
    (hother : Decides mappings specifier other text) : other = mapping ∧ text = captured := by
  have hsame : other = mapping := by
    rcases h.outranks other hother.mem text hother.fits with hsame | hfirst
    · exact hsame
    · rcases hother.outranks mapping h.mem captured h.fits with hsame | hsecond
      · exact hsame.symm
      · have hlt := compareRank_eq_lt_iff.2 hsecond
        rw [Std.OrientedCmp.gt_of_lt (compareRank_eq_lt_iff.2 hfirst)] at hlt
        cases hlt
  subst hsame
  exact ⟨rfl, h.fits.unique hother.fits⟩

/-- The first mapping that fits is the one that decides. -/
theorem findSome?_sort_eq_some {α : Type} {use : PathMapping → List Char → α} {used : α}
    (hdistinct : (mappings.map pattern).Nodup)
    (h : ((sort mappings).findSome? fun mapping =>
      (mapping.captured? specifier).map (use mapping)) = some used) :
    ∃ mapping captured, Decides mappings specifier mapping captured ∧
      use mapping captured = used := by
  obtain ⟨before, mapping, after, hsort, hmapping, hbefore⟩ := List.findSome?_eq_some_iff.1 h
  obtain ⟨captured, hcaptured, hused⟩ := Option.map_eq_some_iff.1 hmapping
  have hmem {other : PathMapping} : other ∈ mappings ↔ other ∈ before ++ mapping :: after := by
    rw [← hsort]
    exact (List.mergeSort_perm mappings precedes).mem_iff.symm
  have hranks := sort_pairwise mappings
  rw [hsort] at hranks
  refine ⟨mapping, captured, ⟨hmem.2 (by simp), captured?_eq_some_iff.1 hcaptured, ?_⟩, hused⟩
  intro other hother text hfits
  rcases List.mem_append.1 (hmem.1 hother) with hfront | hrest
  · have hnone := hbefore other hfront
    rw [captured?_eq_some_iff.2 hfits] at hnone
    cases hnone
  · rcases List.mem_cons.1 hrest with rfl | hbehind
    · exact Or.inl rfl
    · have hle := (List.pairwise_cons.1 (List.pairwise_append.1 hranks).2.1).1 other hbehind
      cases hrank : compareRank mapping other with
      | lt => exact Or.inr (compareRank_eq_lt_iff.1 hrank)
      | eq =>
        exact Or.inl (List.inj_on_of_nodup_map hdistinct hother (hmem.2 (by simp))
          (compareRank_eq_eq_iff.1 hrank).symm)
      | gt =>
        rw [hrank] at hle
        cases hle

theorem findSome?_sort_eq_none {α : Type} {use : PathMapping → List Char → α} :
    ((sort mappings).findSome? fun mapping =>
      (mapping.captured? specifier).map (use mapping)) = none ↔
      ∀ mapping ∈ mappings, ∀ captured, ¬ mapping.Fits specifier captured := by
  rw [List.findSome?_eq_none_iff]
  simp only [Option.map_eq_none_iff, captured?_eq_none_iff, sort, List.mem_mergeSort]

/-- Where mappings fit, one of them decides. -/
theorem exists_decides (hdistinct : (mappings.map pattern).Nodup) (hmem : other ∈ mappings)
    (hfits : other.Fits specifier text) :
    ∃ mapping captured, Decides mappings specifier mapping captured := by
  cases hfound : (sort mappings).findSome? fun mapping =>
      (mapping.captured? specifier).map fun captured => (mapping, captured) with
  | none => exact absurd hfits (findSome?_sort_eq_none.1 hfound other hmem text)
  | some used =>
    obtain ⟨mapping, captured, hdecides, -⟩ := findSome?_sort_eq_some hdistinct hfound
    exact ⟨mapping, captured, hdecides⟩

end PathMapping

namespace Resolver

variable {resolver : Resolver} {mappings : List PathMapping} {specifier : String}

/-- The first module that is known, or the first of all if none is. -/
inductive IsChoice (resolver : Resolver) (ids : List String) (id : String) : Prop
  | known {before after : List String} (hids : ids = before ++ id :: after)
      (hbefore : ∀ other ∈ before, other ∉ resolver.known) (hknown : id ∈ resolver.known)
  | unknown (hids : ∀ other ∈ ids, other ∉ resolver.known) (hfirst : ids.head? = some id)

theorem isKnown_iff {id : String} : resolver.isKnown id = true ↔ id ∈ resolver.known :=
  Iff.rfl

theorem isKnown_eq_false_iff {id : String} :
    resolver.isKnown id = false ↔ id ∉ resolver.known := by
  rw [← isKnown_iff, Bool.not_eq_true]

theorem find?_or_head?_eq_some {ids : List String} {id : String}
    (h : (ids.find? resolver.isKnown).or ids.head? = some id) : resolver.IsChoice ids id := by
  rcases Option.or_eq_some_iff.1 h with hfound | ⟨hnone, hfirst⟩
  · obtain ⟨hknown, before, after, hids, hbefore⟩ := List.find?_eq_some_iff_append.1 hfound
    refine .known hids (fun other hother => ?_) (isKnown_iff.1 hknown)
    exact isKnown_eq_false_iff.1 (by simpa using hbefore other hother)
  · refine .unknown (fun other hother => ?_) hfirst
    exact isKnown_iff.not.1 (List.find?_eq_none.1 hnone other hother)

theorem isAbsolute_iff {path : String} :
    isAbsolute path = true ↔ ∃ rest, path.toList = '/' :: rest := by
  rw [isAbsolute, beq_iff_eq, List.head?_eq_some_iff]

theorem resolve_of_isAbsolute {path importer : String} (h : isAbsolute path = true) :
    resolver.resolve path importer = resolver.moduleAt path := by
  obtain ⟨rest, hpath⟩ := isAbsolute_iff.1 h
  have hrelative : isRelative path = false := by
    simp [isRelative, hpath, ← String.toList_inj, List.isPrefixOf]
  simp [resolve, hrelative, h]

/-- The text in the place of the star leaves the first character as it is. -/
theorem isAbsolute_of_fills {captured : List Char} {target path : String}
    (h : PathMapping.Fills captured target path) (htarget : isAbsolute target = true) :
    isAbsolute path = true := by
  rw [isAbsolute_iff] at htarget ⊢
  obtain ⟨rest, hslash⟩ := htarget
  cases h with
  | plain _ hsame => exact ⟨rest, hsame ▸ hslash⟩
  | @star before after _ hstar hpath =>
    cases before with
    | nil => simp [hslash] at hstar
    | cons c before =>
      obtain ⟨rfl, -⟩ := List.cons.inj (hslash.symm.trans hstar)
      exact ⟨before ++ (captured ++ after), hpath⟩

/-- A specifier that is no path leads where an alias or the base directory leads. -/
theorem resolve_of_not_path {importer : String} (hrelative : isRelative specifier = false)
    (habsolute : isAbsolute specifier = false) :
    resolver.resolve specifier importer =
      ((resolver.resolveAlias? specifier).or (resolver.resolveBase? specifier)).getD
        specifier := by
  simp [resolve, hrelative, habsolute]

theorem isChoice_resolve {importer : String} (hrelative : isRelative specifier = false)
    (habsolute : isAbsolute specifier = false) (hne : resolver.candidates specifier ≠ []) :
    resolver.IsChoice (resolver.candidates specifier) (resolver.resolve specifier importer) := by
  rw [resolve_of_not_path hrelative habsolute]
  cases halias : resolver.resolveAlias? specifier with
  | none => exact absurd (List.head?_eq_none_iff.1 (Option.or_eq_none_iff.1 halias).2) hne
  | some id => exact find?_or_head?_eq_some halias

theorem candidates_of_decides {mapping : PathMapping} {captured : List Char}
    (haliases : resolver.aliases = PathMapping.sort mappings)
    (hdistinct : (mappings.map PathMapping.pattern).Nodup)
    (h : PathMapping.Decides mappings specifier mapping captured) :
    resolver.candidates specifier =
      mapping.targets.map fun target => resolver.moduleAt (PathMapping.fill captured target) := by
  rw [candidates, haliases]
  split
  case h_1 hnone =>
    exact absurd h.fits (PathMapping.findSome?_sort_eq_none.1 hnone mapping h.mem captured)
  case h_2 targets hsome =>
    obtain ⟨other, text, hother, rfl⟩ := PathMapping.findSome?_sort_eq_some hdistinct hsome
    obtain ⟨rfl, rfl⟩ := h.unique hother
    simp [PathMapping.substitute]

theorem resolveAlias?_of_not_fits (haliases : resolver.aliases = PathMapping.sort mappings)
    (h : ∀ mapping ∈ mappings, ∀ captured, ¬ mapping.Fits specifier captured) :
    resolver.resolveAlias? specifier = none := by
  have hnone : resolver.candidates specifier = [] := by
    rw [candidates, haliases, PathMapping.findSome?_sort_eq_none.2 h]
  simp [resolveAlias?, hnone]

/-- What the targets of the alias that decides are filled to is where a specifier leads. -/
theorem isChoice_of_decides {mapping : PathMapping} {captured : List Char}
    (haliases : resolver.aliases = PathMapping.sort mappings)
    (hdistinct : (mappings.map PathMapping.pattern).Nodup)
    (htargets : mapping.targets ≠ [] ∧
      ∀ target ∈ mapping.targets, isAbsolute target = true)
    (hrelative : isRelative specifier = false) (habsolute : isAbsolute specifier = false)
    (hdecides : PathMapping.Decides mappings specifier mapping captured) (importer : String) :
    ∃ paths, List.Forall₂ (PathMapping.Fills captured) mapping.targets paths ∧
      (∀ place, resolver.IsChoice (paths.map fun path => resolver.resolve path place)
        (resolver.resolve specifier importer)) ∧
      ∀ path ∈ paths, ∀ relative place, Denotes relative place path →
        resolver.resolve relative place = resolver.resolve path importer := by
  obtain ⟨hne, habsolutes⟩ := htargets
  have hplace : ∀ target ∈ mapping.targets, ∀ place,
      resolver.resolve (PathMapping.fill captured target) place =
        resolver.moduleAt (PathMapping.fill captured target) := by
    intro target htarget place
    exact resolve_of_isAbsolute
      (isAbsolute_of_fills (PathMapping.fills_fill captured target) (habsolutes target htarget))
  have hcandidates (place : String) :
      ((mapping.targets.map (PathMapping.fill captured)).map
        fun path => resolver.resolve path place) = resolver.candidates specifier := by
    rw [candidates_of_decides haliases hdistinct hdecides, List.map_map]
    exact List.map_congr_left fun target htarget => hplace target htarget place
  refine ⟨mapping.targets.map (PathMapping.fill captured), ?_, fun place => ?_, ?_⟩
  · exact List.forall₂_map_right_iff.2
      (List.forall₂_same.2 fun target _ => PathMapping.fills_fill captured target)
  · rw [hcandidates]
    refine isChoice_resolve hrelative habsolute ?_
    rw [← hcandidates place]
    simpa using hne
  · intro path hpath relative place hdenotes
    obtain ⟨target, htarget, rfl⟩ := List.mem_map.1 hpath
    rw [resolve_of_denotes hdenotes, hplace target htarget]

theorem resolve_of_not_fits (haliases : resolver.aliases = PathMapping.sort mappings)
    (hrelative : isRelative specifier = false) (habsolute : isAbsolute specifier = false)
    (h : ∀ mapping ∈ mappings, ∀ captured, ¬ mapping.Fits specifier captured)
    (importer : String) :
    (∀ base, resolver.baseUrl = some base →
      resolver.moduleAt (base ++ "/" ++ specifier) ∈ resolver.known →
        resolver.resolve specifier importer = resolver.moduleAt (base ++ "/" ++ specifier)) ∧
    ((∀ base, resolver.baseUrl = some base →
      resolver.moduleAt (base ++ "/" ++ specifier) ∉ resolver.known) →
        resolver.resolve specifier importer = specifier) := by
  have hresolve : resolver.resolve specifier importer =
      (resolver.resolveBase? specifier).getD specifier := by
    rw [resolve_of_not_path hrelative habsolute, resolveAlias?_of_not_fits haliases h,
      Option.none_or]
  simp only [← isKnown_iff, Bool.not_eq_true]
  rw [hresolve, resolveBase?]
  unfold Path.below
  constructor
  · intro base hbase hknown
    simp [hbase, Option.filter, hknown]
  · intro hunknown
    cases hbase : resolver.baseUrl with
    | none => rfl
    | some base => simp [Option.filter, hunknown base hbase]

/-- Where a specifier that is no path leads depends neither on the module that holds it
nor on the order in which aliases are listed. Where aliases fit, one of them decides, the
one that outranks the others. Its targets, with the text for which its star stands in the
place of theirs, are paths, and the specifier means the first of these that leads to a
known module, or the first of all if none does. A path leads there as it does in any
module where it is written out, absolute or relative. Where no alias fits, the specifier
means the module below the base directory, if that is known, or else what it says. -/
theorem resolve_alias (haliases : resolver.aliases = PathMapping.sort mappings)
    (hdistinct : (mappings.map PathMapping.pattern).Nodup)
    (htargets : ∀ mapping ∈ mappings, mapping.targets ≠ [] ∧
      ∀ target ∈ mapping.targets, isAbsolute target = true)
    (hrelative : isRelative specifier = false) (habsolute : isAbsolute specifier = false)
    (importer : String) :
    (∀ others, (others.map PathMapping.pattern).Nodup →
      (∀ mapping, mapping ∈ others ↔ mapping ∈ mappings) → ∀ place,
        { resolver with aliases := PathMapping.sort others }.resolve specifier place =
          resolver.resolve specifier importer) ∧
    ((∃ mapping ∈ mappings, ∃ captured, mapping.Fits specifier captured) →
      ∃ mapping captured paths, PathMapping.Decides mappings specifier mapping captured ∧
        (∀ other text, PathMapping.Decides mappings specifier other text →
          other = mapping ∧ text = captured) ∧
        List.Forall₂ (PathMapping.Fills captured) mapping.targets paths ∧
        (∀ place, resolver.IsChoice (paths.map fun path => resolver.resolve path place)
          (resolver.resolve specifier importer)) ∧
        ∀ path ∈ paths, ∀ relative place, Denotes relative place path →
          resolver.resolve relative place = resolver.resolve path importer) ∧
    ((∀ mapping ∈ mappings, ∀ captured, ¬ mapping.Fits specifier captured) →
      (∀ base, resolver.baseUrl = some base →
        resolver.moduleAt (base ++ "/" ++ specifier) ∈ resolver.known →
          resolver.resolve specifier importer =
            resolver.moduleAt (base ++ "/" ++ specifier)) ∧
      ((∀ base, resolver.baseUrl = some base →
        resolver.moduleAt (base ++ "/" ++ specifier) ∉ resolver.known) →
          resolver.resolve specifier importer = specifier)) := by
  refine ⟨?_, ?_, fun hnone => resolve_of_not_fits haliases hrelative habsolute hnone importer⟩
  · intro others hothers hmem place
    rw [resolve_of_not_path hrelative habsolute, resolve_of_not_path hrelative habsolute,
      PathMapping.sort_congr hdistinct hothers hmem, ← haliases]
  · rintro ⟨fitting, hfitting, text, hfits⟩
    obtain ⟨mapping, captured, hdecides⟩ := PathMapping.exists_decides hdistinct hfitting hfits
    obtain ⟨paths, hfills, hchoice⟩ := isChoice_of_decides haliases hdistinct
      (htargets mapping hdecides.mem) hrelative habsolute hdecides importer
    exact ⟨mapping, captured, paths, hdecides, fun _ _ => hdecides.unique, hfills, hchoice⟩

/-- Aliases of which two fit the same specifiers. -/
def routes : List PathMapping :=
  [⟨"@/*", ["/p/src/*", "/p/gen/*"]⟩, ⟨"@/lib/*", ["/p/lib/*"]⟩, ⟨"@/lib/size", ["/p/size"]⟩]

def router : Resolver :=
  ⟨.ofList ["/p/gen/size", "/p/lib/color/index", "/p/pkg"], PathMapping.sort routes, some "/p"⟩

theorem router_eq :
    router = ⟨.ofList ["/p/gen/size", "/p/lib/color/index", "/p/pkg"], routes.reverse,
      some "/p"⟩ := by
  have hsorted : routes.reverse.Pairwise fun first second => PathMapping.precedes first second := by
    decide +kernel
  have hreverse : PathMapping.sort routes.reverse = PathMapping.sort routes :=
    PathMapping.sort_congr (by decide) (by decide) (by simp)
  have hsort : PathMapping.sort routes.reverse = routes.reverse :=
    List.mergeSort_of_pairwise hsorted
  rw [router, ← hreverse, hsort]

/-- A star is filled in, the first known module is taken, and the more specific of two
patterns decides, also where its target is unknown. -/
theorem resolve_alias_routes :
    { router with aliases := PathMapping.sort routes.reverse }.resolve "@/size" "/q/other" =
      "/p/gen/size" ∧
    (∃ captured paths, PathMapping.Decides routes "@/lib/color" ⟨"@/lib/*", ["/p/lib/*"]⟩ captured ∧
      List.Forall₂ (PathMapping.Fills captured) ["/p/lib/*"] paths ∧
      router.IsChoice (paths.map fun path => router.resolve path "/p/app") "/p/lib/color/index") ∧
    router.resolve "@/lib/none" "/p/app" = "/p/lib/none" ∧
    router.resolve "@/lib/size" "/p/app" = "/p/size" ∧
    router.resolve "pkg" "/p/app" = "/p/pkg" := by
  have hdistinct : (routes.map PathMapping.pattern).Nodup := by decide
  have htargets : ∀ mapping ∈ routes, mapping.targets ≠ [] ∧
      ∀ target ∈ mapping.targets, isAbsolute target = true := by
    decide
  have hleads : router.resolve "@/size" "/p/app" = "/p/gen/size" ∧
      router.resolve "@/lib/color" "/p/app" = "/p/lib/color/index" ∧
      router.resolve "@/lib/none" "/p/app" = "/p/lib/none" ∧
      router.resolve "@/lib/size" "/p/app" = "/p/size" ∧
      router.moduleAt "/p/pkg" = "/p/pkg" ∧ "/p/pkg" ∈ router.known := by
    rw [router_eq]
    decide +kernel
  refine ⟨?_, ?_, hleads.2.2.1, hleads.2.2.2.1, ?_⟩
  · have hsize := @resolve_alias router routes "@/size" rfl hdistinct htargets
      (by decide) (by decide) "/p/app"
    exact (hsize.1 routes.reverse (by decide) (by simp) "/q/other").trans hleads.1
  · have hcolor := @resolve_alias router routes "@/lib/color" rfl hdistinct htargets
      (by decide) (by decide) "/p/app"
    have hfits : PathMapping.Fits ⟨"@/lib/*", ["/p/lib/*"]⟩ "@/lib/color" "color".toList :=
      PathMapping.captured?_eq_some_iff.1 (by decide)
    have hdecides : PathMapping.Decides routes "@/lib/color" ⟨"@/lib/*", ["/p/lib/*"]⟩
        "color".toList := by
      refine ⟨by decide, hfits, fun other hother text htext => ?_⟩
      simp only [routes, List.mem_cons, List.not_mem_nil, or_false] at hother
      rcases hother with rfl | rfl | rfl
      · exact Or.inr (.longer (by decide) (by decide +kernel))
      · exact Or.inl rfl
      · exact absurd htext (PathMapping.captured?_eq_none_iff.1 (by decide) text)
    obtain ⟨mapping, captured, paths, hmapping, hunique, hpaths, hchoice, -⟩ :=
      hcolor.2.1 ⟨_, by decide, _, hfits⟩
    obtain ⟨rfl, -⟩ := hunique _ _ hdecides
    rw [hleads.2.1] at hchoice
    exact ⟨captured, paths, hmapping, hpaths, hchoice "/p/app"⟩
  · have hpkg := @resolve_alias router routes "pkg" rfl hdistinct htargets
      (by decide) (by decide) "/p/app"
    have hnone : ∀ mapping ∈ routes, mapping.captured? "pkg" = none := by decide
    obtain ⟨-, -, -, -, hbase, hknown⟩ := hleads
    rw [(hpkg.2.2 fun mapping hmem => PathMapping.captured?_eq_none_iff.1 (hnone mapping hmem)).1
      "/p" rfl (by rwa [← hbase] at hknown)]
    exact hbase

end Resolver

end EnumInline
