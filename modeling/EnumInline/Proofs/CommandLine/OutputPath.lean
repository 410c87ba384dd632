import EnumInline.CommandLine.Run
import EnumInline.Proofs.Path.Canonical
import EnumInline.Proofs.Path.Components

/-!
Which paths are taken for output, and where they lead. A path is refused for a character that no
path has, for starting at the root or for a component that leads upwards, and for nothing else. What
is taken leads from any directory to that directory or to a place below it, since each of its
components is a name that is entered.
-/

namespace EnumInline

namespace Path

open Text

variable {place : List (List Char)} {segments others : List (List Char)}
  {taken : List String} {directory path : String}

/-- The place that a path from the root names if `.` and `..` are resolved in the text, the
outermost directory first. -/
def placeOf (path : String) : List (List Char) :=
  (walk [] ((steps path).map String.toList)).reverse

/-- The path leads to the directory or to a place below it. -/
def LiesWithin (directory path : String) : Prop := placeOf directory <+: placeOf path

instance : Decidable (LiesWithin directory path) :=
  inferInstanceAs (Decidable (placeOf directory <+: placeOf path))

/-- The names among the steps of a path. -/
def namesOf (taken : List String) : List (List Char) :=
  (taken.filter (!isIdle ·)).map String.toList

theorem walk_append :
    walk place (segments ++ others) = walk (walk place segments) others := by
  induction segments generalizing place with
  | nil => rfl
  | cons segment segments ih =>
    rw [List.cons_append, walk, walk]
    split
    case isTrue => exact ih
    case isFalse => split <;> exact ih

theorem isIdle_iff {step : String} :
    isIdle step = true ↔ step.toList = [] ∨ step.toList = ['.'] := by
  rw [isIdle, Bool.or_eq_true, beq_iff_eq, beq_iff_eq, ← String.toList_inj, ← String.toList_inj]
  rfl

/-- Without a step upwards, every name is entered and none is left. -/
theorem walk_of_not_mem (h : ".." ∉ taken) :
    walk place (taken.map String.toList) = (namesOf taken).reverse ++ place := by
  induction taken generalizing place with
  | nil => rfl
  | cons step taken ih =>
    obtain ⟨hstep, htaken⟩ := List.ne_and_not_mem_of_not_mem_cons h
    rw [List.map_cons, walk]
    split
    case isTrue hidle =>
      have hnames : namesOf (step :: taken) = namesOf taken := by
        rw [namesOf, List.filter_cons_of_neg (by simp [isIdle_iff.2 hidle]), namesOf]
      rw [ih htaken, hnames]
    case isFalse hidle =>
      have hidle : isIdle step = false := by rw [← Bool.not_eq_true, isIdle_iff]; exact hidle
      have hup : step.toList ≠ ['.', '.'] := fun hup =>
        hstep (String.toList_inj.1 (Eq.symm hup))
      have hnames : namesOf (step :: taken) = step.toList :: namesOf taken := by
        rw [namesOf, List.filter_cons_of_pos (by simp [hidle]), namesOf, List.map_cons]
      rw [if_neg hup, ih htaken, hnames, List.reverse_cons, List.append_assoc,
        List.singleton_append]

theorem ne_empty_of_isAbsolute (h : isAbsolute directory = true) : directory ≠ "" := by
  rintro rfl
  cases h

/-- From a directory, a path without steps upwards leads to its names below the directory. -/
theorem placeOf_join (hdirectory : isAbsolute directory = true) (hpath : isAbsolute path = false)
    (hup : ".." ∉ steps path) :
    placeOf (join directory path) = placeOf directory ++ namesOf (steps path) := by
  obtain ⟨outer, ending, -, hending, hsteps, hjoined⟩ :=
    exists_steps_join (ne_empty_of_isAbsolute hdirectory) hpath
  have hidle : ".." ∉ ending := fun hmem =>
    List.filter_eq_nil_iff.1 hending ".." hmem rfl
  have hnone : namesOf ending = [] := by rw [namesOf, hending, List.map_nil]
  rw [placeOf, placeOf, hjoined, hsteps, List.map_append, List.map_append, walk_append,
    walk_append, walk_of_not_mem hup, walk_of_not_mem hidle, hnone, List.reverse_append,
    List.reverse_reverse]
  rfl

theorem Component.eq_of_ofStep {step : String} (h : ofStep step = up) : step = ".." := by
  unfold ofStep at h
  split at h
  case isTrue hup => exact hup
  case isFalse => cases h

theorem up_mem_components_iff : .up ∈ components path ↔ ".." ∈ steps path := by
  have hfurther : .up ∈ ((steps path).filter (!isIdle ·)).map Component.ofStep ↔
      ".." ∈ steps path := by
    rw [List.mem_map]
    constructor
    · rintro ⟨step, hstep, hofStep⟩
      obtain rfl : step = ".." := Component.eq_of_ofStep hofStep
      exact (List.mem_filter.1 hstep).1
    · intro hup
      exact ⟨"..", List.mem_filter.2 ⟨hup, rfl⟩, rfl⟩
  unfold components
  split
  case isTrue => simpa using hfurther
  case isFalse => split <;> simpa using hfurther

end Path

namespace CommandLine

open EnumInline.Path

/-- A path is taken unless one of the three faults is found in it. -/
theorem checkOutput_eq_ok_iff (path : String) :
    checkOutput path = .ok () ↔
      '\x00' ∉ path.toList ∧ isAbsolute path = false ∧ .up ∉ components path := by
  have hup : (steps path).any leadsUp = true ↔ .up ∈ components path := by
    rw [up_mem_components_iff, List.any_eq_true]
    simp [leadsUp]
  rw [← hup, checkOutput]
  split
  case isTrue hzero => simp [List.contains_iff_mem.1 hzero]
  case isFalse hzero =>
    have hzero : '\x00' ∉ path.toList := fun hmem => hzero (List.contains_iff_mem.2 hmem)
    split
    case isTrue habsolute => simp [habsolute]
    case isFalse habsolute =>
      split
      case isTrue hleads => simp [hleads]
      case isFalse hleads => simp [hzero, habsolute, hleads]

/-- What is taken for output stays in the directory: from every directory, a path that is taken
leads to that directory or below it, and a path is refused for one of the three faults only. -/
theorem checkOutput_confines (path : String) :
    (checkOutput path = .ok () → ∀ directory, isAbsolute directory = true →
        LiesWithin directory (join directory path)) ∧
      (checkOutput path ≠ .ok () ↔
        '\x00' ∈ path.toList ∨ isAbsolute path = true ∨ .up ∈ components path) := by
  refine ⟨fun htaken directory hdirectory => ?within, ?faults⟩
  case within =>
    obtain ⟨-, hrelative, hup⟩ := (checkOutput_eq_ok_iff path).1 htaken
    have hplace := placeOf_join hdirectory hrelative (mt up_mem_components_iff.2 hup)
    rw [LiesWithin, hplace]
    apply List.prefix_append
  case faults =>
    rw [Ne, checkOutput_eq_ok_iff, not_and_or, not_and_or, not_not, not_not, Bool.not_eq_false]

theorem checkOutput_confines_dottedNames :
    checkOutput "..a//./b../t.json/" = .ok () ∧ isAbsolute "/work/../home/" = true ∧
      LiesWithin "/work/../home/" (join "/work/../home/" "..a//./b../t.json/") := by
  have htaken : checkOutput "..a//./b../t.json/" = .ok () := rfl
  have hdirectory : isAbsolute "/work/../home/" = true := rfl
  exact ⟨htaken, hdirectory, (checkOutput_confines _).1 htaken _ hdirectory⟩

example : ¬ LiesWithin "/work" (join "/work" "a//../../b") := by decide +kernel

end CommandLine

end EnumInline
