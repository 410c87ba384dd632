import EnumInline.Proofs.Path.Detours
import EnumInline.Proofs.Session.Files

/-!
The spellings of a path, as the hook takes them. The table is asked for the normal spelling, and the
directories of vendors are looked for in the spelling that is given. The two see the same path
unless a directory of a vendor is on a detour, which the normal spelling leaves out.
-/

namespace EnumInline.Hook

open Text

variable {vendorDirs : List String} {path id other : String}

/-- A directory of a vendor is part of the path. -/
def HasVendor (vendorDirs : List String) (path : String) : Prop :=
  ∃ name ∈ vendorDirs, name.toList ∈ Path.segmentsOf path.toList

instance : Decidable (HasVendor vendorDirs path) :=
  inferInstanceAs (Decidable (∃ name ∈ vendorDirs, name.toList ∈ Path.segmentsOf path.toList))

/-- A directory of a vendor is on a detour of the path. -/
def PassesVendor (vendorDirs : List String) (path : String) : Prop :=
  ∃ name ∈ vendorDirs, Path.Discards path.toList name.toList

theorem splitWhere_endsStep (path : List Char) :
    splitWhere endsStep path = Path.rawSegments path := by
  rw [Path.rawSegments, Path.withSlashes]
  induction path with
  | nil => rfl
  | cons c rest ih =>
    have hends : endsStep c = ((if c = '\\' then '/' else c) == '/') := by
      unfold endsStep
      split
      case isTrue hback => rw [hback]; rfl
      case isFalse hother => rw [beq_eq_false_iff_ne.2 hother, Bool.or_false]
    rw [List.map_cons, splitWhere, splitWhere, ← hends, ih]
    split
    case isTrue => rfl
    case isFalse hinside =>
      have hsame : (if c = '\\' then '/' else c) = c := by
        apply if_neg
        rintro rfl
        exact hinside rfl
      rw [hsame]

/-- The steps of a path are those of its normal spelling and those of its detours. -/
theorem avoidsVendors_iff :
    AvoidsVendors vendorDirs path ↔
      ¬ HasVendor vendorDirs (Path.normalize path) ∧ ¬ PassesVendor vendorDirs path := by
  have hpiece (name : String) : IsPiece endsStep path.toList name.toList ↔
      name.toList ∈ Path.segmentsOf (Path.normalize path).toList ∨
        Path.Discards path.toList name.toList := by
    rw [← mem_splitWhere, splitWhere_endsStep, Path.mem_rawSegments_iff, Path.toList_normalize]
  constructor
  · intro h
    constructor
    · rintro ⟨name, hname, hsegment⟩
      exact h name hname ((hpiece name).2 (.inl hsegment))
    · rintro ⟨name, hname, hdetour⟩
      exact h name hname ((hpiece name).2 (.inr hdetour))
  · rintro ⟨hhas, hpasses⟩ name hname hstep
    rcases (hpiece name).1 hstep with hsegment | hdetour
    · exact hhas ⟨name, hname, hsegment⟩
    · exact hpasses ⟨name, hname, hdetour⟩

/-- What the hook makes of a file, by the normal spelling of its path. -/
theorem transform_of_not_passesVendor {hook : Hook} {code : String}
    (h : ¬ PassesVendor hook.vendorDirs (cleanId id)) :
    hook.transform id code =
      if HasVendor hook.vendorDirs (Path.normalize (cleanId id)) then none
      else (hook.table[Path.normalize (cleanId id)]?).map fun entries =>
        Substitution.replace entries code := by
  rw [transform_of_cleanId rfl]
  by_cases hhas : HasVendor hook.vendorDirs (Path.normalize (cleanId id))
  · rw [if_pos hhas, if_neg fun havoids => (avoidsVendors_iff.1 havoids).1 hhas]
  · rw [if_neg hhas, if_pos (avoidsVendors_iff.2 ⟨hhas, h⟩)]
    rfl

theorem transform_of_passesVendor {hook : Hook} (h : PassesVendor hook.vendorDirs (cleanId id))
    (code : String) : hook.transform id code = none := by
  rw [transform_of_cleanId rfl, if_neg fun havoids => (avoidsVendors_iff.1 havoids).2 h]

theorem transform_eq_none_iff (hook : Hook) (id code : String) :
    hook.transform id code = none ↔
      HasVendor hook.vendorDirs (Path.normalize (cleanId id)) ∨
        hook.table[Path.normalize (cleanId id)]? = none ∨
        PassesVendor hook.vendorDirs (cleanId id) := by
  by_cases hpasses : PassesVendor hook.vendorDirs (cleanId id)
  · exact iff_of_true (transform_of_passesVendor hpasses code) (.inr (.inr hpasses))
  rw [transform_of_not_passesVendor hpasses]
  by_cases hhas : HasVendor hook.vendorDirs (Path.normalize (cleanId id))
  · exact iff_of_true (if_pos hhas) (.inl hhas)
  · rw [if_neg hhas, Option.map_eq_none_iff]
    simp only [hhas, hpasses, false_or, or_false]

/-- What decides about a file is the normal spelling of its path, with one exception: a file is
left alone if the spelling that is given has a directory of a vendor on a detour. Only if one of two
spellings of a path has such a detour and the other has none can their answers differ. -/
theorem transform_spellings (hook : Hook)
    (hsame : Path.normalize (cleanId id) = Path.normalize (cleanId other)) :
    (∀ code, hook.transform id code = none ↔
        HasVendor hook.vendorDirs (Path.normalize (cleanId id)) ∨
          hook.table[Path.normalize (cleanId id)]? = none ∨
          PassesVendor hook.vendorDirs (cleanId id)) ∧
      ((∀ code, hook.transform id code = hook.transform other code) ↔
        HasVendor hook.vendorDirs (Path.normalize (cleanId id)) ∨
          hook.table[Path.normalize (cleanId id)]? = none ∨
          (PassesVendor hook.vendorDirs (cleanId id) ↔
            PassesVendor hook.vendorDirs (cleanId other))) := by
  have hfirst (code : String) := transform_eq_none_iff hook id code
  have hsecond (code : String) := transform_eq_none_iff hook other code
  rw [← hsame] at hsecond
  refine ⟨hfirst, ?differ, ?agree⟩
  case differ =>
    intro hequal
    by_cases hhas : HasVendor hook.vendorDirs (Path.normalize (cleanId id))
    · exact .inl hhas
    by_cases hlisted : hook.table[Path.normalize (cleanId id)]? = none
    · exact .inr (.inl hlisted)
    right
    right
    have hpasses := hequal "" ▸ hfirst ""
    simpa only [hhas, hlisted, false_or] using hpasses.symm.trans (hsecond "")
  case agree =>
    rintro (hhas | hlisted | hpasses) code
    · rw [(hfirst code).2 (.inl hhas), (hsecond code).2 (.inl hhas)]
    · rw [(hfirst code).2 (.inr (.inl hlisted)), (hsecond code).2 (.inr (.inl hlisted))]
    by_cases hid : PassesVendor hook.vendorDirs (cleanId id)
    · rw [transform_of_passesVendor hid, transform_of_passesVendor (hpasses.1 hid)]
    · rw [transform_of_not_passesVendor hid, transform_of_not_passesVendor (mt hpasses.2 hid),
        hsame]

/-- A hook for one file. -/
def appHook : Hook :=
  ⟨Std.ExtTreeMap.ofList [("/p/app.ts", Std.ExtTreeMap.ofList [("Color.Red", "0")])],
    ["node_modules"]⟩

theorem transform_spellings_app :
    Path.normalize (cleanId "/p//src/../app.ts?raw") = Path.normalize (cleanId "\\p\\.\\app.ts") ∧
      appHook.transform "/p//src/../app.ts?raw" "f(Color.Red)" =
        appHook.transform "\\p\\.\\app.ts" "f(Color.Red)" := by
  have hsame : Path.normalize (cleanId "/p//src/../app.ts?raw") =
      Path.normalize (cleanId "\\p\\.\\app.ts") := by
    decide +kernel
  have hid : ¬ PassesVendor appHook.vendorDirs (cleanId "/p//src/../app.ts?raw") :=
    (avoidsVendors_iff.1 (by decide +kernel)).2
  have hother : ¬ PassesVendor appHook.vendorDirs (cleanId "\\p\\.\\app.ts") :=
    (avoidsVendors_iff.1 (by decide +kernel)).2
  have hagree := (transform_spellings appHook hsame).2.2 (.inr (.inr (iff_of_false hid hother)))
  exact ⟨hsame, hagree _⟩

/-- A directory of a vendor that the path leaves again keeps the file from being transformed. -/
theorem transform_detour :
    Path.normalize (cleanId "/p/node_modules/../app.ts") = Path.normalize (cleanId "/p/app.ts") ∧
      ¬ HasVendor appHook.vendorDirs "/p/app.ts" ∧
      appHook.transform "/p/app.ts" "f(Color.Red)" = some "f(0)" ∧
      appHook.transform "/p/node_modules/../app.ts" "f(Color.Red)" = none := by
  decide +kernel

end EnumInline.Hook
