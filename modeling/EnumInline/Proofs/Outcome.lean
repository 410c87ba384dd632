/-!
Computations that may fail: what is known of the parts when the whole succeeds, and
what an evaluated outcome says.
-/

namespace EnumInline

variable {α β ε δ : Type}

theorem ok_of_bind {first : Except ε α} {next : α → Except ε β} {result : β}
    (h : (first >>= next) = .ok result) :
    ∃ found, first = .ok found ∧ next found = .ok result := by
  cases first with
  | error cause => cases h
  | ok found => exact ⟨found, rfl, h⟩

theorem ok_of_mapError {first : Except ε α} {f : ε → δ} {result : α}
    (h : first.mapError f = .ok result) : first = .ok result := by
  cases first with
  | error cause => cases h
  | ok found => exact congrArg _ (Except.ok.inj h)

theorem mapM_cons_ok {f : α → Except ε β} {item : α}
    {rest : List α} {results : List β} (h : (item :: rest).mapM f = .ok results) :
    ∃ result others, f item = .ok result ∧ rest.mapM f = .ok others ∧
      results = result :: others := by
  rw [List.mapM_cons] at h
  cases hitem : f item with
  | error error =>
    rw [hitem] at h
    cases h
  | ok result =>
    cases hrest : rest.mapM f with
    | error error =>
      rw [hitem, hrest] at h
      cases h
    | ok others =>
      rw [hitem, hrest] at h
      cases h
      exact ⟨result, others, rfl, rfl, rfl⟩

theorem mapM_ok {f : α → Except ε β} {items : List α}
    {results : List β} (h : items.mapM f = .ok results) :
    (∀ item ∈ items, ∃ result ∈ results, f item = .ok result) ∧
      ∀ result ∈ results, ∃ item ∈ items, f item = .ok result := by
  induction items generalizing results with
  | nil =>
    cases h
    simp
  | cons item rest ih =>
    obtain ⟨result, others, hitem, hrest, rfl⟩ := mapM_cons_ok h
    obtain ⟨hall, hback⟩ := ih hrest
    constructor
    · intro other hother
      rcases List.mem_cons.mp hother with rfl | hother
      · exact ⟨result, by simp, hitem⟩
      · obtain ⟨found, hfound, hresult⟩ := hall other hother
        exact ⟨found, by simp [hfound], hresult⟩
    · intro other hother
      rcases List.mem_cons.mp hother with rfl | hother
      · exact ⟨item, by simp, hitem⟩
      · obtain ⟨found, hfound, hresult⟩ := hback other hother
        exact ⟨found, by simp [hfound], hresult⟩

theorem mapM_error {f : α → Except ε β} {items : List α}
    {error : ε} (h : items.mapM f = .error error) :
    ∃ earlier item later, items = earlier ++ item :: later ∧
      f item = .error error ∧
      ∀ other ∈ earlier, ∃ result, f other = .ok result := by
  induction items with
  | nil => cases h
  | cons item rest ih =>
    rw [List.mapM_cons] at h
    cases hitem : f item with
    | error cause =>
      rw [hitem] at h
      cases h
      exact ⟨[], item, rest, rfl, hitem, by simp⟩
    | ok result =>
      cases hrest : rest.mapM f with
      | ok results =>
        rw [hitem, hrest] at h
        cases h
      | error cause =>
        rw [hitem, hrest] at h
        cases h
        obtain ⟨earlier, failing, later, rfl, hfailing, hearlier⟩ := ih hrest
        refine ⟨item :: earlier, failing, later, rfl, hfailing, ?_⟩
        intro other hother
        rcases List.mem_cons.mp hother with rfl | hother
        · exact ⟨result, hitem⟩
        · exact hearlier other hother

/-- Where the first computation succeeds, the second does so with the same result. -/
def Succeeds (first second : Except ε α) : Prop :=
  ∀ result, first = .ok result → second = .ok result

theorem Succeeds.refl (first : Except ε α) : Succeeds first first := fun _ h => h

theorem Succeeds.bind {first second : Except ε α} {next after : α → Except ε β}
    (h : Succeeds first second) (hnext : ∀ found, Succeeds (next found) (after found)) :
    Succeeds (first >>= next) (second >>= after) := by
  intro result hresult
  obtain ⟨found, hfirst, hfound⟩ := ok_of_bind hresult
  rw [h found hfirst]
  exact hnext found result hfound

theorem Succeeds.foldlM {first second : β → α → Except ε β} (items : List α) (start : β)
    (h : ∀ state item, Succeeds (first state item) (second state item)) :
    Succeeds (items.foldlM first start) (items.foldlM second start) := by
  induction items generalizing start with
  | nil => exact .refl _
  | cons item rest ih =>
    rw [List.foldlM_cons, List.foldlM_cons]
    exact (h start item).bind ih

section Evaluated

variable {first : Except ε α}

theorem exists_ok_of_any {holds : α → Bool}
    (h : first.toOption.any holds = true) : ∃ found, first = .ok found ∧ holds found = true := by
  cases first with
  | error cause => cases h
  | ok found => exact ⟨found, rfl, h⟩

theorem ok_of_toOption {found : α}
    (h : first.toOption = some found) : first = .ok found := by
  cases first with
  | error cause => cases h
  | ok result => exact congrArg _ (Option.some.inj h)

end Evaluated

end EnumInline
