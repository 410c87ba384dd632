import EnumInline.Substitution

/-!
The accesses that a text contains, said without a scanner: two names around a
point, neither of them part of a longer run of name characters nor the access
part of a longer chain of members. No two of them overlap. Positions count
characters.
-/

namespace EnumInline.Substitution

open Text

/-- The characters of a text from position `start` up to position `stop`. -/
def slice (code : List Char) (start stop : Nat) : List Char :=
  (code.take stop).drop start

/-- A part of a text. The character at `stop` is the first that is no longer
in it. -/
structure Span where
  start : Nat
  stop : Nat
  deriving DecidableEq, Repr

def Span.text (span : Span) (code : List Char) : List Char :=
  slice code span.start span.stop

/-- A maximal run of name characters. -/
structure IsRun (code : List Char) (start stop : Nat) : Prop where
  nonempty : start < stop
  inside : ∀ i, start ≤ i → i < stop →
    ∃ c, code[i]? = some c ∧ continuesToken c = true
  earlier : ∀ i c, i + 1 = start → code[i]? = some c → continuesToken c = false
  later : ∀ c, code[stop]? = some c → continuesToken c = false

/-- A maximal run that begins as a name does. -/
structure IsName (code : List Char) (start stop : Nat) : Prop
    extends IsRun code start stop where
  head : ∃ c, code[start]? = some c ∧ startsToken c = true

/-- The text before a position ends in a point that is not the last of
a spread. -/
def FollowsPoint (code : List Char) (position : Nat) : Prop :=
  ['.'] <:+ code.take position ∧ ¬ ['.', '.', '.'] <:+ code.take position

/-- A span is an access that has an entry. -/
structure IsOccurrence (entries : Entries) (code : List Char)
    (span : Span) : Prop where
  access : ∃ middle, IsName code span.start middle ∧ code[middle]? = some '.' ∧
    IsName code (middle + 1) span.stop
  whole : ¬ FollowsPoint code span.start
  entry : String.ofList (span.text code) ∈ entries

/-- What an occurrence is replaced by: the text of its entry, in one pair of brackets if it needs
them between the text before the occurrence and the text after it. -/
def replacement (entries : Entries) (code : List Char) (span : Span) : List Char :=
  let text := (entries.getD (String.ofList (span.text code)) "").toList
  if needsBrackets (code.take span.start).reverse text (code.drop span.stop) then
    '(' :: text ++ [')']
  else text

/-- A text from a position on, with spans of it replaced. -/
def splice (code : List Char) (replace : Span → List Char) :
    (position : Nat) → List Span → List Char
  | position, [] => code.drop position
  | position, span :: rest =>
      slice code position span.start ++ replace span ++
        splice code replace span.stop rest

section Runs

variable {code : List Char} {start stop other : Nat}

/-- The characters that accesses, literals and brackets have besides names and digits. -/
theorem continuesToken_of_mem_symbols {c : Char}
    (h : c ∈ ['.', '"', '-', '+', '~', '!', '(', ')']) : continuesToken c = false := by
  have hall : ['.', '"', '-', '+', '~', '!', '(', ')'].all (!continuesToken ·) = true := by
    decide +kernel
  simpa using List.all_eq_true.1 hall c h

theorem continuesToken_point : continuesToken '.' = false :=
  continuesToken_of_mem_symbols (by simp)

theorem continuesToken_of_startsToken {c : Char} (h : startsToken c = true) :
    continuesToken c = true := by
  simp only [startsToken, Bool.or_eq_true] at h
  simp only [continuesToken, isAlphanumeric, Bool.or_eq_true]
  rcases h with (halphabetic | hunderscore) | hdollar
  · exact Or.inl (Or.inl (Or.inl halphabetic))
  · exact Or.inl (Or.inr hunderscore)
  · exact Or.inr hdollar

theorem IsRun.le_length (h : IsRun code start stop) : stop ≤ code.length := by
  have hnonempty := h.nonempty
  obtain ⟨c, hlast, _⟩ := h.inside (stop - 1) (by omega) (by omega)
  have hlt := (List.getElem?_eq_some_iff.mp hlast).1
  omega

/-- A run does not go on where it ends. -/
theorem IsRun.stop_le (h : IsRun code start stop)
    (hother : IsRun code start other) : stop ≤ other := by
  apply Nat.le_of_not_lt
  intro hlt
  obtain ⟨c, hc, hcontinues⟩ := h.inside other (Nat.le_of_lt hother.nonempty) hlt
  simp [hother.later c hc] at hcontinues

theorem IsRun.stop_unique (h : IsRun code start stop)
    (hother : IsRun code start other) : stop = other :=
  Nat.le_antisymm (h.stop_le hother) (hother.stop_le h)

theorem IsRun.not_inside (h : IsRun code start stop) {position : Nat}
    (hstart : start < position) (hstop : position < stop) :
    ¬ IsRun code position other := by
  intro hother
  obtain ⟨c, hc, hcontinues⟩ := h.inside (position - 1) (by omega) (by omega)
  simp [hother.earlier (position - 1) c (by omega) hc] at hcontinues

theorem IsRun.ne_point (h : IsRun code start stop) {position : Nat}
    (hstart : start ≤ position) (hstop : position < stop) :
    code[position]? ≠ some '.' := by
  intro hpoint
  obtain ⟨c, hc, hcontinues⟩ := h.inside position hstart hstop
  obtain rfl : c = '.' := Option.some.inj (hc.symm.trans hpoint)
  simp [continuesToken_point] at hcontinues

/-- The point behind a run is not the last of a spread. -/
theorem IsRun.followsPoint (h : IsRun code start stop)
    (hpoint : code[stop]? = some '.') : FollowsPoint code (stop + 1) := by
  obtain ⟨hlt, hat⟩ := List.getElem?_eq_some_iff.mp hpoint
  have hnonempty := h.nonempty
  constructor
  · rw [List.take_add_one, hpoint]
    exact List.suffix_append _ _
  · rintro ⟨earlier, hspread⟩
    have hlength := congrArg List.length hspread
    simp only [List.length_append, List.length_cons, List.length_nil,
      List.length_take] at hlength
    have hearlier : earlier.length + 1 = stop - 1 := by omega
    have hpoint : code[stop - 1]? = some '.' := by
      rw [← List.getElem?_take_of_lt (by omega : stop - 1 < stop + 1), ← hspread,
        ← hearlier]
      simp
    exact h.ne_point (by omega) (by omega) hpoint

end Runs

section Occurrences

variable {entries : Entries} {code : List Char} {first second : Span}

theorem IsOccurrence.start_lt (h : IsOccurrence entries code first) :
    first.start < first.stop := by
  obtain ⟨middle, hfirst, _, hsecond⟩ := h.access
  have := hfirst.nonempty
  have := hsecond.nonempty
  omega

theorem IsOccurrence.le_length (h : IsOccurrence entries code first) :
    first.stop ≤ code.length := by
  obtain ⟨middle, _, _, hsecond⟩ := h.access
  exact hsecond.le_length

theorem IsOccurrence.eq_of_start (h : IsOccurrence entries code first)
    (hother : IsOccurrence entries code second)
    (hstart : first.start = second.start) : first = second := by
  obtain ⟨middle, hfirst, _, hsecond⟩ := h.access
  obtain ⟨other, hname, _, hmember⟩ := hother.access
  obtain ⟨start, stop⟩ := first
  obtain ⟨otherStart, otherStop⟩ := second
  dsimp only at hstart hfirst hsecond hname hmember
  subst hstart
  obtain rfl := hfirst.stop_unique hname.toIsRun
  obtain rfl := hsecond.stop_unique hmember.toIsRun
  rfl

/-- No occurrence begins inside another: a run begins there only behind the
point, and what follows a point is no access of its own. -/
theorem IsOccurrence.stop_le_start (h : IsOccurrence entries code first)
    (hother : IsOccurrence entries code second)
    (hstart : first.start < second.start) : first.stop ≤ second.start := by
  obtain ⟨middle, hfirst, hpoint, hsecond⟩ := h.access
  obtain ⟨_, hname, _, _⟩ := hother.access
  apply Nat.le_of_not_lt
  intro hinside
  rcases Nat.lt_trichotomy second.start middle with hlt | heq | hgt
  · exact hfirst.not_inside hstart hlt hname.toIsRun
  · exact hname.ne_point (Nat.le_refl _) hname.nonempty (heq ▸ hpoint)
  · rcases Nat.eq_or_lt_of_le hgt with heq | hgt
    · exact hother.whole (heq ▸ hfirst.followsPoint hpoint)
    · exact hsecond.not_inside hgt (by omega) hname.toIsRun

/-- No two occurrences overlap. -/
theorem IsOccurrence.disjoint (h : IsOccurrence entries code first)
    (hother : IsOccurrence entries code second) (hne : first ≠ second) :
    first.stop ≤ second.start ∨ second.stop ≤ first.start := by
  rcases Nat.lt_trichotomy first.start second.start with hlt | heq | hgt
  · exact Or.inl (h.stop_le_start hother hlt)
  · exact absurd (h.eq_of_start hother heq) hne
  · exact Or.inr (hother.stop_le_start h hgt)

end Occurrences

section Decidability

variable {entries : Entries} {code : List Char} {start stop : Nat}

theorem isRun_iff :
    IsRun code start stop ↔
      start < stop ∧ (∀ i < stop, start ≤ i → code[i]?.any continuesToken = true) ∧
        (∀ i < start, i + 1 = start → code[i]?.any continuesToken = false) ∧
        code[stop]?.any continuesToken = false := by
  constructor
  · rintro ⟨hnonempty, hinside, hearlier, hlater⟩
    refine ⟨hnonempty, ?_, ?_, ?_⟩
    · intro i hstop hstart
      obtain ⟨c, hc, hcontinues⟩ := hinside i hstart hstop
      simp [hc, hcontinues]
    · intro i _ hi
      cases hc : code[i]? with
      | none => rfl
      | some c => exact hearlier i c hi hc
    · cases hc : code[stop]? with
      | none => rfl
      | some c => exact hlater c hc
  · rintro ⟨hnonempty, hinside, hearlier, hlater⟩
    refine ⟨hnonempty, ?_, ?_, ?_⟩
    · intro i hstart hstop
      exact (Option.any_eq_true _ _).mp (hinside i hstop hstart)
    · intro i c hi hc
      simpa [hc] using hearlier i (by omega) hi
    · intro c hc
      simpa [hc] using hlater

instance : Decidable (IsRun code start stop) := decidable_of_iff _ isRun_iff.symm

theorem isName_iff :
    IsName code start stop ↔
      IsRun code start stop ∧ code[start]?.any startsToken = true := by
  rw [Option.any_eq_true]
  exact ⟨fun h => ⟨h.toIsRun, h.head⟩, fun ⟨hrun, hhead⟩ => ⟨hrun, hhead⟩⟩

instance : Decidable (IsName code start stop) := decidable_of_iff _ isName_iff.symm

instance : Decidable (FollowsPoint code start) := inferInstanceAs (Decidable (_ ∧ _))

/-- The name before the point of an occurrence ends inside it. -/
theorem isOccurrence_iff {span : Span} :
    IsOccurrence entries code span ↔
      (∃ middle < span.stop, IsName code span.start middle ∧ code[middle]? = some '.' ∧
        IsName code (middle + 1) span.stop) ∧
      ¬ FollowsPoint code span.start ∧ String.ofList (span.text code) ∈ entries := by
  constructor
  · rintro ⟨⟨middle, hfirst, hpoint, hsecond⟩, hwhole, hentry⟩
    have hmiddle : middle < span.stop := by
      have := hsecond.nonempty
      omega
    exact ⟨⟨middle, hmiddle, hfirst, hpoint, hsecond⟩, hwhole, hentry⟩
  · rintro ⟨⟨middle, _, haccess⟩, hwhole, hentry⟩
    exact ⟨⟨middle, haccess⟩, hwhole, hentry⟩

instance {span : Span} : Decidable (IsOccurrence entries code span) :=
  decidable_of_iff _ isOccurrence_iff.symm

end Decidability

end EnumInline.Substitution
