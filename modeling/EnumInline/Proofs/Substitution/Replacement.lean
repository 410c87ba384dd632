import EnumInline.Proofs.KeyedList
import EnumInline.Proofs.Substitution.Occurrence

/-!
The scanner replaces exactly the occurrences. It stands at the start of the
text or at the end of a run; what it passes over from there holds no
occurrence, and what it replaces is the one at the next run.
-/

namespace EnumInline.Substitution

open Text

section Slices

variable {code : List Char} {first second third : Nat}

theorem length_slice (hstop : second ≤ code.length) :
    (slice code first second).length = second - first := by
  simp only [slice, List.length_drop, List.length_take]
  omega

theorem take_append_slice (h : first ≤ second) :
    code.take first ++ slice code first second = code.take second := by
  have htake : code.take first = (code.take second).take first := by
    rw [List.take_take, Nat.min_eq_left h]
  rw [htake, slice, List.take_append_drop]

theorem slice_append_drop (h : first ≤ second) :
    slice code first second ++ code.drop second = code.drop first := by
  apply (List.append_right_inj (code.take first)).mp
  rw [← List.append_assoc, take_append_slice h, List.take_append_drop,
    List.take_append_drop]

theorem slice_append_slice (h : first ≤ second) (hother : second ≤ third) :
    slice code first second ++ slice code second third =
      slice code first third := by
  apply (List.append_right_inj (code.take first)).mp
  rw [← List.append_assoc, take_append_slice h, take_append_slice hother,
    take_append_slice (Nat.le_trans h hother)]

theorem drop_length_slice (h : first ≤ second) (hstop : second ≤ code.length) :
    (code.drop first).drop (slice code first second).length =
      code.drop second := by
  rw [length_slice hstop, List.drop_drop]
  congr 1
  omega

theorem reverse_slice_append (h : first ≤ second) :
    (slice code first second).reverse ++ (code.take first).reverse =
      (code.take second).reverse := by
  rw [← List.reverse_append, take_append_slice h]

/-- What a text has from a position on as long as a condition holds, by the
position where it ends. -/
theorem takeWhile_drop (holds : Char → Bool) (h : first ≤ code.length) :
    ∃ stop, first ≤ stop ∧ stop ≤ code.length ∧
      (code.drop first).takeWhile holds = slice code first stop ∧
      (∀ i, first ≤ i → i < stop → ∃ c, code[i]? = some c ∧ holds c = true) ∧
      ∀ c, code[stop]? = some c → holds c = false := by
  let count := (code.drop first).findIdx fun c => !holds c
  have hcount : count ≤ (code.drop first).length := List.findIdx_le_length
  rw [List.length_drop] at hcount
  refine ⟨first + count, by omega, by omega, ?_, ?_, ?_⟩
  · rw [List.takeWhile_eq_take_findIdx_not, slice, List.drop_take,
      Nat.add_sub_cancel_left]
  · intro i hstart hstop
    have hi : i < code.length := by omega
    have hlt : i - first < count := by omega
    have hholds := List.not_of_lt_findIdx hlt
    refine ⟨code[i], List.getElem?_eq_getElem hi, ?_⟩
    simpa [Nat.add_sub_cancel' hstart] using hholds
  · intro c hc
    rw [← List.getElem?_drop] at hc
    simpa using List.findIdx_of_getElem?_eq_some hc

end Slices

section Access

variable {entries : Entries} {code : List Char} {start middle stop : Nat}

theorem drop_eq_cons {position : Nat} {c : Char}
    (h : code[position]? = some c) :
    code.drop position = c :: code.drop (position + 1) := by
  obtain ⟨hlt, rfl⟩ := List.getElem?_eq_some_iff.mp h
  exact List.drop_eq_getElem_cons hlt

theorem getElem?_of_drop_eq_cons {position : Nat} {c : Char} {rest : List Char}
    (h : code.drop position = c :: rest) :
    code[position]? = some c ∧ code.drop (position + 1) = rest := by
  have hat : (code.drop position)[0]? = some c := by rw [h, List.getElem?_cons_zero]
  rw [List.getElem?_drop, Nat.add_zero] at hat
  exact ⟨hat, (List.cons.inj ((drop_eq_cons hat).symm.trans h)).2⟩

/-- A run from a position on ends where its characters do. -/
theorem IsRun.takeWhile_eq (h : IsRun code start stop) :
    (code.drop start).takeWhile continuesToken = slice code start stop := by
  have hnonempty := h.nonempty
  have hlength := h.le_length
  obtain ⟨other, hle, hother, hslice, hinside, hlater⟩ :=
    takeWhile_drop continuesToken (by omega : start ≤ code.length)
  have hrun : IsRun code start other := by
    refine ⟨?_, hinside, h.earlier, hlater⟩
    obtain ⟨c, hc, hcontinues⟩ := h.inside start (by omega) hnonempty
    apply Nat.lt_of_le_of_ne hle
    rintro rfl
    simp [hlater c hc] at hcontinues
  rw [hslice, hrun.stop_unique h]

theorem exists_isRun
    (hinside : ∃ c, code[start]? = some c ∧ continuesToken c = true) (hearlier :
      ∀ i c, i + 1 = start → code[i]? = some c → continuesToken c = false) :
    ∃ stop, IsRun code start stop := by
  obtain ⟨c, hc, hcontinues⟩ := hinside
  have hlt := (List.getElem?_eq_some_iff.mp hc).1
  obtain ⟨stop, hle, _, _, hinside, hlater⟩ :=
    takeWhile_drop continuesToken (Nat.le_of_lt hlt)
  refine ⟨stop, Nat.lt_of_le_of_ne hle ?_, hinside, hearlier, hlater⟩
  rintro rfl
  simp [hlater c hc] at hcontinues

theorem access?_of_isName (hfirst : IsRun code start middle)
    (hpoint : code[middle]? = some '.')
    (hsecond : IsName code (middle + 1) stop) :
    access? (slice code start middle) (code.drop middle) =
      some (slice code start stop, code.drop stop) := by
  obtain ⟨c, hc, hstarts⟩ := hsecond.head
  have hrest : code.drop middle = '.' :: code.drop (middle + 1) :=
    drop_eq_cons hpoint
  have htail : c :: code.drop (middle + 2) = code.drop (middle + 1) :=
    (drop_eq_cons hc).symm
  have hstart := hfirst.nonempty
  have hmiddle := hsecond.nonempty
  have hslice : slice code middle stop = '.' :: slice code (middle + 1) stop := by
    have hpoint : (code.take stop)[middle]? = some '.' := by
      rwa [List.getElem?_take_of_lt (by omega)]
    exact drop_eq_cons hpoint
  simp only [hrest, drop_eq_cons hc, access?, if_pos hstarts]
  rw [htail, hsecond.takeWhile_eq, drop_length_slice (by omega) hsecond.le_length,
    ← hslice,
    slice_append_slice (by omega) (by omega)]

theorem exists_isName_of_access? {found : List Char × List Char}
    (h : access? (slice code start middle) (code.drop middle) = some found) :
    code[middle]? = some '.' ∧ ∃ stop, IsName code (middle + 1) stop := by
  unfold access? at h
  split at h
  case h_1 c tail hrest =>
    split at h
    case isTrue hstarts =>
      obtain ⟨hpoint, hnext⟩ := getElem?_of_drop_eq_cons hrest
      obtain ⟨hc, _⟩ := getElem?_of_drop_eq_cons hnext
      refine ⟨hpoint, ?_⟩
      obtain ⟨stop, hrun⟩ :=
        exists_isRun ⟨c, hc, continuesToken_of_startsToken hstarts⟩ (by
        intro i d hi hd
        obtain rfl : i = middle := by omega
        obtain rfl : d = '.' := Option.some.inj (hd.symm.trans hpoint)
        exact continuesToken_point)
      exact ⟨stop, hrun, c, hc, hstarts⟩
    case isFalse => cases h
  case h_2 => cases h

theorem endsInPoint_iff :
    endsInPoint (code.take start).reverse = true ↔ FollowsPoint code start := by
  have hspread : ['.', '.', '.'].isPrefixOf (code.take start).reverse = true ↔
      ['.', '.', '.'] <:+ code.take start := by
    rw [List.isPrefixOf_iff_prefix]
    change ['.', '.', '.'].reverse <+: (code.take start).reverse ↔ _
    exact List.reverse_prefix
  have hpoint : ((code.take start).reverse.head? == some '.') = true ↔
      ['.'] <:+ code.take start := by
    rw [beq_iff_eq, List.head?_eq_some_iff]
    constructor
    · rintro ⟨earlier, heq⟩
      exact List.reverse_prefix.mp ⟨earlier, heq.symm⟩
    · intro hsuffix
      obtain ⟨earlier, heq⟩ := List.reverse_prefix.mpr hsuffix
      exact ⟨earlier, heq.symm⟩
  rw [endsInPoint, FollowsPoint, Bool.and_eq_true, hpoint, Bool.not_eq_true',
    ← Bool.not_eq_true,
    hspread]

theorem head?_slice (h : start < stop) :
    (slice code start stop).head? = code[start]? := by
  rw [slice, List.head?_drop, List.getElem?_take_of_lt h]

theorem occurrence?_of_isOccurrence (hrun : IsRun code start middle)
    (h : IsOccurrence entries code ⟨start, stop⟩) :
    occurrence? entries (code.take start).reverse (slice code start middle)
      (code.drop middle) =
      some (slice code start stop,
        entries.getD (String.ofList (slice code start stop)) "",
          code.drop stop) := by
  obtain ⟨other, hfirst, hpoint, hsecond⟩ := h.access
  obtain rfl := hrun.stop_unique hfirst.toIsRun
  obtain ⟨c, hc, hstarts⟩ := hfirst.head
  have hhead : (slice code start middle).head?.any startsToken = true := by
    rw [head?_slice hrun.nonempty, hc]
    exact hstarts
  have hwhole : endsInPoint (code.take start).reverse = false := by
    rw [← Bool.not_eq_true, endsInPoint_iff]
    exact h.whole
  obtain ⟨text, htext⟩ := KeyedList.mem_iff_exists.mp h.entry
  change entries[String.ofList (slice code start stop)]? = some text at htext
  simp [occurrence?, hhead, hwhole, access?_of_isName hrun hpoint hsecond, htext,
    Std.ExtTreeMap.getD_eq_getD_getElem?]

theorem exists_isOccurrence (hrun : IsRun code start middle)
    {found : List Char × String × List Char}
    (h : occurrence? entries (code.take start).reverse (slice code start middle)
        (code.drop middle) =
        some found) : ∃ stop, IsOccurrence entries code ⟨start, stop⟩ := by
  unfold occurrence? at h
  split at h
  case isTrue hname =>
    obtain ⟨hhead, hwhole⟩ := Bool.and_eq_true_iff.mp hname
    rw [head?_slice hrun.nonempty] at hhead
    obtain ⟨c, hc, hstarts⟩ := (Option.any_eq_true _ _).mp hhead
    obtain ⟨⟨access, after⟩, haccess, hentry⟩ := Option.bind_eq_some_iff.mp h
    obtain ⟨hpoint, stop, hsecond⟩ := exists_isName_of_access? haccess
    obtain ⟨rfl, rfl⟩ : slice code start stop = access ∧
      code.drop stop = after := by
      simpa [access?_of_isName hrun hpoint hsecond] using haccess
    obtain ⟨text, htext, _⟩ := Option.map_eq_some_iff.mp hentry
    refine ⟨stop, ⟨middle, ⟨hrun, c, hc, hstarts⟩, hpoint, hsecond⟩, ?_, ?_⟩
    · rw [← endsInPoint_iff]
      simpa using hwhole
    · exact KeyedList.mem_iff_exists.mpr ⟨text, htext⟩
  case isFalse => cases h

end Access

section Scan

variable {entries : Entries} {code : List Char} {position start middle stop : Nat}

/-- From `position` to `start` there are no name characters, and the scanner
passes over just these characters. -/
structure IsGap (code : List Char) (position start : Nat) : Prop where
  le : position ≤ start
  le_length : start ≤ code.length
  inside : ∀ i, position ≤ i → i < start →
    ∃ c, code[i]? = some c ∧ continuesToken c = false
  passed : (code.drop position).takeWhile (fun c => !continuesToken c) =
    slice code position start

/-- No run goes on at a position. -/
def IsEdge (code : List Char) (position : Nat) : Prop :=
  position = 0 ∨ ∀ c, code[position]? = some c → continuesToken c = false

theorem go_of_gap {fuel : Nat} (hgap : IsGap code position start)
    (hrun : IsRun code start middle) :
    go entries (fuel + 1) (code.take position).reverse (code.drop position) =
      match occurrence? entries (code.take start).reverse (slice code start middle)
          (code.drop middle) with
      | some (access, literal, after) =>
          slice code position start ++
            inserted (code.take start).reverse literal.toList after ++
            go entries fuel (access.reverse ++ (code.take start).reverse) after
      | none =>
          slice code position start ++ slice code start middle ++
            go entries fuel (code.take middle).reverse (code.drop middle) := by
  have hle : start ≤ middle := Nat.le_of_lt hrun.nonempty
  have hname : (slice code start middle).isEmpty = false := by
    have hnonempty := hrun.nonempty
    apply List.isEmpty_eq_false_iff_exists_mem.mpr
    apply List.exists_mem_of_length_pos
    rw [length_slice hrun.le_length]
    omega
  simp only [go, hgap.passed, drop_length_slice hgap.le hgap.le_length,
    reverse_slice_append hgap.le, hrun.takeWhile_eq, hname,
    drop_length_slice hle hrun.le_length, reverse_slice_append hle]
  rfl

/-- The scanner replaces the occurrence that begins at the next run. -/
theorem go_of_isOccurrence {fuel : Nat} (hgap : IsGap code position start)
    (hrun : IsRun code start middle)
    (h : IsOccurrence entries code ⟨start, stop⟩) :
    go entries (fuel + 1) (code.take position).reverse (code.drop position) =
      slice code position start ++ replacement entries code ⟨start, stop⟩ ++
        go entries fuel (code.take stop).reverse (code.drop stop) := by
  rw [go_of_gap hgap hrun, occurrence?_of_isOccurrence hrun h]
  simp only [reverse_slice_append (Nat.le_of_lt h.start_lt)]
  rfl

/-- A run at which no occurrence begins is passed over. -/
theorem go_of_not_isOccurrence {fuel : Nat} (hgap : IsGap code position start)
    (hrun : IsRun code start middle)
    (h : ∀ stop, ¬ IsOccurrence entries code ⟨start, stop⟩) :
    go entries (fuel + 1) (code.take position).reverse (code.drop position) =
      slice code position middle ++
        go entries fuel (code.take middle).reverse (code.drop middle) := by
  rw [go_of_gap hgap hrun]
  cases hfound : occurrence? entries (code.take start).reverse
      (slice code start middle) (code.drop middle) with
  | some found =>
    obtain ⟨stop, hoccurrence⟩ := exists_isOccurrence hrun hfound
    exact absurd hoccurrence (h stop)
  | none =>
    simp only [slice_append_slice hgap.le (Nat.le_of_lt hrun.nonempty)]

theorem go_of_last {fuel : Nat} (hgap : IsGap code position code.length) :
    go entries (fuel + 1) (code.take position).reverse (code.drop position) =
      code.drop position := by
  have hpassed := hgap.passed
  rw [slice, List.take_length] at hpassed
  simp only [go, hpassed, List.drop_length, List.takeWhile_nil,
    List.isEmpty_nil, if_true]

/-- From an edge on, the next run is found, or there is none. -/
theorem exists_gap (hposition : position ≤ code.length)
    (hedge : IsEdge code position) :
    ∃ start, IsGap code position start ∧
      (start = code.length ∨ ∃ middle, IsRun code start middle) := by
  obtain ⟨start, hle, hlength, hpassed, hinside, hlater⟩ :=
    takeWhile_drop (fun c => !continuesToken c) hposition
  simp only [Bool.not_eq_true', Bool.not_eq_false'] at hinside hlater
  refine ⟨start, ⟨hle, hlength, hinside, hpassed⟩, ?_⟩
  rcases Nat.eq_or_lt_of_le hlength with hend | hlt
  · exact Or.inl hend
  · have hat : code[start]? = some code[start] := List.getElem?_eq_getElem hlt
    have hcontinues := hlater _ hat
    refine Or.inr (exists_isRun ⟨_, hat, hcontinues⟩ ?_)
    intro i c hi hc
    rcases Nat.eq_or_lt_of_le hle with rfl | hafter
    · rcases hedge with hzero | hedge
      · omega
      · simp [hedge _ hat] at hcontinues
    · obtain ⟨d, hd, hends⟩ := hinside i (by omega) (by omega)
      obtain rfl : c = d := Option.some.inj (hc.symm.trans hd)
      exact hends

theorem IsGap.le_start (hgap : IsGap code position start) {span : Span}
    (h : IsOccurrence entries code span) (hposition : position ≤ span.start) :
    start ≤ span.start := by
  apply Nat.le_of_not_lt
  intro hlt
  obtain ⟨middle, hname, _, _⟩ := h.access
  obtain ⟨c, hc, hends⟩ := hgap.inside span.start hposition hlt
  obtain ⟨d, hd, hcontinues⟩ :=
    hname.inside span.start (Nat.le_refl _) hname.nonempty
  obtain rfl : c = d := Option.some.inj (hc.symm.trans hd)
  simp [hends] at hcontinues

/-- The spans are those of the occurrences from a position on, in order. -/
structure Enumerates (entries : Entries) (code : List Char) (position : Nat)
    (spans : List Span) : Prop where
  ordered : spans.Pairwise fun first second => first.stop ≤ second.start
  mem_iff : ∀ span, span ∈ spans ↔
    IsOccurrence entries code span ∧ position ≤ span.start

theorem Enumerates.nil (hgap : IsGap code position code.length) :
    Enumerates entries code position [] := by
  refine ⟨.nil, fun span => ?_⟩
  constructor
  · intro hmem
    cases hmem
  · rintro ⟨hoccurrence, hafter⟩
    have hstart := hgap.le_start hoccurrence hafter
    have hlt := hoccurrence.start_lt
    have hbound := hoccurrence.le_length
    omega

theorem Enumerates.cons {spans : List Span} (hgap : IsGap code position start)
    (hfound : IsOccurrence entries code ⟨start, stop⟩)
    (h : Enumerates entries code stop spans) :
    Enumerates entries code position (⟨start, stop⟩ :: spans) := by
  have hle := hgap.le
  have hlt : start < stop := hfound.start_lt
  constructor
  · apply List.pairwise_cons.mpr
    exact ⟨fun span hspan => ((h.mem_iff span).mp hspan).2, h.ordered⟩
  · intro span
    rw [List.mem_cons, h.mem_iff]
    constructor
    · rintro (rfl | ⟨hoccurrence, hafter⟩)
      · exact ⟨hfound, hle⟩
      · exact ⟨hoccurrence, by omega⟩
    · rintro ⟨hoccurrence, hafter⟩
      have hstart := hgap.le_start hoccurrence hafter
      rcases Nat.eq_or_lt_of_le hstart with heq | hgt
      · exact Or.inl (hoccurrence.eq_of_start hfound heq.symm)
      · exact Or.inr ⟨hoccurrence, hfound.stop_le_start hoccurrence hgt⟩

theorem Enumerates.skip {spans : List Span} (hgap : IsGap code position start)
    (hrun : IsRun code start middle)
    (hnone : ∀ stop, ¬ IsOccurrence entries code ⟨start, stop⟩)
    (h : Enumerates entries code middle spans) :
    Enumerates entries code position spans := by
  have hle := hgap.le
  have hlt := hrun.nonempty
  refine ⟨h.ordered, fun span => ?_⟩
  rw [h.mem_iff]
  constructor
  · rintro ⟨hoccurrence, hafter⟩
    exact ⟨hoccurrence, by omega⟩
  · rintro ⟨hoccurrence, hafter⟩
    refine ⟨hoccurrence, ?_⟩
    obtain ⟨other, hname, _, _⟩ := hoccurrence.access
    apply Nat.le_of_not_lt
    intro hinside
    have hstart := hgap.le_start hoccurrence hafter
    rcases Nat.eq_or_lt_of_le hstart with heq | hgt
    · subst heq
      exact hnone _ hoccurrence
    · exact hrun.not_inside hgt hinside hname.toIsRun

theorem splice_of_le {replace : Span → List Char} {spans : List Span}
    (hle : position ≤ middle) (hspans : ∀ span ∈ spans, middle ≤ span.start) :
    splice code replace position spans =
      slice code position middle ++ splice code replace middle spans := by
  cases spans with
  | nil => exact (slice_append_drop hle).symm
  | cons span rest =>
    have hmiddle : middle ≤ span.start := hspans span (by simp)
    simp only [splice, ← slice_append_slice hle hmiddle, List.append_assoc]

/-- From an edge on, the scanner replaces the occurrences that begin there or
later. -/
theorem go_eq_splice {fuel : Nat} (hposition : position ≤ code.length)
    (hedge : IsEdge code position) (hfuel : code.length - position < fuel) :
    ∃ spans, Enumerates entries code position spans ∧
      go entries fuel (code.take position).reverse (code.drop position) =
        splice code (replacement entries code) position spans := by
  induction fuel generalizing position with
  | zero => omega
  | succ fuel ih =>
    obtain ⟨start, hgap, hend | ⟨middle, hrun⟩⟩ := exists_gap hposition hedge
    · subst hend
      exact ⟨[], .nil hgap, go_of_last hgap⟩
    · have hle := hgap.le
      have hnonempty := hrun.nonempty
      by_cases hfound : ∃ stop, IsOccurrence entries code ⟨start, stop⟩
      · obtain ⟨stop, hfound⟩ := hfound
        have hlt : start < stop := hfound.start_lt
        have hstop : stop ≤ code.length := hfound.le_length
        obtain ⟨_, _, _, hmember⟩ := hfound.access
        obtain ⟨spans, hspans, hgo⟩ := ih hstop (Or.inr hmember.later) (by omega)
        refine ⟨⟨start, stop⟩ :: spans, .cons hgap hfound hspans, ?_⟩
        rw [go_of_isOccurrence hgap hrun hfound, hgo, splice]
      · have hnone (stop : Nat) : ¬ IsOccurrence entries code ⟨start, stop⟩ :=
          fun hstop => hfound ⟨stop, hstop⟩
        have hlength := hrun.le_length
        obtain ⟨spans, hspans, hgo⟩ := ih hlength (Or.inr hrun.later) (by omega)
        refine ⟨spans, .skip hgap hrun hnone hspans, ?_⟩
        rw [go_of_not_isOccurrence hgap hrun hnone, hgo]
        apply (splice_of_le (by omega) ?_).symm
        intro span hspan
        exact ((hspans.mem_iff span).mp hspan).2

end Scan

/-- The occurrences in a text can be listed, and a replacement replaces those. -/
theorem exists_enumerates (entries : Entries) (code : String) :
    ∃ spans, Enumerates entries code.toList 0 spans ∧
      replace entries code =
        String.ofList (splice code.toList (replacement entries code.toList) 0 spans) := by
  have hfuel : code.toList.length - 0 < code.toList.length + 1 := by omega
  obtain ⟨spans, hspans, hgo⟩ := go_eq_splice (Nat.zero_le _) (Or.inl rfl) hfuel
  exact ⟨spans, hspans, congrArg String.ofList hgo⟩

/-- A replacement replaces the occurrences, all at once, and nothing else. They
are in order and do not overlap, and whether brackets are needed is asked of the
text as it was. -/
theorem replace_eq_splice (entries : Entries) (code : String) :
    (∀ first second, IsOccurrence entries code.toList first →
      IsOccurrence entries code.toList second → first ≠ second →
      first.stop ≤ second.start ∨ second.stop ≤ first.start) ∧
    ∃ spans : List Span,
      spans.Pairwise (fun first second => first.stop ≤ second.start) ∧
      (∀ span, span ∈ spans ↔ IsOccurrence entries code.toList span) ∧
      replace entries code =
        String.ofList (splice code.toList (replacement entries code.toList)
          0 spans) := by
  refine ⟨fun first second hfirst hsecond hne => hfirst.disjoint hsecond hne, ?_⟩
  obtain ⟨spans, hspans, hgo⟩ :=
    go_eq_splice (Nat.zero_le _) (Or.inl rfl)
      (by omega : code.toList.length - 0 < code.toList.length + 1)
  refine ⟨spans, hspans.ordered, fun span => ?_, congrArg String.ofList hgo⟩
  simpa using hspans.mem_iff span

/-- In the text of this case, a spread comes before an occurrence, a member access is no occurrence,
and of the two occurrences one needs brackets. -/
theorem replace_eq_splice_spread :
    ∃ spans, spans.Pairwise (fun first second : Span => first.stop ≤ second.start) ∧
      ⟨3, 6⟩ ∈ spans ∧ ⟨19, 22⟩ ∈ spans ∧ ⟨13, 16⟩ ∉ spans ∧
      "...(-1).c + x.A.B + 2" =
        String.ofList (splice "...A.B.c + x.A.B + A.C".toList
          (replacement (.ofList [("A.B", "-1"), ("A.C", "2")]) "...A.B.c + x.A.B + A.C".toList)
          0 spans) := by
  obtain ⟨-, spans, hordered, hspans, hreplace⟩ :=
    replace_eq_splice (.ofList [("A.B", "-1"), ("A.C", "2")]) "...A.B.c + x.A.B + A.C"
  have houtput : replace (.ofList [("A.B", "-1"), ("A.C", "2")]) "...A.B.c + x.A.B + A.C" =
      "...(-1).c + x.A.B + 2" := by
    decide +kernel
  refine ⟨spans, hordered, ?_, ?_, ?_, houtput.symm.trans hreplace⟩
  · exact (hspans _).mpr (by decide +kernel)
  · exact (hspans _).mpr (by decide +kernel)
  · exact mt (hspans _).mp (by decide +kernel)

end EnumInline.Substitution
