import EnumInline.Proofs.Substitution.Occurrence
import EnumInline.Proofs.Text.Pieces
import Mathlib.Data.List.TakeWhile

/-!
Replacing twice. The literals that are put into a text neither begin nor end with a
name or a point, and brackets do neither. So whatever stands around them is looked at
as it was before, and the text that comes out holds no occurrence unless a literal
holds one.
-/

namespace EnumInline.Substitution

open Text

variable {entries : Entries}

/-- A text without characters of names. -/
def IsClear (text : List Char) : Prop := ∀ c ∈ text, continuesToken c = false

/-- A text that does not begin with a character of a name. -/
def IsOpen (text : List Char) : Prop :=
  ∀ c, text.head? = some c → continuesToken c = false

/-- A text up to its first run of name characters, the run, and the rest. -/
structure Splits (text between name rest : List Char) : Prop where
  text_eq : text = between ++ (name ++ rest)
  between : IsClear between
  ne_nil : name ≠ []
  name : ∀ c ∈ name, continuesToken c = true
  rest : IsOpen rest

section Pieces

variable {text between name rest : List Char}

theorem isClear_nil : IsClear [] := fun _ hc => nomatch hc

theorem isClear_singleton {c : Char} (h : continuesToken c = false) : IsClear [c] :=
  List.forall_mem_singleton.2 h

theorem IsClear.isOpen (h : IsClear text) : IsOpen text :=
  fun c hc => h c (List.mem_of_head? hc)

theorem isOpen_append {front back : List Char} (hfront : IsOpen front) (hback : IsOpen back) :
    IsOpen (front ++ back) := by
  cases front with
  | nil => exact hback
  | cons c front => exact hfront

/-- What is left behind a run does not begin with a character of a name. -/
theorem isOpen_dropWhile (text : List Char) : IsOpen (text.dropWhile continuesToken) := by
  intro c hc
  have hstop := List.head?_dropWhile_not continuesToken text
  simpa [hc] using hstop

theorem isClear_or_splits (text : List Char) :
    IsClear text ∨ ∃ between name rest, Splits text between name rest := by
  induction text with
  | nil => exact Or.inl isClear_nil
  | cons c text ih =>
    cases hc : continuesToken c with
    | false =>
      rcases ih with hclear | ⟨between, name, rest, hsplits⟩
      · exact Or.inl (List.forall_mem_cons.2 ⟨hc, hclear⟩)
      · refine Or.inr ⟨c :: between, name, rest, ?_, ?_, hsplits.ne_nil, hsplits.name,
          hsplits.rest⟩
        · rw [hsplits.text_eq]
          rfl
        · exact List.forall_mem_cons.2 ⟨hc, hsplits.between⟩
    | true =>
      refine Or.inr ⟨[], (c :: text).takeWhile continuesToken,
        (c :: text).dropWhile continuesToken, ?_, ?_, ?_, ?_, ?_⟩
      · exact List.takeWhile_append_dropWhile.symm
      · exact isClear_nil
      · simp [hc]
      · intro d hd
        exact List.mem_takeWhile_imp hd
      · exact isOpen_dropWhile (c :: text)

theorem Splits.takeWhile_between (h : Splits text between name rest) :
    text.takeWhile (fun c => !continuesToken c) = between := by
  rw [h.text_eq, List.takeWhile_append_of_pos fun c hc => by simp [h.between c hc]]
  cases hname : name with
  | nil => exact absurd hname h.ne_nil
  | cons c name => simp [h.name c (by simp [hname])]

theorem Splits.takeWhile_name (h : Splits text between name rest) :
    (name ++ rest).takeWhile continuesToken = name :=
  takeWhile_append_of_stop h.name h.rest

theorem Splits.length_lt (h : Splits text between name rest) {fuel : Nat}
    (hfuel : text.length < fuel + 1) : rest.length < fuel := by
  have hname : 0 < name.length := List.length_pos_iff.2 h.ne_nil
  rw [h.text_eq, List.length_append, List.length_append] at hfuel
  omega

theorem Splits.append (h : Splits text between name rest) {tail : List Char}
    (htail : IsOpen tail) : Splits (text ++ tail) between name (rest ++ tail) := by
  refine ⟨?_, h.between, h.ne_nil, h.name, isOpen_append h.rest htail⟩
  rw [h.text_eq, List.append_assoc, List.append_assoc]

/-- A text that begins openly has something before its first run. -/
theorem Splits.between_ne_nil (h : Splits text between name rest) (hopen : IsOpen text) :
    between ≠ [] := by
  rintro rfl
  cases hname : name with
  | nil => exact h.ne_nil hname
  | cons c tail =>
    have hfirst := hopen c (by simp [h.text_eq, hname])
    rw [h.name c (by simp [hname])] at hfirst
    cases hfirst

theorem IsClear.takeWhile (h : IsClear text) :
    text.takeWhile (fun c => !continuesToken c) = text :=
  List.takeWhile_eq_self_iff.2 fun c hc => by simp [h c hc]

end Pieces

/-- What is before a character that is no point does not matter. -/
theorem endsInPoint_append {front back : List Char} (h : back.head? ≠ some '.') :
    endsInPoint (front ++ back) = endsInPoint front := by
  cases back with
  | nil => rw [List.append_nil]
  | cons c back =>
    have hc : ('.' == c) = false := by
      rw [beq_eq_false_iff_ne]
      rintro rfl
      exact h rfl
    have hfirst : (c == '.') = false := by
      rw [Bool.beq_comm]
      exact hc
    match front with
    | [] => simp [endsInPoint, hfirst]
    | [_] => simp [endsInPoint, List.isPrefixOf, hc]
    | [_, _] => simp [endsInPoint, List.isPrefixOf, hc]
    | _ :: _ :: _ :: _ => simp [endsInPoint, List.isPrefixOf]

theorem ne_point_of_continuesToken {c : Char} (h : continuesToken c = true) : c ≠ '.' := by
  rintro rfl
  rw [continuesToken_point] at h
  cases h

/-- A run does not end in a point. -/
theorem head?_reverse_run_append {name : List Char} (hne : name ≠ [])
    (hname : ∀ c ∈ name, continuesToken c = true) (before : List Char) :
    (name.reverse ++ before).head? ≠ some '.' := by
  intro hhead
  rw [List.head?_append, List.head?_reverse] at hhead
  cases hlast : name.getLast? with
  | none => exact hne (List.getLast?_eq_none_iff.1 hlast)
  | some c =>
    rw [hlast] at hhead
    exact ne_point_of_continuesToken (hname c (List.mem_of_getLast? hlast))
      (Option.some.inj hhead)

/-- The point behind a run is not the last of a spread. -/
theorem endsInPoint_cons_run {name : List Char} (hne : name ≠ [])
    (hname : ∀ c ∈ name, continuesToken c = true) (before : List Char) :
    endsInPoint ('.' :: (name.reverse ++ before)) = true := by
  rw [← List.singleton_append, endsInPoint_append (head?_reverse_run_append hne hname before)]
  rfl

section Steps

variable {fuel : Nat} {before text between name rest : List Char}

theorem go_of_isClear (h : IsClear text) : go entries fuel before text = text := by
  cases fuel with
  | zero => rfl
  | succ fuel => simp [go, h.takeWhile]

theorem go_of_splits (h : Splits text between name rest) :
    go entries (fuel + 1) before text =
      match occurrence? entries (between.reverse ++ before) name rest with
      | some (access, literal, after) =>
          between ++ inserted (between.reverse ++ before) literal.toList after ++
            go entries fuel (access.reverse ++ (between.reverse ++ before)) after
      | none =>
          between ++ name ++ go entries fuel (name.reverse ++ (between.reverse ++ before))
            rest := by
  have hdrop : text.drop between.length = name ++ rest := by
    rw [h.text_eq, List.drop_left]
  have hempty : name.isEmpty = false := by
    rw [List.isEmpty_eq_false_iff]
    exact h.ne_nil
  simp only [go, h.takeWhile_between, hdrop, h.takeWhile_name, hempty, List.drop_left]
  rfl

/-- What is found at a run is one of the entries, in a place where a name begins. -/
theorem occurrence?_some {access after : List Char} {literal : String}
    (h : occurrence? entries before name rest = some (access, literal, after)) :
    name.head?.any startsToken = true ∧ endsInPoint before = false ∧
      access? name rest = some (access, after) ∧
        entries[String.ofList access]? = some literal := by
  unfold occurrence? at h
  split at h
  next hname =>
    obtain ⟨hhead, hpoint⟩ := Bool.and_eq_true_iff.1 hname
    obtain ⟨⟨found, behind⟩, haccess, hentry⟩ := Option.bind_eq_some_iff.1 h
    obtain ⟨text, hvalue, hsame⟩ := Option.map_eq_some_iff.1 hentry
    cases hsame
    exact ⟨hhead, by simpa using hpoint, haccess, hvalue⟩
  next => cases h

theorem occurrence?_eq_none_of_endsInPoint (h : endsInPoint before = true) :
    occurrence? entries before name rest = none := by
  simp [occurrence?, h]

theorem occurrence?_eq_none_of_head (h : name.head?.any startsToken = false) :
    occurrence? entries before name rest = none := by
  simp [occurrence?, h]

/-- Whether anything is found depends on the point before the run and on the access
that the run begins. -/
theorem occurrence?_eq_none_congr {before' rest' : List Char}
    (hpoint : endsInPoint before' = endsInPoint before)
    (haccess : (access? name rest').map Prod.fst = (access? name rest).map Prod.fst)
    (h : occurrence? entries before name rest = none) :
    occurrence? entries before' name rest' = none := by
  cases hfound : occurrence? entries before' name rest' with
  | none => rfl
  | some found =>
    obtain ⟨access, literal, after⟩ := found
    obtain ⟨hhead, hbefore, hthere, hentry⟩ := occurrence?_some hfound
    rw [hthere] at haccess
    obtain ⟨⟨same, behind⟩, hsame, rfl⟩ := Option.map_eq_some_iff.1 haccess.symm
    simp [occurrence?, hhead, ← hpoint, hbefore, hsame, hentry] at h

/-- Fewer entries find nothing more. -/
theorem occurrence?_eq_none_of_fewer {entries' : Entries}
    (hfewer : ∀ access ∈ entries', access ∈ entries)
    (h : occurrence? entries before name rest = none) :
    occurrence? entries' before name rest = none := by
  cases hfound : occurrence? entries' before name rest with
  | none => rfl
  | some found =>
    obtain ⟨access, literal, after⟩ := found
    obtain ⟨hhead, hpoint, haccess, hentry⟩ := occurrence?_some hfound
    have hmem : String.ofList access ∈ entries :=
      hfewer _ (Std.ExtTreeMap.mem_iff_isSome_getElem?.2 (by rw [hentry]; rfl))
    have hnone : entries[String.ofList access]? = none := by
      simpa [occurrence?, hhead, hpoint, haccess] using h
    exact absurd hmem (by simpa using hnone)

theorem go_of_none (h : Splits text between name rest)
    (hnone : occurrence? entries (between.reverse ++ before) name rest = none) :
    go entries (fuel + 1) before text =
      between ++ (name ++ go entries fuel (name.reverse ++ (between.reverse ++ before)) rest) := by
  rw [go_of_splits h, hnone, List.append_assoc]

theorem go_of_some {access after : List Char} {literal : String}
    (h : Splits text between name rest)
    (hsome : occurrence? entries (between.reverse ++ before) name rest =
      some (access, literal, after)) :
    go entries (fuel + 1) before text =
      between ++ (inserted (between.reverse ++ before) literal.toList after ++
        go entries fuel (access.reverse ++ (between.reverse ++ before)) after) := by
  rw [go_of_splits h, hsome]
  exact List.append_assoc _ _ _

/-- A text that begins openly keeps its first character. -/
theorem head?_go (h : IsOpen text) : (go entries fuel before text).head? = text.head? := by
  cases fuel with
  | zero => rfl
  | succ fuel =>
    rcases isClear_or_splits text with hclear | ⟨between, name, rest, hsplits⟩
    · rw [go_of_isClear hclear]
    · have hhead (after : List Char) : (between ++ after).head? = text.head? := by
        have hbetween : between ≠ [] := hsplits.between_ne_nil h
        rw [hsplits.text_eq, List.head?_append_of_ne_nil _ hbetween,
          List.head?_append_of_ne_nil _ hbetween]
      cases hfound : occurrence? entries (between.reverse ++ before) name rest with
      | none =>
        rw [go_of_none hsplits hfound]
        exact hhead _
      | some found =>
        rw [go_of_some hsplits hfound]
        exact hhead _

/-- What begins openly does so after replacing. -/
theorem isOpen_go (h : IsOpen text) : IsOpen (go entries fuel before text) := by
  intro c hc
  rw [head?_go h] at hc
  exact h c hc

end Steps

section Accesses

variable {name text between member rest : List Char}

theorem startsToken_eq_false {c : Char} (h : continuesToken c = false) :
    startsToken c = false := by
  cases hc : startsToken c with
  | false => rfl
  | true =>
    rw [continuesToken_of_startsToken hc] at h
    cases h

/-- No access goes over a gap that is more or less than a point. -/
theorem access?_of_isClear_append (h : IsClear between) (hne : between ≠ [])
    (hpoint : between ≠ ['.']) : access? name (between ++ rest) = none := by
  unfold access?
  split
  next c tail htext =>
    match between with
    | [] => exact absurd rfl hne
    | [first] =>
      obtain ⟨rfl, -⟩ := List.cons.inj htext
      exact absurd rfl hpoint
    | first :: second :: _ =>
      obtain ⟨-, htail⟩ := List.cons.inj htext
      obtain ⟨rfl, -⟩ := List.cons.inj htail
      rw [startsToken_eq_false (h second (by simp)), if_neg Bool.false_ne_true]
  next => rfl

theorem access?_of_isClear (h : IsClear text) : access? name text = none := by
  by_cases hne : text = []
  · rw [hne]
    rfl
  · by_cases hpoint : text = ['.']
    · rw [hpoint]
      rfl
    · rw [← List.append_nil text]
      exact access?_of_isClear_append h hne hpoint

/-- An access goes from a name over a point to a member. -/
theorem exists_member_of_access {access after : List Char}
    (h : access? name rest = some (access, after)) :
    ∃ member, access = name ++ '.' :: member ∧ rest = '.' :: (member ++ after) ∧
      ∀ c ∈ member, continuesToken c = true := by
  unfold access? at h
  split at h
  next c tail =>
    split at h
    next =>
      cases h
      refine ⟨_, rfl, ?_, fun d hd => List.mem_takeWhile_imp hd⟩
      rw [drop_length_takeWhile, List.takeWhile_append_dropWhile]
    next => cases h
  next => cases h

/-- The access over a point, whatever comes behind it. -/
theorem access?_point (hne : member ≠ []) (hmember : ∀ c ∈ member, continuesToken c = true)
    (hrest : IsOpen rest) :
    (access? name ('.' :: (member ++ rest))).map Prod.fst =
      if member.head?.any startsToken then some (name ++ '.' :: member) else none := by
  have htake : (member ++ rest).takeWhile continuesToken = member :=
    Splits.takeWhile_name ⟨rfl, isClear_nil, hne, hmember, hrest⟩
  cases hcons : member with
  | nil => exact absurd hcons hne
  | cons c tail =>
    rw [hcons] at htake
    cases hstarts : startsToken c with
    | false => simp [access?, hstarts]
    | true =>
      simp only [access?, List.cons_append, hstarts, if_true, Option.map_some,
        List.head?_cons, Option.any_some]
      rw [← List.cons_append, htake]

/-- A run begins the same access after replacing behind it. -/
theorem access?_go {fuel : Nat} {before : List Char} (hne : name ≠ [])
    (hname : ∀ c ∈ name, continuesToken c = true) (hrest : IsOpen rest)
    (hfuel : rest.length < fuel) :
    (access? name (go entries fuel (name.reverse ++ before) rest)).map Prod.fst =
      (access? name rest).map Prod.fst := by
  cases fuel with
  | zero => omega
  | succ fuel =>
    rcases isClear_or_splits rest with hclear | ⟨between, member, after, hsplits⟩
    · rw [go_of_isClear hclear]
    · have hbetween : between ≠ [] := hsplits.between_ne_nil hrest
      by_cases hpoint : between = ['.']
      · subst hpoint
        -- A run behind a point is none of its own.
        have hnone : occurrence? entries (['.'].reverse ++ (name.reverse ++ before)) member
            after = none := by
          apply occurrence?_eq_none_of_endsInPoint
          exact endsInPoint_cons_run hne hname before
        rw [go_of_none hsplits hnone, hsplits.text_eq, List.singleton_append,
          List.singleton_append,
          access?_point hsplits.ne_nil hsplits.name (isOpen_go hsplits.rest),
          access?_point hsplits.ne_nil hsplits.name hsplits.rest]
      · have hnone : access? name rest = none := by
          rw [hsplits.text_eq]
          exact access?_of_isClear_append hsplits.between hbetween hpoint
        have hgo : access? name (go entries (fuel + 1) (name.reverse ++ before) rest) = none := by
          cases hfound : occurrence? entries (between.reverse ++ (name.reverse ++ before)) member
              after with
          | none =>
            rw [go_of_none hsplits hfound]
            exact access?_of_isClear_append hsplits.between hbetween hpoint
          | some found =>
            rw [go_of_some hsplits hfound]
            exact access?_of_isClear_append hsplits.between hbetween hpoint
        rw [hnone, hgo]

/-- A run begins the same access with something behind the rest, unless the rest is
empty or ends in a point. -/
theorem access?_append {tail : List Char} (hrest : IsOpen rest) (hne : rest ≠ [])
    (hlast : rest.getLast? ≠ some '.') (htail : IsOpen tail) :
    (access? name (rest ++ tail)).map Prod.fst = (access? name rest).map Prod.fst := by
  rcases isClear_or_splits rest with hclear | ⟨between, member, after, hsplits⟩
  · have hpoint : rest ≠ ['.'] := by
      rintro rfl
      exact hlast rfl
    rw [access?_of_isClear hclear, access?_of_isClear_append hclear hne hpoint]
  · have hbetween : between ≠ [] := hsplits.between_ne_nil hrest
    rw [(hsplits.append htail).text_eq, hsplits.text_eq]
    by_cases hpoint : between = ['.']
    · rw [hpoint, List.singleton_append, List.singleton_append,
        access?_point hsplits.ne_nil hsplits.name (isOpen_append hsplits.rest htail),
        access?_point hsplits.ne_nil hsplits.name hsplits.rest]
    · rw [access?_of_isClear_append hsplits.between hbetween hpoint,
        access?_of_isClear_append hsplits.between hbetween hpoint]

end Accesses

/-- Nothing is found in a text that follows `before`, which is reversed. -/
inductive IsStill (entries : Entries) : (before text : List Char) → Prop where
  | clear {before text : List Char} (h : IsClear text) : IsStill entries before text
  | run {before text between name rest : List Char} (h : Splits text between name rest)
      (hnone : occurrence? entries (between.reverse ++ before) name rest = none)
      (hrest : IsStill entries (name.reverse ++ (between.reverse ++ before)) rest) :
      IsStill entries before text

section Still

variable {before text : List Char}

theorem IsStill.go_eq (h : IsStill entries before text) {fuel : Nat}
    (hfuel : text.length < fuel) : go entries fuel before text = text := by
  induction h generalizing fuel with
  | clear hclear => exact go_of_isClear hclear
  | @run before text between name rest hsplits hnone _ ih =>
    cases fuel with
    | zero => omega
    | succ fuel =>
      have hlength : rest.length < fuel := hsplits.length_lt hfuel
      rw [go_of_none hsplits hnone, ih hlength, hsplits.text_eq]

theorem IsStill.of_fewer {entries' : Entries} (hfewer : ∀ access ∈ entries', access ∈ entries)
    (h : IsStill entries before text) : IsStill entries' before text := by
  induction h with
  | clear hclear => exact .clear hclear
  | run hsplits hnone _ ih => exact .run hsplits (occurrence?_eq_none_of_fewer hfewer hnone) ih

theorem IsStill.append_clear {between : List Char} (hclear : IsClear between)
    (h : IsStill entries (between.reverse ++ before) text) :
    IsStill entries before (between ++ text) := by
  cases h with
  | clear htext =>
    refine .clear fun c hc => ?_
    rcases List.mem_append.1 hc with hc | hc
    · exact hclear c hc
    · exact htext c hc
  | @run _ _ gap name rest hsplits hnone hrest =>
    have happend : Splits (between ++ text) (between ++ gap) name rest := by
      refine ⟨?_, fun c hc => ?_, hsplits.ne_nil, hsplits.name, hsplits.rest⟩
      · rw [hsplits.text_eq, List.append_assoc]
      · rcases List.mem_append.1 hc with hc | hc
        · exact hclear c hc
        · exact hsplits.between c hc
    have hbefore : gap.reverse ++ (between.reverse ++ before) =
        (between ++ gap).reverse ++ before := by simp
    rw [hbefore] at hnone hrest
    exact .run happend hnone hrest

/-- A literal that can stand anywhere. It neither begins nor ends with a point; where
it begins with a name, it is that name; and a name that it ends with begins no access
that has an entry. -/
structure IsSealed (entries : Entries) (literal : List Char) : Prop where
  first : ∃ c rest, literal = c :: rest ∧ c ≠ '.'
  name : literal.head?.any startsToken = true → ∀ c ∈ literal, continuesToken c = true
  last : literal.getLast? ≠ some '.'
  ending : ∀ front name, literal = front ++ name → name ≠ [] →
    (∀ c ∈ name, continuesToken c = true) →
    (∀ c, front.getLast? = some c → continuesToken c = false) →
    ∀ before rest, occurrence? entries before name rest = none

theorem IsSealed.head?_reverse_append {literal : List Char} (h : IsSealed entries literal)
    (before : List Char) : (literal.reverse ++ before).head? ≠ some '.' := by
  obtain ⟨c, rest, hfirst, -⟩ := h.first
  have hlast := h.last
  rw [List.head?_append, List.head?_reverse]
  cases hend : literal.getLast? with
  | none =>
    rw [hfirst] at hend
    simp at hend
  | some d =>
    rw [hend] at hlast
    exact hlast

/-- In a sealed literal, it does not matter what stands before it, unless that ends in
a point. -/
theorem IsSealed.endsInPoint_append {literal passed rest before : List Char}
    (h : IsSealed entries literal) (hliteral : literal = passed.reverse ++ rest)
    (hbefore : endsInPoint before = false) :
    endsInPoint (passed ++ before) = endsInPoint passed := by
  obtain ⟨c, tail, hfirst, hc⟩ := h.first
  rcases List.eq_nil_or_concat passed with rfl | ⟨front, d, rfl⟩
  · exact hbefore
  · have hd : d = c := by
      rw [hfirst] at hliteral
      have hsame : d = c ∧ front.reverse ++ rest = tail := by simpa using hliteral.symm
      exact hsame.1
    have hpoint (back : List Char) : (d :: back).head? ≠ some '.' := by
      rw [hd]
      simpa using hc
    calc endsInPoint (front.concat d ++ before) = endsInPoint (front ++ d :: before) := by simp
      _ = endsInPoint front := Substitution.endsInPoint_append (hpoint before)
      _ = endsInPoint (front ++ [d]) := (Substitution.endsInPoint_append (hpoint [])).symm
      _ = _ := by simp

theorem Splits.clear_before {passed text between name rest : List Char}
    (h : Splits text between name rest) (hopen : passed = [] ∨ IsOpen text) (c : Char)
    (hlast : (between.reverse ++ passed).reverse.getLast? = some c) :
    continuesToken c = false := by
  rw [List.getLast?_reverse] at hlast
  cases hbetween : between.reverse with
  | nil =>
    obtain rfl : between = [] := List.reverse_eq_nil_iff.1 hbetween
    rcases hopen with rfl | hopen
    · cases hlast
    · exact absurd rfl (h.between_ne_nil hopen)
  | cons d front =>
    rw [hbetween] at hlast
    obtain rfl : d = c := Option.some.inj hlast
    exact h.between d (List.mem_reverse.1 (by rw [hbetween]; exact List.mem_cons_self))

/-- A sealed literal in which nothing is found can be put before a text in which
nothing is found. `passed` is what lies of the literal before its rest `text`. -/
theorem IsStill.append_sealed {literal passed before text tail : List Char}
    (h : IsStill entries passed text) (hsealed : IsSealed entries literal)
    (hliteral : literal = passed.reverse ++ text) (hopen : passed = [] ∨ IsOpen text)
    (hbefore : endsInPoint before = false) (htail : IsOpen tail)
    (hafter : IsStill entries (literal.reverse ++ before) tail) :
    IsStill entries (passed ++ before) (text ++ tail) := by
  induction h with
  | @clear passed text hclear =>
    refine .append_clear hclear ?_
    rw [hliteral, List.reverse_append, List.reverse_reverse, List.append_assoc] at hafter
    exact hafter
  | @run passed text between name rest hsplits hnone hrest ih =>
    have hliteral' : literal = (between.reverse ++ passed).reverse ++ (name ++ rest) := by
      rw [hliteral, hsplits.text_eq]
      simp
    refine .run (hsplits.append htail) ?_ ?_
    · by_cases hnil : rest = []
      · rw [hnil, List.append_nil] at hliteral'
        exact hsealed.ending _ name hliteral' hsplits.ne_nil hsplits.name
          (hsplits.clear_before hopen) _ _
      · rw [← List.append_assoc]
        refine occurrence?_eq_none_congr (hsealed.endsInPoint_append hliteral' hbefore)
          (access?_append hsplits.rest hnil (fun hpoint => ?_) htail) hnone
        apply hsealed.last
        rw [hliteral', List.getLast?_append, List.getLast?_append, hpoint]
        rfl
    · simpa using ih (by rw [hliteral']; simp) (Or.inr hsplits.rest)

end Still

/-- Two texts, given in reverse, that end alike, back to a place before which neither
ends in a point. -/
def EndsAlike (before after : List Char) : Prop :=
  ∃ shared back back' : List Char, before = shared ++ back ∧ after = shared ++ back' ∧
    back.head? ≠ some '.' ∧ back'.head? ≠ some '.'

section Twice

variable {fuel : Nat} {before before' text : List Char}

theorem EndsAlike.endsInPoint_eq (h : EndsAlike before before') :
    endsInPoint before' = endsInPoint before := by
  obtain ⟨shared, back, back', rfl, rfl, hback, hback'⟩ := h
  rw [endsInPoint_append hback, endsInPoint_append hback']

theorem EndsAlike.append (h : EndsAlike before before') (front : List Char) :
    EndsAlike (front ++ before) (front ++ before') := by
  obtain ⟨shared, back, back', rfl, rfl, hback, hback'⟩ := h
  exact ⟨front ++ shared, back, back', (List.append_assoc _ _ _).symm,
    (List.append_assoc _ _ _).symm, hback, hback'⟩

theorem endsAlike_of_head? (hbefore : before.head? ≠ some '.')
    (hafter : before'.head? ≠ some '.') : EndsAlike before before' :=
  ⟨[], before, before', rfl, rfl, hbefore, hafter⟩

/-- An access does not end in a point, and a text does not go on behind it. -/
theorem access?_some {name rest access after : List Char}
    (h : access? name rest = some (access, after)) (back : List Char) :
    (access.reverse ++ back).head? ≠ some '.' ∧ IsOpen after ∧ after.length < rest.length := by
  unfold access? at h
  split at h
  next c tail =>
    split at h
    next hstarts =>
      have hc := continuesToken_of_startsToken hstarts
      cases h
      refine ⟨?_, ?_, ?_⟩
      · rw [List.reverse_append, List.reverse_cons, List.append_assoc, List.append_assoc]
        exact head?_reverse_run_append (by simp [hc]) (fun d hd => List.mem_takeWhile_imp hd) _
      · rw [drop_length_takeWhile]
        exact isOpen_dropWhile (c :: tail)
      · simp only [List.length_drop, List.length_cons]
        omega
    next => cases h
  next => cases h

/-- Nothing is found in a text that comes out, if nothing is found in the literals
and they are sealed. -/
theorem isStill_go
    (hentries : ∀ key literal : String, entries[key]? = some literal →
      IsSealed entries literal.toList ∧ IsStill entries [] literal.toList)
    (hbefore : EndsAlike before before') (hfuel : text.length < fuel) :
    IsStill entries before' (go entries fuel before text) := by
  induction fuel generalizing before before' text with
  | zero => omega
  | succ fuel ih =>
    rcases isClear_or_splits text with hclear | ⟨between, name, rest, hsplits⟩
    · rw [go_of_isClear hclear]
      exact .clear hclear
    · have hcontext := hbefore.append between.reverse
      have hlength : rest.length < fuel := hsplits.length_lt hfuel
      cases hfound : occurrence? entries (between.reverse ++ before) name rest with
      | none =>
        rw [go_of_none hsplits hfound]
        refine .run ⟨rfl, hsplits.between, hsplits.ne_nil, hsplits.name,
          isOpen_go hsplits.rest⟩ ?_ ?_
        · exact occurrence?_eq_none_congr hcontext.endsInPoint_eq
            (access?_go hsplits.ne_nil hsplits.name hsplits.rest hlength) hfound
        · exact ih (hcontext.append name.reverse) hlength
      | some found =>
        obtain ⟨access, literal, after⟩ := found
        obtain ⟨-, hpoint, haccess, hentry⟩ := occurrence?_some hfound
        obtain ⟨hsealed, hstill⟩ := hentries _ _ hentry
        obtain ⟨hend, hopen, hshorter⟩ :=
          access?_some haccess (between.reverse ++ before)
        rw [go_of_some hsplits hfound]
        refine .append_clear hsplits.between ?_
        unfold inserted
        split
        · have hbrackets (tail : List Char) : '(' :: literal.toList ++ [')'] ++ tail =
              ['('] ++ (literal.toList ++ ([')'] ++ tail)) := by simp
          rw [hbrackets]
          have hopening : IsClear ['('] :=
            isClear_singleton (continuesToken_of_mem_symbols (by simp))
          have hclose : IsClear [')'] :=
            isClear_singleton (continuesToken_of_mem_symbols (by simp))
          refine .append_clear hopening ?_
          refine hstill.append_sealed hsealed rfl (Or.inl rfl) (by simp [endsInPoint])
            (isOpen_append hclose.isOpen (isOpen_go hopen)) (.append_clear hclose ?_)
          exact ih (endsAlike_of_head? hend (by simp)) (by omega)
        · have hpoint' : endsInPoint (between.reverse ++ before') = false := by
            rw [hcontext.endsInPoint_eq, hpoint]
          refine hstill.append_sealed hsealed rfl (Or.inl rfl) hpoint' (isOpen_go hopen) ?_
          exact ih (endsAlike_of_head? hend (hsealed.head?_reverse_append _)) (by omega)

/-- What is put in for an access does not begin with the name that the access begins
with. -/
theorem inserted_append_ne {name rest literal after tail access behind : List Char}
    {found : String} (hsealed : IsSealed entries literal)
    (hsplits : Splits (name ++ rest) [] name rest)
    (hfound : occurrence? entries before name rest = some (access, found, behind))
    (htail : IsOpen tail) : inserted before' literal after ++ tail ≠ name ++ rest := by
  intro hsame
  obtain ⟨hstarts, -⟩ := occurrence?_some hfound
  unfold inserted at hsame
  split at hsame
  · cases hname : name with
    | nil => exact hsplits.ne_nil hname
    | cons d name =>
      rw [hname] at hsame hstarts
      obtain ⟨rfl, -⟩ := List.cons.inj hsame
      have hbracket : startsToken '(' = false :=
        startsToken_eq_false (continuesToken_of_mem_symbols (by simp))
      rw [List.head?_cons, Option.any_some, hbracket] at hstarts
      cases hstarts
  · obtain ⟨c, rest', hfirst, -⟩ := hsealed.first
    have hhead : literal.head? = name.head? := by
      obtain ⟨d, name, rfl⟩ := List.exists_cons_of_ne_nil hsplits.ne_nil
      rw [hfirst] at hsame ⊢
      obtain ⟨rfl, -⟩ := List.cons.inj hsame
      rfl
    -- The literal would be the name, which begins no access with an entry.
    have hliteral := hsealed.name (hhead ▸ hstarts)
    have htake : (literal ++ tail).takeWhile continuesToken = literal :=
      Splits.takeWhile_name ⟨rfl, isClear_nil, by simp [hfirst], hliteral, htail⟩
    rw [hsame, hsplits.takeWhile_name] at htake
    have hnone := hsealed.ending [] name htake.symm hsplits.ne_nil hsplits.name (by simp)
    rw [hnone] at hfound
    cases hfound

/-- Nothing is found in a text that does not change. -/
theorem isStill_of_go_eq
    (hsealed : ∀ key literal : String, entries[key]? = some literal →
      IsSealed entries literal.toList)
    (hfuel : text.length < fuel) (h : go entries fuel before text = text) :
    IsStill entries before text := by
  induction fuel generalizing before text with
  | zero => omega
  | succ fuel ih =>
    rcases isClear_or_splits text with hclear | ⟨between, name, rest, hsplits⟩
    · exact .clear hclear
    · cases hfound : occurrence? entries (between.reverse ++ before) name rest with
      | none =>
        rw [go_of_none hsplits hfound, hsplits.text_eq, List.append_right_inj,
          List.append_right_inj] at h
        exact .run hsplits hfound (ih (hsplits.length_lt hfuel) h)
      | some found =>
        obtain ⟨access, literal, after⟩ := found
        obtain ⟨-, -, haccess, hentry⟩ := occurrence?_some hfound
        have hopen := (access?_some haccess []).2.1
        rw [go_of_some hsplits hfound, hsplits.text_eq, List.append_right_inj] at h
        exact absurd h (inserted_append_ne (hsealed _ _ hentry)
          ⟨rfl, isClear_nil, hsplits.ne_nil, hsplits.name, hsplits.rest⟩ hfound
          (isOpen_go hopen))

end Twice

/-- What comes out of a replacement holds nothing to be replaced, neither by its entries nor
by some of them, if the literals are sealed and nothing is replaced in them. -/
theorem replace_replace_of_fewer {entries entries' : Entries}
    (hsealed : ∀ key literal : String, entries[key]? = some literal →
      IsSealed entries literal.toList)
    (hstill : ∀ key literal : String, entries[key]? = some literal →
      replace entries literal = literal)
    (hfewer : ∀ access ∈ entries', access ∈ entries) (code : String) :
    replace entries' (replace entries code) = replace entries code := by
  have hentries (key literal : String) (hentry : entries[key]? = some literal) :
      IsSealed entries literal.toList ∧ IsStill entries [] literal.toList := by
    refine ⟨hsealed key literal hentry, ?_⟩
    have hsame := hstill key literal hentry
    refine isStill_of_go_eq hsealed (Nat.lt_succ_self _) ?_
    simpa [replace, onChars, replaceChars, ← String.toList_inj] using hsame
  have hstart : EndsAlike [] [] := ⟨[], [], [], rfl, rfl, by simp, by simp⟩
  have hstill := isStill_go hentries hstart (Nat.lt_succ_self code.toList.length)
  unfold replace onChars
  rw [String.toList_ofList]
  exact congrArg String.ofList ((hstill.of_fewer hfewer).go_eq (Nat.lt_succ_self _))

end EnumInline.Substitution
