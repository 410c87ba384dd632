import EnumInline.Markup.ScriptBlocks
import EnumInline.Proofs.Markup.Elements

/-!
The TypeScript of a markup file, said by places. The script elements of a source are those
that a search finds which goes on behind each element it has found. What stands in the
bodies of those whose attributes name TypeScript keeps its place; of all else only the
line feeds stay.
-/

namespace EnumInline.Markup

open Text Pattern

namespace Script

/-- The attributes of an element of a source. -/
def attributes (source : List Char) (script : Script) : List Char :=
  (source.take script.attributesStop).drop script.attributesStart

/-- The language that the attributes name, if it is TypeScript. -/
def language? (source : List Char) (script : Script) : Option (List Char) :=
  languageIn? (script.attributes source)

def IsTypeScript (source : List Char) (script : Script) : Prop :=
  (find? (script.attributes source) language).isSome = true

/-- Whether elements are expressions in a language. -/
def hasElements (language : List Char) : Bool := language.map Char.toLower == "tsx".toList

end Script

/-- The script elements of a source from a place on: each is the first one from where the
one before it ends. -/
inductive FoundFrom (source : List Char) : (place : Nat) → List Script → Prop where
  | nil {place : Nat}
      (hnone : ∀ later, place ≤ later → matchAt? source script later = none) :
      FoundFrom source place []
  | cons {place : Nat} {found : Script} {rest : List Script} (hplace : place ≤ found.start)
      (hfirst : ∀ earlier, place ≤ earlier → earlier < found.start →
        matchAt? source script earlier = none)
      (hfound : matchAt? source script found.start = some found.marks)
      (hrest : FoundFrom source found.stop rest) : FoundFrom source place (found :: rest)

/-- A place in the body of an element that holds TypeScript. -/
def InBody (source : List Char) (scripts : List Script) (place : Nat) : Prop :=
  ∃ found ∈ scripts, found.IsTypeScript source ∧ found.bodyStart ≤ place ∧
    place < found.bodyStop

instance (source : List Char) : DecidablePred (Script.IsTypeScript source) :=
  fun script => inferInstanceAs
    (Decidable ((find? (script.attributes source) language).isSome = true))

instance (source : List Char) (scripts : List Script) :
    DecidablePred (InBody source scripts) := fun place =>
  inferInstanceAs (Decidable (∃ found ∈ scripts, found.IsTypeScript source ∧
    found.bodyStart ≤ place ∧ place < found.bodyStop))

/-- A text from a place on, with every character made blank that is neither kept nor a line
feed. -/
def masked (keeps : Nat → Prop) [DecidablePred keeps] (place : Nat) (text : List Char) :
    List Char :=
  text.mapIdx fun offset c => if keeps (place + offset) ∨ c = '\n' then c else ' '

/-- The line and the column of a place, both from one. A line feed ends a line, and every
other character takes a column. -/
def lineAndColumn (text : List Char) (place : Nat) : Nat × Nat :=
  let before := text.take place
  (before.count '\n' + 1, (before.reverse.takeWhile (· != '\n')).length + 1)

section Masks

variable {keeps other : Nat → Prop} [DecidablePred keeps] [DecidablePred other]
  {place : Nat} {text rest : List Char}

theorem length_masked : (masked keeps place text).length = text.length := List.length_mapIdx

theorem masked_append :
    masked keeps place (text ++ rest) =
      masked keeps place text ++ masked keeps (place + text.length) rest := by
  simp only [masked, List.mapIdx_append, Nat.add_comm, Nat.add_left_comm]

theorem masked_congr
    (h : ∀ offset, offset < text.length → (keeps (place + offset) ↔ other (place + offset))) :
    masked keeps place text = masked other place text := by
  apply List.ext_getElem (by rw [length_masked, length_masked])
  intro offset hoffset _
  rw [length_masked] at hoffset
  simp only [masked, List.getElem_mapIdx, h offset hoffset]

theorem masked_of_keeps (h : ∀ offset, offset < text.length → keeps (place + offset)) :
    masked keeps place text = text := by
  apply List.ext_getElem length_masked
  intro offset _ hoffset
  simp only [masked, List.getElem_mapIdx, h offset hoffset, true_or, if_true]

theorem masked_of_not_keeps
    (h : ∀ offset, offset < text.length → ¬ keeps (place + offset)) :
    masked keeps place text = blanked text := by
  apply List.ext_getElem (by rw [length_masked, blanked, List.length_map])
  intro offset hoffset _
  rw [length_masked] at hoffset
  simp only [masked, blanked, List.getElem_mapIdx, List.getElem_map, h offset hoffset, false_or]

/-- A mask that keeps at most the middle of a text. -/
theorem masked_middle {middle : List Char} {kept : Prop} [Decidable kept]
    (h : ∀ offset, offset < (text ++ (middle ++ rest)).length →
      (keeps (place + offset) ↔
        kept ∧ text.length ≤ offset ∧ offset < text.length + middle.length)) :
    masked keeps place (text ++ (middle ++ rest)) =
      blanked text ++ ((if kept then middle else blanked middle) ++ blanked rest) := by
  simp only [List.length_append] at h
  rw [masked_append, masked_append]
  congr 1
  · refine masked_of_not_keeps fun offset hoffset => ?_
    rw [h offset (by omega)]
    omega
  congr 1
  · split
    next hkept =>
      refine masked_of_keeps fun offset hoffset => ?_
      rw [Nat.add_assoc, h _ (by omega)]
      exact ⟨hkept, by omega, by omega⟩
    next hkept =>
      refine masked_of_not_keeps fun offset hoffset => ?_
      rw [Nat.add_assoc, h _ (by omega)]
      exact fun h => hkept h.1
  · refine masked_of_not_keeps fun offset hoffset => ?_
    rw [Nat.add_assoc, Nat.add_assoc, h _ (by omega)]
    omega

/-- A mask leaves line feeds where they are and makes no others. -/
theorem map_masked :
    (masked keeps place text).map (· == '\n') = text.map (· == '\n') := by
  apply List.ext_getElem (by rw [List.length_map, List.length_map, length_masked])
  intro offset hoffset _
  simp only [masked, List.getElem_map, List.getElem_mapIdx]
  split
  next => rfl
  next hblank =>
    rw [not_or] at hblank
    rw [beq_eq_false_iff_ne.2 hblank.2]
    decide

/-- Lines and columns depend on the places of line feeds only. -/
theorem lineAndColumn_congr {text other : List Char}
    (h : text.map (· == '\n') = other.map (· == '\n')) (place : Nat) :
    lineAndColumn text place = lineAndColumn other place := by
  have hbefore : (text.take place).map (· == '\n') = (other.take place).map (· == '\n') := by
    rw [List.map_take, List.map_take, h]
  have hcount (before : List Char) :
      before.count '\n' = (before.map (· == '\n')).count true := by
    simp only [List.count, List.countP_map]
    congr 1
    funext c
    simp
  have hcolumn (before : List Char) :
      (before.reverse.takeWhile (· != '\n')).length =
        ((before.map (· == '\n')).reverse.takeWhile (!·)).length := by
    rw [← List.map_reverse, List.takeWhile_map, List.length_map]
    rfl
  unfold lineAndColumn
  dsimp only
  rw [hcount, hcount, hcolumn, hcolumn, hbefore]

end Masks

namespace Element

variable {text after closing body : List Char} {element : Element}

theorem append_of_closing? (h : closing? text = some (closing, after)) :
    text = closing ++ after := by
  obtain ⟨rest, hrest, hclosing⟩ := Option.bind_eq_some_iff.1 h
  obtain ⟨hdrop, -⟩ := drop_of_dropWord? hrest
  have hword : "</script".toList.length = 8 := by decide
  rw [hword] at hdrop
  dsimp only at hclosing
  split at hclosing
  next behind hbehind =>
    cases hclosing
    calc
      text = text.take 8 ++ rest := by rw [hdrop, List.take_append_drop]
      _ = text.take 8 ++ (rest.takeWhile isBlank ++ '>' :: after) := by
        rw [← hbehind, drop_length_takeWhile, List.takeWhile_append_dropWhile]
      _ = _ := by simp
  next => cases hclosing

theorem append_of_cutAtClosing? {fuel : Nat}
    (h : cutAtClosing? fuel text = some (body, closing, after)) :
    text = body ++ (closing ++ after) := by
  induction fuel generalizing text body with
  | zero => cases h
  | succ fuel ih =>
    unfold cutAtClosing? at h
    dsimp only at h
    rw [drop_length_takeWhile] at h
    have htext := List.takeWhile_append_dropWhile (p := (· != '<')) (l := text)
    split at h
    next => cases h
    next c rest hrest =>
      rw [hrest] at htext
      split at h
      next found hclosing =>
        cases h
        rw [← append_of_closing? hclosing, htext]
      next hnone =>
        obtain ⟨⟨inner, tag, behind⟩, hcut, heq⟩ := Option.map_eq_some_iff.1 h
        cases heq
        rw [List.append_assoc, List.cons_append, ← ih hcut, htext]

theorem append_of_read? (h : read? text = some (element, after)) :
    text = element.text ++ after := by
  obtain ⟨rest, hrest, hread⟩ := Option.bind_eq_some_iff.1 h
  obtain ⟨hdrop, -⟩ := drop_of_dropWord? hrest
  have hword : "<script".toList.length = 7 := by decide
  rw [hword] at hdrop
  dsimp only at hread
  split at hread
  next => cases hread
  next =>
    split at hread
    next => cases hread
    next c inner hinner =>
      have hstop : c = '>' := by simpa using stop_of_drop_takeWhile hinner
      subst hstop
      have htext := List.takeWhile_append_dropWhile (p := (· != '>')) (l := rest)
      rw [← drop_length_takeWhile, hinner] at htext
      obtain ⟨⟨body, tag, behind⟩, hcut, heq⟩ := Option.map_eq_some_iff.1 hread
      cases heq
      calc
        text = text.take 7 ++ rest := by rw [hdrop, List.take_append_drop]
        _ = text.take 7 ++ (rest.takeWhile (· != '>') ++ '>' :: (body ++ (tag ++ behind))) := by
            rw [← append_of_cutAtClosing? hcut, htext]
        _ = _ := by simp only [Element.text, List.append_assoc, List.cons_append]

theorem read?_eq_none (h : text.head? ≠ some '<') : read? text = none := by
  cases text with
  | nil => rfl
  | cons c rest =>
    have hc : c ≠ '<' := fun hc => h (by rw [hc]; rfl)
    have hword : "<script".toList = '<' :: "script".toList := by decide
    rw [read?, hword, dropWord?_bracket hc]
    rfl

end Element

section Places

variable {source after : List Char} {place : Nat} {element : Element}

theorem stop_scriptAt : (element.scriptAt place).stop = place + element.text.length := by
  simp only [Element.scriptAt, Element.text, List.length_append, List.length_cons]
  omega

theorem bodyStop_le_stop_scriptAt :
    (element.scriptAt place).bodyStop ≤ (element.scriptAt place).stop := Nat.le_add_right _ _

/-- What follows an element stands where the element stops. -/
theorem drop_stop_scriptAt (h : source.drop place = element.text ++ after) :
    source.drop (element.scriptAt place).stop = after := by
  rw [stop_scriptAt, ← List.drop_drop, h, List.drop_left]

theorem attributes_scriptAt (h : source.drop place = element.text ++ after) :
    (element.scriptAt place).attributes source = element.attributes := by
  have hstart : source.drop (place + element.opening.length) =
      element.attributes ++ '>' :: (element.body ++ (element.closing ++ after)) := by
    rw [← List.drop_drop, h]
    simp [Element.text]
  simp only [Script.attributes, Element.scriptAt, List.drop_take, Nat.add_sub_cancel_left, hstart,
    List.take_left]

theorem language?_scriptAt (h : source.drop place = element.text ++ after) :
    (element.scriptAt place).language? source = Element.language? false element.attributes := by
  rw [Script.language?, attributes_scriptAt h, languageIn?_eq]

theorem script?_eq (h : source.drop place = element.text ++ after) :
    element.script? = ((element.scriptAt place).language? source).map Script.hasElements := by
  rw [language?_scriptAt h]
  rfl

end Places

theorem Script.marks_injective : Function.Injective Script.marks := by
  rintro ⟨⟩ ⟨⟩ h
  simpa [Script.marks] using h

theorem Script.eq_scriptAt {source : List Char} {found : Script}
    (h : matchAt? source script found.start = some found.marks) :
    ∃ element : Element, found = element.scriptAt found.start := by
  rw [matchAt?_script] at h
  obtain ⟨⟨element, after⟩, -, hmarks⟩ := Option.map_eq_some_iff.1 h
  exact ⟨element, (Script.marks_injective hmarks).symm⟩

theorem inBody_cons {source : List Char} {found : Script} {scripts : List Script} {place : Nat} :
    InBody source (found :: scripts) place ↔
      (found.IsTypeScript source ∧ found.bodyStart ≤ place ∧ place < found.bodyStop) ∨
        InBody source scripts place :=
  List.exists_mem_cons_iff _ _ _

namespace FoundFrom

variable {source : List Char} {place later : Nat} {scripts other : List Script}

/-- Places at which no element starts may be skipped. -/
theorem skip (hplace : place ≤ later)
    (hnone : ∀ earlier, place ≤ earlier → earlier < later →
      matchAt? source script earlier = none)
    (h : FoundFrom source later scripts) : FoundFrom source place scripts := by
  cases h with
  | nil hlater =>
    refine .nil fun behind hbehind => ?_
    rcases Nat.lt_or_ge behind later with hlt | hge
    · exact hnone behind hbehind hlt
    · exact hlater behind hge
  | cons hstart hfirst hfound hrest =>
    refine .cons (Nat.le_trans hplace hstart) (fun earlier hearlier hlt => ?_) hfound hrest
    rcases Nat.lt_or_ge earlier later with hbefore | hge
    · exact hnone earlier hearlier hbefore
    · exact hfirst earlier hge hlt

/-- A search finds one list of elements. -/
theorem unique (h : FoundFrom source place scripts) (hother : FoundFrom source place other) :
    other = scripts := by
  induction h generalizing other with
  | nil hnone =>
    cases hother with
    | nil _ => rfl
    | cons hplace _ hfound _ =>
      rw [hnone _ hplace] at hfound
      cases hfound
  | @cons _ found rest hplace hfirst hfound hrest ih =>
    cases hother with
    | nil hnone =>
      rw [hnone _ hplace] at hfound
      cases hfound
    | @cons _ found' rest' hplace' hfirst' hfound' hrest' =>
      have hstart : found'.start = found.start := by
        rcases Nat.lt_trichotomy found'.start found.start with hlt | heq | hlt
        · rw [hfirst _ hplace' hlt] at hfound'
          cases hfound'
        · exact heq
        · rw [hfirst' _ hplace hlt] at hfound
          cases hfound
      rw [hstart, hfound] at hfound'
      obtain rfl : found = found' := Script.marks_injective (Option.some.inj hfound')
      rw [ih hrest']

/-- The bodies of the elements stand behind the place where the search starts. -/
theorem le_bodyStart (h : FoundFrom source place scripts) :
    ∀ found ∈ scripts, place ≤ found.bodyStart := by
  induction h with
  | nil _ => exact fun found hfound => absurd hfound List.not_mem_nil
  | @cons _ found rest hplace _ hfound _ ih =>
    obtain ⟨element, heq⟩ := Script.eq_scriptAt hfound
    have hbody : found.start ≤ found.bodyStart ∧ found.start ≤ found.stop := by
      rw [heq]
      simp only [Element.scriptAt]
      omega
    intro other hother
    rcases List.mem_cons.1 hother with rfl | hother
    · exact Nat.le_trans hplace hbody.1
    · exact Nat.le_trans (Nat.le_trans hplace hbody.2) (ih other hother)

theorem not_inBody (h : FoundFrom source later scripts) (hplace : place < later) :
    ¬ InBody source scripts place := by
  rintro ⟨found, hfound, -, hstart, -⟩
  exact Nat.not_lt.2 (Nat.le_trans (h.le_bodyStart found hfound) hstart) hplace

/-- What stands before the elements is blanked. -/
theorem masked_eq_blanked (h : FoundFrom source later scripts) {text : List Char}
    (hlength : place + text.length ≤ later) :
    masked (InBody source scripts) place text = blanked text :=
  masked_of_not_keeps fun _ hoffset => h.not_inBody (by omega)

/-- The first element keeps its body if it holds TypeScript. -/
theorem masked_element {element : Element}
    (h : FoundFrom source (element.scriptAt place).stop scripts) :
    masked (InBody source (element.scriptAt place :: scripts)) place element.text =
      blanked element.opening ++ blanked element.attributes ++
        ' ' :: (if (element.scriptAt place).IsTypeScript source then element.body
          else blanked element.body) ++ blanked element.closing := by
  have htext : element.text = (element.opening ++ element.attributes ++ ['>']) ++
      (element.body ++ element.closing) := by
    simp [Element.text]
  have hkeeps (offset : Nat) (hoffset : offset < element.text.length) :
      InBody source (element.scriptAt place :: scripts) (place + offset) ↔
        (element.scriptAt place).IsTypeScript source ∧
          (element.opening ++ element.attributes ++ ['>']).length ≤ offset ∧
          offset < (element.opening ++ element.attributes ++ ['>']).length +
            element.body.length := by
    have hbefore : place + offset < (element.scriptAt place).stop := by
      simp only [Element.text, List.length_append, List.length_cons] at hoffset
      simp only [Element.scriptAt]
      omega
    rw [inBody_cons, or_iff_left (h.not_inBody hbefore)]
    refine and_congr_right fun _ => ?_
    simp only [Element.scriptAt, List.length_append, List.length_singleton]
    omega
  rw [htext] at hkeeps ⊢
  rw [masked_middle hkeeps]
  simp [blanked]

/-- Behind the first element the others are kept. -/
theorem masked_rest {element : Element} {text : List Char} :
    masked (InBody source (element.scriptAt place :: scripts)) (element.scriptAt place).stop text =
      masked (InBody source scripts) (element.scriptAt place).stop text := by
  apply masked_congr
  intro offset _
  rw [inBody_cons, or_iff_right]
  rintro ⟨-, -, hstop⟩
  have hle : (element.scriptAt place).bodyStop ≤ (element.scriptAt place).stop :=
    bodyStop_le_stop_scriptAt
  omega

/-- No element starts in a text without brackets. -/
theorem matchAt?_script_eq_none {text rest : List Char}
    (htext : source.drop place = text ++ rest) (hbracket : '<' ∉ text)
    (hplace : place ≤ later) (hlt : later < place + text.length) :
    matchAt? source script later = none := by
  obtain ⟨offset, rfl⟩ := Nat.exists_eq_add_of_le hplace
  have hoffset : offset < text.length := Nat.lt_of_add_lt_add_left hlt
  rw [matchAt?_script, ← List.drop_drop, htext, Element.read?_eq_none, Option.map_none]
  rw [List.head?_drop, List.getElem?_append_left hoffset]
  exact fun hhead => hbracket (List.mem_of_getElem? hhead)

end FoundFrom

/-- Pieces of a source from a place on are what the search finds. -/
structure Agrees (source : List Char) (place : Nat) (pieces : List Piece)
    (scripts : List Script) : Prop where
  found : FoundFrom source place scripts
  languages : pieces.filterMap Piece.script? =
    scripts.filterMap fun found => (found.language? source).map Script.hasElements
  text : pieces.flatMap Piece.script =
    masked (InBody source scripts) place (source.drop place)

namespace Agrees

variable {source text rest after : List Char} {place : Nat} {later : List Piece}
  {scripts : List Script} {first : Element}

theorem nil (h : source.length ≤ place) : Agrees source place [] [] := by
  refine ⟨.nil fun behind hbehind => ?_, rfl, ?_⟩
  · rw [matchAt?_script, List.drop_eq_nil_of_le (Nat.le_trans h hbehind)]
    rfl
  · rw [List.drop_eq_nil_of_le h]
    rfl

theorem plain (htext : source.drop place = text ++ rest)
    (hnone : ∀ earlier, place ≤ earlier → earlier < place + text.length →
      matchAt? source script earlier = none)
    (h : Agrees source (place + text.length) later scripts) :
    Agrees source place (.plain text :: later) scripts := by
  refine ⟨h.found.skip (Nat.le_add_right _ _) hnone, h.languages, ?_⟩
  have hrest : source.drop (place + text.length) = rest := by
    rw [← List.drop_drop, htext, List.drop_left]
  rw [List.flatMap_cons, h.text, htext, masked_append, hrest,
    h.found.masked_eq_blanked (Nat.le_refl _)]
  rfl

/-- A bracket at which no element starts belongs to what is plain. -/
theorem bracket {c : Char} (htext : source.drop place = text ++ c :: rest)
    (hnone : ∀ earlier, place ≤ earlier → earlier < place + text.length →
      matchAt? source script earlier = none)
    (hhere : matchAt? source script (place + text.length) = none)
    (h : Agrees source (place + text.length + 1) later scripts) :
    Agrees source place (.plain (text ++ [c]) :: later) scripts := by
  refine .plain (htext.trans (List.append_cons _ _ _)) (fun earlier hplace hlt => ?_) ?_
  · rw [List.length_append, List.length_singleton] at hlt
    rcases Nat.lt_or_eq_of_le (Nat.le_of_lt_succ hlt) with hlt | rfl
    · exact hnone earlier hplace hlt
    · exact hhere
  · rwa [List.length_append, List.length_singleton]

theorem element (htext : source.drop place = first.text ++ after)
    (hmarks : matchAt? source script place = some (first.scriptAt place).marks)
    (h : Agrees source (first.scriptAt place).stop later scripts) :
    Agrees source place (.element first :: later) (first.scriptAt place :: scripts) := by
  refine ⟨.cons (Nat.le_refl _) (fun _ hge hlt => absurd hlt (Nat.not_lt.2 hge)) hmarks h.found,
    ?_, ?_⟩
  · simp only [List.filterMap_cons, Piece.script?, script?_eq htext, h.languages]
  · have hkept : first.script?.isSome = true ↔ (first.scriptAt place).IsTypeScript source := by
      rw [script?_eq htext, Option.isSome_map, Script.language?, languageIn?, Option.isSome_map]
      rfl
    rw [List.flatMap_cons, h.text, drop_stop_scriptAt htext, htext, masked_append,
      h.found.masked_element, ← stop_scriptAt, FoundFrom.masked_rest]
    simp only [Piece.script, hkept]

/-- The pieces of a source are what the search finds. -/
theorem exists_of_pieces (source : List Char) {fuel place : Nat}
    (hfuel : (source.drop place).length < fuel) :
    ∃ scripts, Agrees source place (pieces fuel (source.drop place)) scripts := by
  induction fuel generalizing place with
  | zero => exact absurd hfuel (Nat.not_lt_zero _)
  | succ fuel ih =>
    have htext := List.takeWhile_append_dropWhile (p := (· != '<')) (l := source.drop place)
    rw [← drop_length_takeWhile] at htext
    have hbracket : '<' ∉ (source.drop place).takeWhile (· != '<') := fun hmem => by
      simpa using List.mem_takeWhile_imp hmem
    unfold pieces
    dsimp only
    generalize (source.drop place).takeWhile (· != '<') = before at htext hbracket ⊢
    have hnone (earlier : Nat) (hplace : place ≤ earlier)
        (hlt : earlier < place + before.length) : matchAt? source script earlier = none :=
      FoundFrom.matchAt?_script_eq_none htext.symm hbracket hplace hlt
    cases hrest : (source.drop place).drop before.length with
    | nil =>
      refine ⟨[], .plain htext.symm hnone (.nil ?_)⟩
      rwa [← List.drop_eq_nil_iff, ← List.drop_drop]
    | cons c rest =>
      rw [hrest] at htext
      rw [List.drop_drop] at hrest
      have hhere := matchAt?_script source (place + before.length)
      have hlength := congrArg List.length htext
      rw [List.length_append, List.length_cons] at hlength
      rw [hrest] at hhere
      cases hread : Element.read? (c :: rest) with
      | some found =>
        obtain ⟨element, after⟩ := found
        have helement := Element.append_of_read? hread
        have hafter := drop_stop_scriptAt (hrest.trans helement)
        have hfuel : after.length < fuel := by
          have hshorter := congrArg List.length helement
          simp only [Element.text, List.length_append, List.length_cons] at hshorter
          omega
        obtain ⟨scripts, hscripts⟩ :=
          @ih (element.scriptAt (place + before.length)).stop (by rwa [hafter])
        rw [hafter] at hscripts
        rw [hread] at hhere
        simp only [hread]
        exact ⟨_, .plain htext.symm hnone (.element (hrest.trans helement) hhere hscripts)⟩
      | none =>
        have hbehind : source.drop (place + before.length + 1) = rest :=
          drop_succ_of_drop_eq_cons hrest
        obtain ⟨scripts, hscripts⟩ := @ih (place + before.length + 1) (by rw [hbehind]; omega)
        rw [hbehind] at hscripts
        rw [hread] at hhere
        simp only [hread]
        exact ⟨scripts, .bracket htext.symm hnone hhere hscripts⟩

end Agrees

theorem ScriptBlocks.length_text {source : List Char} {blocks : ScriptBlocks}
    (h : extract? source = some blocks) : blocks.text.length = source.length := by
  obtain ⟨scripts, -, -, htext⟩ :=
    @Agrees.exists_of_pieces source (source.length + 1) 0 (Nat.lt_succ_self _)
  rw [List.drop_zero] at htext
  unfold extract? at h
  dsimp only at h
  split at h
  · cases h
  · cases h
    dsimp only
    rw [htext, length_masked]

/-- The TypeScript of a markup file. There is some if the search finds an element whose
attributes name it. Then the text is as long as the source; what stands in the bodies of
such elements and the line feeds are those of the source, at the same lines and columns, and
all else is blank. -/
theorem ScriptBlocks.extract_exact (source : List Char) :
    ∃ scripts, (∀ other, FoundFrom source 0 other ↔ other = scripts) ∧
      ((extract? source).isSome = true ↔ ∃ found ∈ scripts, found.IsTypeScript source) ∧
      ∀ blocks, extract? source = some blocks →
        blocks.text.length = source.length ∧
        (∀ place c, source[place]? = some c →
          blocks.text[place]? =
            some (if InBody source scripts place ∨ c = '\n' then c else ' ')) ∧
        (∀ place, lineAndColumn blocks.text place = lineAndColumn source place) ∧
        (blocks.elements = true ↔ ∃ found ∈ scripts, ∃ language,
          found.language? source = some language ∧ Script.hasElements language = true) := by
  obtain ⟨scripts, hfound, hlanguages, htext⟩ :=
    @Agrees.exists_of_pieces source (source.length + 1) 0 (Nat.lt_succ_self _)
  refine ⟨scripts, fun other => ⟨hfound.unique, fun h => h ▸ hfound⟩, ?_⟩
  rw [List.drop_zero] at hlanguages htext
  unfold extract?
  dsimp only
  rw [hlanguages, htext]
  have hempty : (scripts.filterMap fun found =>
      (found.language? source).map Script.hasElements).isEmpty = true ↔
        ¬ ∃ found ∈ scripts, found.IsTypeScript source := by
    simp [Script.IsTypeScript, Script.language?, languageIn?]
  refine ⟨?_, fun blocks hblocks => ?_⟩
  · split
    next hnone => exact iff_of_false Bool.false_ne_true (hempty.1 hnone)
    next hsome => exact iff_of_true rfl (Classical.not_not.1 (mt hempty.2 hsome))
  · split at hblocks
    next => cases hblocks
    next =>
      cases hblocks
      refine ⟨length_masked, fun place c hc => ?_, lineAndColumn_congr map_masked, ?_⟩
      · rw [masked, List.getElem?_mapIdx, hc, Option.map_some, Nat.zero_add]
      · simp only [List.any_eq_true, List.mem_filterMap, Option.map_eq_some_iff, id_eq,
          exists_eq_right]

end EnumInline.Markup
