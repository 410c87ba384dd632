import EnumInline.Proofs.Substitution.Brackets
import EnumInline.Proofs.Substitution.Idempotence
import EnumInline.Proofs.Table.Entries
import EnumInline.Text.SourceName

/-!
A text that is nothing but an access with an entry. Source text admits more
characters in names than the scanner reads as one run: if the name of the enum has
one of those, or begins with one, the run that the text begins with is not the name,
and the text is left as it begins. The texts of values do not begin like that.
-/

namespace EnumInline

open Text

/-- The text of a value is a name, or it begins as no name does. -/
theorem MemberValue.continues_or_exists_head? (value : MemberValue) :
    (∀ c ∈ value.chars, continuesToken c = true) ∨
      ∃ c, value.chars.head? = some c ∧ startsName c = false := by
  cases hoperator : value.operator with
  | some operator =>
    refine Or.inr ⟨operator.symbol, head?_chars_of_operator hoperator, ?_⟩
    cases operator <;> decide
  | none =>
    have hchars : value.chars = value.literal.chars := by simp [chars, hoperator]
    rw [hchars]
    rcases value.literal.mem_names_or_exists_head? with hname | ⟨c, hhead, hc⟩
    · left
      have hnames : ∀ name ∈ ["NaN".toList, "Infinity".toList],
          name.all continuesToken = true := by decide +kernel
      exact List.all_eq_true.1 (hnames _ hname)
    · refine Or.inr ⟨c, hhead, ?_⟩
      rcases hc with rfl | rfl | hdigit
      · decide
      · decide
      · exact Double.of_isAsciiDigit (startsName · = false) (by decide) hdigit

namespace Substitution

open ReplacementTable (token isPlainName_iff)

variable {entries : Entries} {name member : String}

theorem toList_token : (token name member).toList = name.toList ++ '.' :: member.toList := by
  simp [token]

theorem isOpen_point (text : List Char) : IsOpen ('.' :: text) := by
  rintro c ⟨⟩
  exact continuesToken_point

/-- An access to a plain name ends where the member does. -/
theorem access?_token (hmember : isPlainName member = true) :
    access? name.toList ('.' :: member.toList) = some ((token name member).toList, []) := by
  obtain ⟨hhead, hall⟩ := isPlainName_iff.1 hmember
  rw [List.all_eq_true] at hall
  cases hcons : member.toList with
  | nil => simp [hcons] at hhead
  | cons c rest =>
    rw [hcons] at hhead hall
    rw [List.head?_cons, Option.any_some] at hhead
    have hrun : (c :: rest).takeWhile continuesToken = c :: rest :=
      List.takeWhile_eq_self_iff.2 hall
    simp [access?, hhead, hrun, toList_token, hcons]

/-- An access with plain names is replaced by the text of its entry, bare. -/
theorem replace_token {text : String} (hname : isPlainName name = true)
    (hmember : isPlainName member = true) (hentry : entries[token name member]? = some text) :
    replace entries (token name member) = text := by
  obtain ⟨hhead, hall⟩ := isPlainName_iff.1 hname
  rw [List.all_eq_true] at hall
  have hne : name.toList ≠ [] := by
    intro hnil
    simp [hnil] at hhead
  have hsplits : Splits (token name member).toList [] name.toList ('.' :: member.toList) :=
    ⟨toList_token, isClear_nil, hne, hall, isOpen_point member.toList⟩
  have hfound : occurrence? entries [] name.toList ('.' :: member.toList) =
      some ((token name member).toList, text, []) := by
    simp [occurrence?, hhead, endsInPoint, access?_token hmember, hentry]
  have hneighbours : (['*', '*'].isPrefixOf (trimStart []) || isSigned (trimStart [])) = false :=
    rfl
  have hbare : inserted [] text.toList [] = text.toList := by
    simp only [inserted, needsBrackets, hneighbours]
    simp
  have hgo : replaceChars entries (token name member).toList = text.toList := by
    rw [replaceChars, go_of_some hsplits hfound, go_of_isClear isClear_nil]
    simpa using hbare
  rw [replace, onChars, hgo, String.ofList_toList]

/-- The run at the start of a name of the source that is not plain begins no access. -/
theorem occurrence?_eq_none_of_not_isPlainName (entries : Entries) (before : List Char)
    {tail : List Char} (hname : isSourceName name.toList = true)
    (hplain : isPlainName name = false) :
    occurrence? entries before (name.toList.takeWhile continuesToken)
      (name.toList.dropWhile continuesToken ++ tail) = none := by
  cases hrest : name.toList.dropWhile continuesToken with
  | nil =>
    -- the run is the whole name, and it begins as no name does
    have hall := List.dropWhile_eq_nil_iff.1 hrest
    rw [List.takeWhile_eq_self_iff.2 hall]
    apply occurrence?_eq_none_of_head
    rw [← Bool.not_eq_true] at hplain ⊢
    exact fun hhead => hplain (isPlainName_iff.2 ⟨hhead, List.all_eq_true.2 hall⟩)
  | cons c rest =>
    have hc : continuesToken c = false := isOpen_dropWhile name.toList c (by rw [hrest]; rfl)
    have hmem : c ∈ name.toList :=
      (List.dropWhile_sublist continuesToken).mem (hrest ▸ List.mem_cons_self)
    have hpoint : [c] ≠ ['.'] := by
      rintro ⟨⟩
      exact absurd (continuesName_of_mem hname hmem) (by decide)
    have haccess : access? (name.toList.takeWhile continuesToken) ([c] ++ (rest ++ tail)) = none :=
      access?_of_isClear_append (isClear_singleton hc) (List.cons_ne_nil _ _) hpoint
    rw [← List.singleton_append, List.append_assoc]
    simp only [occurrence?, haccess, Option.bind_none, ite_self]

/-- A run at which nothing is found is passed over. -/
theorem exists_go_of_run (fuel : Nat) {before run behind : List Char}
    (hrun : ∀ c ∈ run, continuesToken c = true) (hbehind : IsOpen behind)
    (hnone : occurrence? entries before run behind = none) :
    ∃ left passed, go entries (fuel + 1) before (run ++ behind) =
      run ++ go entries left passed behind := by
  by_cases hne : run = []
  · exact ⟨fuel + 1, before, by rw [hne]; rfl⟩
  · exact ⟨fuel, run.reverse ++ before, go_of_none ⟨rfl, isClear_nil, hne, hrun, hbehind⟩ hnone⟩

/-- An access to a member of an enum whose name is not plain keeps its first character, and
something that belongs to no run. -/
theorem replaceChars_token_of_not_isPlainName (entries : Entries) (member : String)
    (hname : isSourceName name.toList = true) (hplain : isPlainName name = false) :
    (replaceChars entries (token name member).toList).head? = name.toList.head? ∧
      ∃ c ∈ replaceChars entries (token name member).toList, continuesToken c = false := by
  let run := name.toList.takeWhile continuesToken
  let behind := name.toList.dropWhile continuesToken ++ '.' :: member.toList
  have htext : (token name member).toList = run ++ behind := by
    rw [toList_token, ← List.append_assoc, List.takeWhile_append_dropWhile]
  have hbehind : IsOpen behind := isOpen_append (isOpen_dropWhile _) (isOpen_point _)
  obtain ⟨left, passed, hgo⟩ := exists_go_of_run (run ++ behind).length
    (fun c hc => List.mem_takeWhile_imp hc) hbehind
    (occurrence?_eq_none_of_not_isPlainName entries [] hname hplain)
  have hreplace : replaceChars entries (token name member).toList =
      run ++ go entries left passed behind := by
    rw [htext, replaceChars, hgo]
  rw [hreplace]
  constructor
  · rw [List.head?_append, head?_go hbehind, ← List.head?_append, ← htext, toList_token,
      List.head?_append_of_ne_nil _ (ne_nil_of_isSourceName hname)]
  · obtain ⟨c, rest, hcons⟩ : ∃ c rest, behind = c :: rest :=
      List.exists_cons_of_ne_nil (List.append_ne_nil_of_right_ne_nil _ (List.cons_ne_nil _ _))
    have hhead : behind.head? = some c := by rw [hcons]; rfl
    refine ⟨c, List.mem_append_right _ ?_, hbehind c hhead⟩
    exact List.mem_of_head? ((head?_go hbehind).trans hhead)

/-- An access to a member of an enum whose name is not plain is not replaced by a value. -/
theorem replace_token_ne (value : MemberValue) (hname : isSourceName name.toList = true)
    (hplain : isPlainName name = false) : replace entries (token name member) ≠ value.text := by
  intro hvalue
  have hchars : replaceChars entries (token name member).toList = value.chars := by
    simpa [replace, onChars, MemberValue.text] using congrArg String.toList hvalue
  obtain ⟨hhead, c, hc, hclear⟩ :=
    replaceChars_token_of_not_isPlainName entries member hname hplain
  rw [hchars] at hhead hc
  rcases value.continues_or_exists_head? with hall | ⟨first, hfirst, hnone⟩
  · rw [hall c hc] at hclear
    cases hclear
  · obtain ⟨start, rest, hcons⟩ := List.exists_cons_of_ne_nil (ne_nil_of_isSourceName hname)
    rw [hcons] at hname hhead
    obtain rfl : first = start := Option.some.inj (hfirst.symm.trans hhead)
    rw [(Bool.and_eq_true_iff.1 hname).1] at hnone
    cases hnone

end Substitution

end EnumInline
