import EnumInline.Proofs.Analysis.Tokens
import EnumInline.Proofs.Enum.Spelling
import EnumInline.Proofs.Substitution.LineEnds

/-!
The texts in the table of a project. Whatever the sources hold, what is put in for an
access is one literal behind one operator at most, on one line; so replacing accesses
leaves the lines of a source where they are.
-/

namespace EnumInline

open Substitution

/-- The initializers of a module that is read have no signed literals, but for the
operators in front of them. -/
theorem SourceModule.IsRead.isUnsigned_members {module : SourceModule} (h : module.IsRead) :
    ∀ declaration ∈ module.enums, ∀ member ∈ declaration.members,
      member.initializer.IsUnsigned := by
  obtain ⟨path, source, hread⟩ := h
  obtain ⟨elements, script, items, hparse, rfl⟩ := exists_parse_of_read hread
  intro declaration hdeclaration member hmember
  obtain ⟨exported, syntaxTree, hitem, -, hmembers⟩ :=
    Enum.Declaration.exists_syntax_of_mem hdeclaration
  rw [hmembers] at hmember
  obtain ⟨written, hwritten, rfl⟩ := List.mem_map.1 hmember
  have hvalues := TypeScript.unsignedValues_of_parse hparse _ hitem
  exact Initializer.isUnsigned_ofExpr? (hvalues written hwritten)

/-- How a value is spelled that a table holds the text of. -/
structure MemberValue.IsSpelledAs (value : MemberValue) (text : String) : Prop where
  text_eq : text = value.text
  /-- The operator of the value stands in front of a string or of a number without a
  sign. -/
  unsigned : ∀ operator, value.operator = some operator → value.literal.IsUnsigned
  /-- The text is one literal behind one operator at most. -/
  signed : IsSignedText text.toList
  single : ¬ HasTwoOperators text.toList
  /-- A string is one in JSON, which is decoded to the string of the value. -/
  string : ∀ decoded, value.literal = .string decoded →
    ∃ quoted, text.toList = value.operator.toList.map PrefixOperator.symbol ++ quoted ∧
      Json.unquote? quoted = some decoded.toList
  printable : ∀ c ∈ text.toList, 0x20 ≤ c.toNat

theorem MemberValue.IsPlain.isSpelledAs {value : MemberValue} (h : value.IsPlain) :
    value.IsSpelledAs value.text where
  text_eq := rfl
  unsigned := h.unsigned
  signed := by
    rw [text, String.toList_ofList]
    exact h.isSignedText
  single := by
    rw [text, String.toList_ofList]
    exact h.isSignedText.not_hasTwoOperators
  string decoded hstring := by
    refine ⟨Json.quote decoded.toList, ?_, Json.unquote?_quote _⟩
    rw [text, String.toList_ofList, chars, hstring]
    rfl
  printable c hc := by
    rw [text, String.toList_ofList] at hc
    exact le_of_mem_chars hc

namespace Analysis

variable {aliases : Aliases} {inlineLocal : Bool} {modules : List SourceModule}
  {analysis : Analysis}

/-- The table has the text for some access in some file. -/
def HasText (analysis : Analysis) (text : String) : Prop :=
  ∃ (path : String) (entries : Entries) (access : String),
    analysis.table[path]? = some entries ∧ entries[access]? = some text

section Texts

variable (hread : ∀ module ∈ modules, module.IsRead)
  (h : ofModules aliases inlineLocal modules = .ok analysis)

include hread h

theorem exists_spelled_of_entry {path access text : String} {entries : Entries}
    (hrow : analysis.table[path]? = some entries) (hentry : entries[access]? = some text) :
    ∃ name key member value, access = ReplacementTable.token name member ∧
      analysis.values[(⟨key, member⟩ : MemberKey)]? = some value ∧ value.IsSpelledAs text := by
  obtain ⟨values, hvalues, rfl⟩ := ofModules_ok h
  obtain ⟨module, hmodule, enum, henum, hwrites⟩ :=
    ReplacementTable.exists_written_of_entry hrow hentry
  obtain ⟨declaration, member, value, -, -, -, hvalue, haccess, rfl⟩ := hwrites
  have hplain : value.IsPlain := by
    refine Enum.Evaluation.isPlain_of_evaluate (fun key declaration hindex => ?_) hvalues hvalue
    obtain ⟨module, hmodule, hdeclaration⟩ := Enum.Index.exists_module_of_getElem? hindex
    exact (hread module hmodule).isUnsigned_members declaration hdeclaration
  exact ⟨enum.1, enum.2, member, value, haccess, hvalue, hplain.isSpelledAs⟩

theorem le_of_hasText {text : String} (htext : analysis.HasText text) :
    ∀ c ∈ text.toList, 0x20 ≤ c.toNat := by
  obtain ⟨path, entries, access, hrow, hentry⟩ := htext
  obtain ⟨_, _, _, _, -, -, hspelled⟩ := exists_spelled_of_entry hread h hrow hentry
  exact hspelled.printable

/-- The texts in a table. Each is the text of the value of a member, and is spelled as
one literal behind one operator at most, without a control character; so replacing
accesses by such texts keeps the line ends of every source. -/
theorem texts_spelled :
    (∀ (path : String) (entries : Entries), analysis.table[path]? = some entries →
      ∀ access text : String, entries[access]? = some text →
        ∃ name key member value, access = ReplacementTable.token name member ∧
          analysis.values[(⟨key, member⟩ : MemberKey)]? = some value ∧
          value.IsSpelledAs text) ∧
      ∀ entries : Entries,
        (∀ access text : String, entries[access]? = some text → analysis.HasText text) →
        ∀ (code : String) (lineEnd : Char), lineEnd = '\n' ∨ lineEnd = '\r' →
          (replace entries code).toList.count lineEnd = code.toList.count lineEnd := by
  refine ⟨fun path entries hrow access text => exists_spelled_of_entry hread h hrow, ?_⟩
  intro entries htexts code lineEnd hlineEnd
  have hforeign : AreForeign isLineEnd entries :=
    areForeign_isLineEnd fun access text hentry => le_of_hasText hread h (htexts access text hentry)
  refine hforeign.count_replace ?_ code
  rcases hlineEnd with rfl | rfl <;> rfl

end Texts

/-- A file with a complement, a number counted from it, and a string behind an operator. -/
def signs : SourceModule :=
  ⟨"/signs.ts", "/signs",
    [⟨"Sign", false, [⟨"Low", .literal (some .complement) (.number .one)⟩, ⟨"Next", .implicit⟩,
      ⟨"Said", .literal (some .not) (.string "\"hi\"\n")⟩]⟩], [], []⟩

theorem texts_spelled_signs : (∀ module ∈ [signs], module.IsRead) ∧
    ∃ analysis entries, ofModules .empty true [signs] = .ok analysis ∧
      analysis.table["/signs.ts"]? = some entries ∧
      entries["Sign.Next"]? = some "-1" ∧ IsSignedText "-1".toList ∧
      entries["Sign.Said"]? = some "!\"\\\"hi\\\"\\n\"" ∧
      ∀ code : String, (replace entries code).toList.count '\n' = code.toList.count '\n' := by
  have hread : ∀ module ∈ [signs], module.IsRead := by
    intro module hmodule
    rw [List.mem_singleton] at hmodule
    subst hmodule
    exact ⟨"/signs.ts",
      "const enum Sign \x7b Low = ~1, Next, Said = !'\"hi\"\\n' \x7d", by decide +kernel⟩
  have hcheck : (ofModules .empty true [signs]).toOption.any (fun analysis =>
      analysis.table["/signs.ts"]?.any fun entries =>
        decide (entries["Sign.Next"]? = some "-1") &&
        decide (entries["Sign.Said"]? = some "!\"\\\"hi\\\"\\n\"")) = true := by
    decide +kernel
  obtain ⟨analysis, hanalysis, hfacts⟩ := exists_ok_of_any hcheck
  obtain ⟨entries, hrow, hentries⟩ := (Option.any_eq_true _ _).1 hfacts
  simp only [Bool.and_eq_true, decide_eq_true_eq] at hentries
  obtain ⟨hnext, hsaid⟩ := hentries
  obtain ⟨hspelled, hkept⟩ := texts_spelled hread hanalysis
  obtain ⟨_, _, _, _, -, -, hminus⟩ := hspelled _ _ hrow _ _ hnext
  refine ⟨hread, analysis, entries, hanalysis, hrow, hnext, hminus.signed, hsaid, fun code => ?_⟩
  exact hkept entries (fun access text hentry => ⟨_, entries, access, hrow, hentry⟩) code '\n'
    (Or.inl rfl)

end Analysis

end EnumInline
