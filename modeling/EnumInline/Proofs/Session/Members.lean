import EnumInline.Proofs.Analysis.Targets
import EnumInline.Proofs.Markup.ScriptBlocks
import EnumInline.Proofs.Session.Rewriting
import EnumInline.Proofs.TypeScript.Enums

/-!
How many members an enum can have. Each of them takes room in a file, and a file that is read is
too small for `2 ^ 53` of them.
-/

namespace EnumInline

open TypeScript

theorem length_le_utf8ByteSize (text : String) : text.toList.length ≤ text.utf8ByteSize := by
  induction text using String.push_induction with
  | empty => simp
  | push text c ih =>
    have hpos := c.utf8Size_pos
    rw [String.toList_push, List.length_append, List.length_singleton, String.utf8ByteSize_push]
    omega

theorem SourceModule.length_members_of_ofScript {path : String} {elements : Bool}
    {script : List Char} {module : SourceModule}
    (h : ofScript path elements script = .ok (.parsed module)) :
    ∀ declaration ∈ module.enums,
      declaration.members.length < Rules.depthFor script.length := by
  obtain ⟨items, hparse, rfl⟩ := exists_parse_of_ofScript h
  intro declaration hdeclaration
  obtain ⟨exported, syntaxTree, hitem, -, hmembers⟩ :=
    Enum.Declaration.exists_syntax_of_mem hdeclaration
  rw [hmembers, List.length_map]
  exact membersWithin_of_parse hparse _ hitem

/-- An enum has no more members than its file has room for. -/
theorem SourceModule.length_members_of_read {path source : String} {module : SourceModule}
    (h : SourceModule.read path source = .ok (.parsed module)) :
    ∀ declaration ∈ module.enums,
      declaration.members.length < Rules.depthFor source.toList.length := by
  unfold SourceModule.read at h
  split at h
  case h_1 => exact length_members_of_ofScript h
  case h_2 =>
    split at h
    case h_1 => cases h
    case h_2 blocks hblocks =>
      rw [← Markup.ScriptBlocks.length_text hblocks]
      exact length_members_of_ofScript h

namespace Session

variable {tree : FileTree} {options : Options} {session : Session}

/-- An enum of a project on disk has fewer members than there are whole numbers that doubles
count exactly. -/
theorem length_members_lt (h : analyze tree options = .ok session) {key : DeclarationKey}
    {declaration : Enum.Declaration}
    (hindex : session.analysis.project.index[key]? = some declaration) :
    declaration.members.length < 2 ^ 53 := by
  obtain ⟨aliases, paths, files, analysis, -, -, hfiles, hanalysis, rfl⟩ := analyze_ok h
  obtain ⟨values, -, rfl⟩ := Analysis.ofModules_ok hanalysis
  obtain ⟨module, hmodule, hdeclaration⟩ := Enum.Index.exists_module_of_getElem? hindex
  obtain ⟨file, hfile, hparsed⟩ := List.mem_filterMap.1 hmodule
  obtain ⟨path, -, hsource⟩ := (mapM_ok hfiles).2 file hfile
  obtain ⟨text, -, hsize, hread⟩ := readSource_ok_iff.1 hsource
  cases file with
  | skipped path => cases hparsed
  | parsed found =>
    obtain rfl := Option.some.inj hparsed
    have hlength := SourceModule.length_members_of_read hread declaration hdeclaration
    have htext := length_le_utf8ByteSize text
    unfold Rules.depthFor at hlength
    unfold maxFileSize at hsize
    omega

end Session

end EnumInline
