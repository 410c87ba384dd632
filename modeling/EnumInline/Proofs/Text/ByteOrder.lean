import EnumInline.Key

/-!
The order of texts is the order of their bytes. Texts are compared character by
character; since UTF-8 encodes a smaller character by smaller bytes, comparing
the bytes gives the same result.
-/

namespace EnumInline.Text

/-- The bytes of a text in UTF-8. -/
def bytes (text : String) : List UInt8 := text.toUTF8.data.toList

/-- Two byte strings differ within both of them, and the first is smaller where
they do. -/
def BelowWithin : List UInt8 → List UInt8 → Prop
  | first :: earlier, second :: later =>
      first < second ∨ first = second ∧ BelowWithin earlier later
  | _, _ => False

theorem BelowWithin.append_lt {first second : List UInt8}
    (h : BelowWithin first second) (earlier later : List UInt8) :
    first ++ earlier < second ++ later := by
  fun_induction BelowWithin first second with
  | case1 first rest second others ih =>
    simp only [List.cons_append, List.cons_lt_cons_iff]
    rcases h with hlt | ⟨rfl, hrest⟩
    · exact Or.inl hlt
    · exact Or.inr ⟨rfl, ih hrest⟩
  | case2 => exact h.elim

theorem belowWithin_utf8EncodeChar {c d : Char} (h : c < d) :
    BelowWithin (String.utf8EncodeChar c) (String.utf8EncodeChar d) := by
  have hlt : c.val.toNat < d.val.toNat := h
  have hmax : d.val.toNat < 0x110000 := by
    have hvalid := d.valid
    unfold UInt32.isValidChar Nat.isValidChar at hvalid
    omega
  unfold String.utf8EncodeChar
  dsimp only
  repeat' split
  all_goals
    simp only [BelowWithin, UInt8.lt_iff_toNat_lt, ← UInt8.toNat_inj,
      UInt8.toNat_ofNat', and_false, or_false]
    simp (disch := omega) only [Nat.mod_eq_of_lt]
    omega

theorem bytes_eq_flatMap (text : String) :
    bytes text = text.toList.flatMap String.utf8EncodeChar := by
  rw [bytes, String.toUTF8_eq_toByteArray, ← String.utf8Encode_toList]
  simp [List.utf8Encode]

theorem bytes_inj {first second : String} : bytes first = bytes second ↔ first = second := by
  rw [bytes, bytes, Array.toList_inj, ← ByteArray.ext_iff, String.toUTF8_eq_toByteArray,
    String.toUTF8_eq_toByteArray, String.toByteArray_inj]

theorem toList_loop (array : ByteArray) (i : Nat) (before : List UInt8) :
    ByteArray.toList.loop array i before = before.reverse ++ array.data.toList.drop i := by
  fun_induction ByteArray.toList.loop array i before with
  | case1 i before hlt ih =>
    have hget : array.get! i = array.data.toList[i] := by
      rw [ByteArray.get!, Array.getElem_toList, getElem!_pos array.data i hlt]
    rw [ih, hget, List.reverse_cons, List.append_assoc, List.singleton_append,
      List.getElem_cons_drop]
  | case2 i before hge =>
    rw [List.drop_of_length_le (Nat.not_lt.1 hge), List.append_nil]

theorem toList_toUTF8 (text : String) : text.toUTF8.toList = bytes text :=
  toList_loop text.toUTF8 0 []

theorem flatMap_utf8EncodeChar_lt {first second : List Char}
    (h : List.Lex (· < ·) first second) :
    first.flatMap String.utf8EncodeChar < second.flatMap String.utf8EncodeChar := by
  induction h with
  | @nil c rest =>
    have hlength := String.length_utf8EncodeChar c
    cases hbytes : String.utf8EncodeChar c with
    | nil =>
      have hsize := c.utf8Size_pos
      simp only [hbytes, List.length_nil] at hlength
      omega
    | cons byte others => simp [hbytes]
  | rel hlt => exact (belowWithin_utf8EncodeChar hlt).append_lt _ _
  | cons _ ih => exact List.append_left_lt ih

theorem bytes_lt_of_lt {first second : String} (h : first < second) :
    bytes first < bytes second := by
  rw [bytes_eq_flatMap, bytes_eq_flatMap]
  exact flatMap_utf8EncodeChar_lt (String.lt_iff.mp h)

theorem compare_eq_lt_iff {first second : String} :
    compare first second = .lt ↔ first < second :=
  compareOfLessAndEq_eq_lt

theorem isLE_compare_iff {first second : String} :
    (compare first second).isLE = true ↔ first ≤ second := by
  rw [← String.not_lt, ← compare_eq_lt_iff, ← Std.OrientedCmp.gt_iff_lt, ← Ordering.ne_gt_iff_isLE]

/-- Texts are in the order of their bytes. -/
theorem compare_eq_lt_iff_bytes {first second : String} :
    compare first second = .lt ↔ bytes first < bytes second := by
  rw [compare_eq_lt_iff]
  refine ⟨bytes_lt_of_lt, fun hbytes => ?_⟩
  cases hcompare : compare first second with
  | lt => exact compare_eq_lt_iff.mp hcompare
  | eq =>
    obtain rfl := Std.LawfulEqOrd.eq_of_compare hcompare
    exact absurd hbytes (List.lt_irrefl _)
  | gt =>
    have hlater : second < first :=
      compare_eq_lt_iff.mp (Std.OrientedCmp.lt_of_gt hcompare)
    exact absurd hbytes (List.lt_asymm (bytes_lt_of_lt hlater))

end EnumInline.Text

namespace EnumInline.DeclarationKey

/-- A key comes before another in the order of the bytes of its module, and
within a module in the order of the bytes of its name. -/
def Precedes (first second : DeclarationKey) : Prop :=
  Text.bytes first.module < Text.bytes second.module ∨
    first.module = second.module ∧ Text.bytes first.name < Text.bytes second.name

theorem compare_eq_lt_iff_precedes {first second : DeclarationKey} :
    compare first second = .lt ↔ first.Precedes second := by
  change compareLex (compareOn module) (compareOn name) first second = .lt ↔ _
  simp only [compareLex, compareOn, Ordering.then_eq_lt, Std.compare_eq_iff_eq,
    Text.compare_eq_lt_iff_bytes, Precedes]

end EnumInline.DeclarationKey
