import EnumInline.Path.Steps
import EnumInline.Proofs.Text.Pieces

/-!
The order of paths. Paths are compared component by component and not character by
character: a path comes before those that go on where it ends, whatever character is
behind it there. Names are in the order of their bytes, which is that of their
characters.
-/

namespace EnumInline.Path

open Text

/-- What a path is made of. A step that stays where it is counts at the start only. -/
inductive Component where
  | root
  | here
  | up
  | name (text : String)
  deriving DecidableEq, Repr

namespace Component

def rank : Component → Nat
  | root => 0
  | here => 1
  | up => 2
  | name _ => 3

def text : Component → String
  | name text => text
  | _ => ""

instance : Ord Component where
  compare := compareLex (compareOn rank) (compareOn text)

instance : Std.TransOrd Component :=
  inferInstanceAs (Std.TransCmp (compareLex (compareOn rank) (compareOn text)))

instance : Std.LawfulEqOrd Component where
  eq_of_compare {first second} h := by
    have h : compareLex (compareOn rank) (compareOn text) first second = .eq := h
    obtain ⟨sameRank, sameText⟩ := compareLex_eq_eq.1 h
    cases first <;> cases second <;> simp_all [compareOn, rank, text]

/-- Names are in the order of their texts. -/
theorem compare_name (first second : String) :
    compare (name first) (name second) = compare first second := by
  change compareLex (compareOn rank) (compareOn text) _ _ = _
  simp [compareLex, compareOn, rank, text]

/-- What a step that does not stay where it is makes of a path. -/
def ofStep (step : String) : Component := if step = ".." then up else name step

end Component

def components (path : String) : List Component :=
  let further := ((steps path).filter (!isIdle ·)).map Component.ofStep
  if isAbsolute path then .root :: further
  else if (steps path).head? = some "." then .here :: further
  else further

/-- A path comes before another in the order of their components. -/
def Precedes (first second : String) : Prop :=
  compare (components first) (components second) = .lt

/-- Whether a path comes before another or has the same components. -/
def isNoLater (first second : String) : Bool :=
  (compare (components first) (components second)).isLE

theorem Precedes.isNoLater {first second : String} (h : Precedes first second) :
    isNoLater first second = true := by
  rw [Precedes] at h
  rw [Path.isNoLater, h]
  rfl

theorem compare_eq_of_isNoLater {first second : String} (hle : isNoLater first second = true)
    (hge : isNoLater second first = true) :
    compare (components first) (components second) = .eq :=
  Std.OrientedCmp.isLE_antisymm hle hge

theorem pairwise_mergeSort (paths : List String) :
    (paths.mergeSort isNoLater).Pairwise (isNoLater · · = true) := by
  refine List.pairwise_mergeSort (fun _ _ _ => Std.TransCmp.isLE_trans) ?_ paths
  intro first second
  have hback : isNoLater second first =
      (compare (components first) (components second)).isGE :=
    Std.OrientedCmp.isGE_eq_isLE.symm
  rw [hback, isNoLater]
  cases compare (components first) (components second) <;> rfl

section Lists

variable {α β : Type} [Ord α] [Ord β]

/-- What two lists begin with does not decide between them. -/
theorem compare_append_left [Std.ReflCmp (compare : α → α → Ordering)]
    (start first second : List α) :
    compare (start ++ first) (start ++ second) = compare first second := by
  induction start with
  | nil => rfl
  | cons head rest ih =>
    rw [List.cons_append, List.cons_append, ← ih]
    have hhead : compare head head = .eq := Std.ReflCmp.compare_self
    exact List.compareLex_cons_cons.trans (by rw [hhead]; rfl)

theorem compare_map {f : α → β} (h : ∀ first second, compare (f first) (f second) =
    compare first second) (first second : List α) :
    compare (first.map f) (second.map f) = compare first second := by
  induction first generalizing second with
  | nil => cases second <;> rfl
  | cons head rest ih =>
    cases second with
    | nil => rfl
    | cons other others =>
      have hrest : compare (rest.map f) (others.map f) = compare rest others := ih others
      exact List.compareLex_cons_cons.trans
        ((congrArg₂ Ordering.then (h head other) hrest).trans List.compareLex_cons_cons.symm)

end Lists

/-- A text that can name what a directory holds. -/
structure IsName (name : String) : Prop where
  whole : '/' ∉ name.toList
  ne_nil : name ≠ ""
  ne_here : name ≠ "."
  ne_up : name ≠ ".."

instance (name : String) : Decidable (IsName name) :=
  decidable_of_iff ('/' ∉ name.toList ∧ name ≠ "" ∧ name ≠ "." ∧ name ≠ "..")
    ⟨fun ⟨whole, empty, here, up⟩ => ⟨whole, empty, here, up⟩,
      fun h => ⟨h.whole, h.ne_nil, h.ne_here, h.ne_up⟩⟩

variable {start name : String} {names : List String}

theorem IsName.isIdle (h : IsName name) : isIdle name = false := by
  simp [Path.isIdle, h.ne_nil, h.ne_here]

theorem IsName.ofStep (h : IsName name) : Component.ofStep name = .name name :=
  if_neg h.ne_up

/-- The steps of a path made of names are the names. -/
theorem steps_intercalate (hne : names ≠ []) (h : ∀ name ∈ names, IsName name) :
    steps ("/".intercalate names) = names := by
  have hpieces : ∀ piece ∈ names.map String.toList, IsWhole (· == '/') piece := by
    rintro piece hpiece c hc
    obtain ⟨name, hname, rfl⟩ := List.mem_map.1 hpiece
    have hslash : c ≠ '/' := fun heq => (h name hname).whole (heq ▸ hc)
    simpa using hslash
  have hchars : ("/".intercalate names).toList =
      List.intercalate ['/'] (names.map String.toList) := by
    rw [String.toList_intercalate]
    rfl
  rw [steps, hchars, splitWhere_intercalate rfl (by simpa using hne) hpieces, List.map_map]
  simp [Function.comp_def]

theorem isAbsolute_intercalate (h : ∀ name ∈ names, IsName name) :
    isAbsolute ("/".intercalate names) = false := by
  cases names with
  | nil => rfl
  | cons name rest =>
    have hname : IsName name := h name (by simp)
    have hhead : ("/".intercalate (name :: rest)).toList.head? = name.toList.head? := by
      have hne : name.toList ≠ [] := by simpa using hname.ne_nil
      rw [String.toList_intercalate]
      cases rest with
      | nil => simp
      | cons next rest => simp [List.intercalate_cons_cons, List.head?_append_of_ne_nil _ hne]
    rw [isAbsolute, hhead, beq_eq_false_iff_ne]
    exact fun hslash => hname.whole (List.mem_of_mem_head? hslash)

/-- The steps of a path that goes on from another begin with those of the other, but for
the idle step behind a slash at its end. -/
theorem exists_steps_join {path : String} (hstart : start ≠ "") (hpath : isAbsolute path = false) :
    ∃ outer ending, outer ≠ [] ∧ ending.filter (!isIdle ·) = [] ∧
      steps start = outer ++ ending ∧ steps (join start path) = outer ++ steps path := by
  have happend (before : List Char) : (splitWhere (· == '/') (before ++ '/' :: path.toList)).map
      String.ofList = (splitWhere (· == '/') before).map String.ofList ++ steps path := by
    rw [splitWhere_append_mark rfl, List.map_append, steps]
  have hempty : start.isEmpty = false := by simpa using hstart
  cases hlast : start.toList.getLast? == some '/' with
  | false =>
    refine ⟨steps start, [], by simp [steps, splitWhere_ne_nil], rfl, by simp, ?_⟩
    have hchars : (join start path).toList = start.toList ++ '/' :: path.toList := by
      simp [join, hpath, hempty, hlast]
    rw [steps, hchars, happend, ← steps]
  | true =>
    obtain ⟨before, hbefore⟩ := List.getLast?_eq_some_iff.1 (eq_of_beq hlast)
    refine ⟨(splitWhere (· == '/') before).map String.ofList, [""],
      by simp [splitWhere_ne_nil], rfl, ?_, ?_⟩
    · rw [steps, hbefore, splitWhere_append_mark rfl]
      simp [splitWhere]
    · have hchars : (join start path).toList = before ++ '/' :: path.toList := by
        simp [join, hpath, hempty, hbefore]
      rw [steps, hchars, happend]

theorem isAbsolute_join {path : String} (hstart : start ≠ "") (hpath : isAbsolute path = false) :
    isAbsolute (join start path) = isAbsolute start := by
  have hempty : start.isEmpty = false := by simpa using hstart
  have hne : start.toList ≠ [] := by simpa using hstart
  unfold join
  simp only [hpath, hempty, Bool.or_self, Bool.false_eq_true, if_false]
  split <;> simp [isAbsolute, List.append_assoc, List.head?_append_of_ne_nil _ hne]

/-- Below a directory, a path goes on with the names that lead there. -/
theorem components_join (hstart : start ≠ "") (hne : names ≠ [])
    (h : ∀ name ∈ names, IsName name) :
    components (join start ("/".intercalate names)) =
      components start ++ names.map .name := by
  have hrelative := isAbsolute_intercalate h
  obtain ⟨outer, ending, houter, hending, hsteps, hjoined⟩ := exists_steps_join hstart hrelative
  have hkept : names.filter (!isIdle ·) = names :=
    List.filter_eq_self.2 fun name hname => by simp [(h name hname).isIdle]
  have hnames : names.map Component.ofStep = names.map .name :=
    List.map_congr_left fun name hname => (h name hname).ofStep
  rw [steps_intercalate hne h] at hjoined
  simp only [components, hjoined, hsteps, isAbsolute_join hstart hrelative, List.filter_append,
    hending, hkept, hnames, List.map_append, List.head?_append_of_ne_nil _ houter,
    List.append_nil]
  split
  · rfl
  · split <;> rfl

end EnumInline.Path
