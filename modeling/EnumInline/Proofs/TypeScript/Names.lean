import EnumInline.Proofs.Outcome
import EnumInline.TypeScript.Parse

/-!
Names in the statements of a source. A token has text that source can spell, and the names
of enums and the names that imports introduce are the text of a token each. What a parser
yields is followed through the rules of the grammar that keep it; what the others do is of
no account.
-/

namespace EnumInline.TypeScript

open Text

namespace Parser

/-- Whatever the parser yields has a property. -/
def Yields {α : Type} (p : Parser α) (holds : α → Prop) : Prop :=
  ∀ context state value after, p context state = .ok (value, after) → holds value

namespace Yields

variable {α β : Type} {p : Parser α} {next : α → Parser β} {first : α → Prop}
  {holds : β → Prop}

theorem pure {value : β} (h : holds value) : Yields (Pure.pure value) holds := by
  intro context state found after hrun
  cases hrun
  exact h

theorem failAt {offset : Nat} : Yields (failAt offset) holds := by
  intro context state found after hrun
  cases hrun

theorem bind_of (hp : Yields p first) (hnext : ∀ value, first value → Yields (next value) holds) :
    Yields (p >>= next) holds := by
  intro context state value after hrun
  change (p context state).bind (fun found => next found.1 context found.2) = _ at hrun
  cases hfound : p context state with
  | error stop =>
    rw [hfound] at hrun
    cases hrun
  | ok found =>
    rw [hfound] at hrun
    exact hnext found.1 (hp context state _ _ hfound) context found.2 value after hrun

theorem bind (hnext : ∀ value, Yields (next value) holds) : Yields (p >>= next) holds :=
  bind_of (fun _ _ _ _ _ => trivial) fun value (_ : True) => hnext value

theorem ite {condition : Prop} [Decidable condition] {p q : Parser β} (hp : Yields p holds)
    (hq : Yields q holds) : Yields (if condition then p else q) holds := by
  split
  · exact hp
  · exact hq

theorem withReader {change : Context → Context} {p : Parser β} (hp : Yields p holds) :
    Yields (withReader change p) holds := fun context => hp (change context)

theorem attempt {p : Parser β} (hp : Yields p holds) :
    Yields (attempt p) fun found => ∀ value ∈ found, holds value := by
  intro context state found after hrun value hvalue
  unfold Parser.attempt at hrun
  split at hrun
  next hfound =>
    cases hrun
    cases hvalue
    exact hp context state _ _ hfound
  next =>
    cases hrun
    cases hvalue

theorem fail : Yields (fail : Parser β) holds := by
  unfold Parser.fail
  refine bind fun token => ?_
  split
  · exact failAt
  · exact bind fun _ => failAt

theorem repeatUntil {fuel : Nat} {stop : Parser Bool} {p : Parser β} (hp : Yields p holds) :
    Yields (repeatUntil fuel stop p) fun values => ∀ value ∈ values, holds value := by
  unfold Parser.repeatUntil
  suffices hgo : ∀ soFar : List β, (∀ value ∈ soFar, holds value) →
      Yields (repeatUntil.go stop p fuel soFar) fun values => ∀ value ∈ values, holds value from
    hgo [] fun _ hvalue => absurd hvalue List.not_mem_nil
  induction fuel with
  | zero => exact fun _ _ => fail
  | succ fuel ih =>
    intro soFar hsoFar
    refine bind fun stopped => ite ?_ ?_
    · exact pure fun value hvalue => hsoFar value (List.mem_reverse.1 hvalue)
    · refine bind_of hp fun value hvalue => ih _ ?_
      exact List.forall_mem_cons.2 ⟨hvalue, hsoFar⟩

theorem commaList {fuel : Nat} {close : String} {p : Parser β} (hp : Yields p holds) :
    Yields (commaList fuel close p) fun values => ∀ value ∈ values, holds value := by
  exact repeatUntil (bind_of hp fun value hvalue => bind fun closed =>
    ite (pure hvalue) (bind fun _ => pure hvalue))

end Yields

/-- The text is a name of the source. -/
def IsSpelled (text : String) : Prop := isSourceName text.toList = true

theorem yields_token : Yields token Token.IsSpelled := by
  intro context state found after hrun
  cases hrun
  exact state.current.spelled

theorem yields_word : Yields word IsSpelled := by
  refine .bind_of yields_token fun token hspelled => ?_
  split
  · exact .bind fun _ => .pure hspelled
  · exact .fail

theorem yields_identifier : Yields identifier IsSpelled := by
  refine .bind_of yields_token fun token hspelled => ?_
  split
  · exact .ite .fail (.bind fun _ => .pure hspelled)
  · exact .fail

theorem yields_boundName : Yields boundName IsSpelled := by
  refine .bind fun start => .bind_of yields_token fun token hspelled => ?_
  split
  · exact .ite (.bind fun _ => .bind fun _ => .pure hspelled) yields_identifier
  · exact .fail

/-- The name that a statement passes on is a name of the source. -/
def PassesSpelled (pair : Renaming) : Prop := IsSpelled pair.newName

theorem yields_typeMarked {target : Parser String} (h : Yields target IsSpelled) :
    Yields (typeMarked target) PassesSpelled := by
  have has : isSourceName "as".toList = true := by decide
  refine .bind_of yields_word fun first hfirst => .ite ?_ ?_
  · exact .bind fun _ => .ite (.bind_of h fun _ hname => .pure hname) (.pure hfirst)
  · refine .bind fun _ => .ite (.pure has) (.bind_of h fun second hsecond => ?_)
    refine .ite (.pure hsecond) (.bind fun _ => ?_)
    exact .ite (.bind_of h fun _ hname => .pure hname) (.pure has)

theorem yields_importSpecifier : Yields importSpecifier PassesSpelled := by
  have hrenamed {name : String} :
      Yields (do return ⟨name, ← boundName⟩ : Parser Renaming) PassesSpelled :=
    .bind_of yields_boundName fun _ hname => .pure hname
  refine .bind fun start => .bind fun isText => ?_
  extract_lets named
  have hnamed : Yields (named ()) PassesSpelled := by
    refine .bind_of yields_word fun name hname => .bind fun _ => ?_
    refine .ite (yields_typeMarked yields_boundName) (.bind fun _ => ?_)
    exact .ite hrenamed (.ite .failAt (.pure hname))
  exact .ite (.bind fun _ => .bind fun _ => .ite hrenamed (.bind fun _ => hnamed)) hnamed

theorem yields_importDefault? :
    Yields importDefault? fun found => ∀ name ∈ found, IsSpelled name := by
  have hsome : Yields (do return some (← boundName) : Parser (Option String))
      fun found => ∀ name ∈ found, IsSpelled name :=
    .bind_of yields_boundName fun name hname => .pure (by simpa using hname)
  have hnone : ∀ name ∈ (none : Option String), IsSpelled name := fun _ h => nomatch h
  refine .bind fun _ => .ite (.pure hnone) (.bind fun _ => .bind fun _ => ?_)
  refine .ite (.bind fun _ => .pure hnone) (.bind fun _ => .bind fun _ => ?_)
  exact .ite (.bind fun _ => hsome) hsome

theorem yields_importNames (rules : Rules) :
    Yields (importNames rules) fun names => ∀ pair ∈ names, PassesSpelled pair := by
  have hnil : ∀ pair ∈ [], PassesSpelled pair := fun _ hpair => absurd hpair List.not_mem_nil
  refine .bind fun _ => .ite (.bind fun _ => .bind fun _ => .pure hnil) (.bind fun _ => ?_)
  extract_lets names
  have hnames : Yields (names ()) fun names => ∀ pair ∈ names, PassesSpelled pair :=
    .bind_of (.commaList yields_importSpecifier) fun _ hnames => .bind fun _ => .pure hnames
  exact .ite (.bind fun _ => hnames) (.bind fun _ => hnames)

end Parser

/-- The enum of a statement has a property, and the names that it takes from other modules
are names of the source. -/
def Item.Holds (ofEnum : EnumDeclaration → Prop) : Item → Prop
  | .enum _ declaration => ofEnum declaration
  | .importNames _ names => ∀ pair ∈ names, Parser.PassesSpelled pair
  | _ => True

/-- The names that a statement gives to enums, and those that it takes from other modules,
are names of the source. -/
def Item.IsSpelled : Item → Prop := Item.Holds fun declaration => Parser.IsSpelled declaration.name

namespace Parser

variable (rules : Rules) {ofEnum : EnumDeclaration → Prop}

theorem yields_importItem : Yields (importItem rules) (Item.Holds ofEnum) := by
  refine .bind fun _ => .bind fun _ => .ite ?_ ?_
  · exact .bind fun _ => .bind fun _ => .bind fun _ => .pure trivial
  refine .bind_of yields_importDefault? fun default? hdefault => .bind fun _ => ?_
  refine .ite (.bind fun _ => .pure trivial) (.bind fun _ => ?_)
  extract_lets defaults finish
  have hfinish (others : List Renaming) (hothers : ∀ pair ∈ others, PassesSpelled pair) :
      Yields (finish others) (Item.Holds ofEnum) := by
    refine .bind fun source => .bind fun _ => .pure fun pair hpair => ?_
    rcases List.mem_append.1 hpair with hpair | hpair
    · obtain ⟨name, hname, rfl⟩ := List.mem_map.1 hpair
      exact hdefault name (Option.mem_toList.1 hname)
    · exact hothers pair hpair
  refine .ite (.bind_of (yields_importNames rules) hfinish) (.bind_of (.pure ?_) hfinish)
  exact fun _ hpair => absurd hpair List.not_mem_nil

theorem yields_enumDeclaration (isConst : Bool) :
    Yields (enumDeclaration rules isConst) fun declaration => IsSpelled declaration.name :=
  .bind fun _ => .bind_of yields_word fun _ hname =>
    .bind fun _ => .bind fun _ => .bind fun _ => .pure hname

section Items

variable (henum : ∀ isConst, Yields (enumDeclaration rules isConst) ofEnum)

include henum

theorem yields_constEnum : Yields (constEnum rules) (Item.Holds ofEnum) :=
  .bind fun _ => .bind_of (henum true) fun _ hdeclaration => .pure hdeclaration

theorem yields_typeLevelDeclaration : Yields (typeLevelDeclaration rules) (Item.Holds ofEnum) := by
  refine .bind fun token => ?_
  split
  · exact .bind_of (henum false) fun _ hdeclaration => .pure hdeclaration
  · exact .bind fun _ => .pure trivial
  · exact .bind fun _ => .pure trivial
  · exact .bind fun _ => .bind fun _ => .pure trivial
  · exact .bind fun _ => .pure trivial

theorem yields_ambientDeclaration? :
    Yields (ambientDeclaration? rules) fun found => ∀ item ∈ found, item.Holds ofEnum := by
  have hother : ∀ item ∈ some Item.other, item.Holds ofEnum := by
    rintro _ ⟨⟩
    trivial
  have hsome {p : Parser Item} (hp : Yields p (Item.Holds ofEnum)) :
      Yields (do return some (← p) : Parser (Option Item))
        fun found => ∀ item ∈ found, item.Holds ofEnum :=
    .bind_of hp fun item hitem => .pure (by simpa using hitem)
  refine .withReader (.bind fun token => ?_)
  split
  · exact .bind fun _ => .pure hother
  · exact .bind fun _ => .pure hother
  · exact .bind fun _ => .bind fun _ => .pure hother
  · refine .bind fun _ => .ite (hsome (yields_constEnum rules henum)) (.bind fun _ => ?_)
    refine .ite (.bind fun _ => .bind fun _ => .pure hother) (.bind fun _ => ?_)
    exact .ite (hsome (yields_typeLevelDeclaration rules henum)) (.pure fun _ h => nomatch h)

theorem yields_namedStatement (text : String) :
    Yields (namedStatement rules text) (Item.Holds ofEnum) := by
  unfold namedStatement
  split
  next => exact .bind fun _ => .pure trivial
  next =>
    refine .bind fun _ => .ite (yields_constEnum rules henum) (.bind fun _ => ?_)
    refine .ite (.bind fun _ => .bind fun _ => .pure trivial) (.bind fun _ => ?_)
    refine .ite (.bind fun _ => .bind fun _ => .pure trivial) (.bind fun _ => ?_)
    refine .ite (.bind fun _ => .bind fun _ => .pure trivial) (.ite .fail (.bind fun _ => ?_))
    refine .ite .fail (.bind fun _ => .ite (.bind fun _ => ?_) (.bind fun _ => ?_))
    · refine .bind_of (yields_ambientDeclaration? rules henum) fun found hfound => .pure ?_
      cases found with
      | none => trivial
      | some item => exact hfound item rfl
    · refine .ite (.bind fun _ => .bind fun _ => .pure trivial) (.bind fun _ => ?_)
      exact .ite (yields_typeLevelDeclaration rules henum) (.bind fun _ => .pure trivial)

theorem yields_statement : Yields (statement rules) (Item.Holds ofEnum) := by
  refine .bind fun token => ?_
  split
  · exact .bind fun _ => .pure trivial
  · exact .bind fun _ => .pure trivial
  · exact yields_namedStatement rules henum _
  · exact .bind fun _ => .pure trivial

omit henum in
theorem holds_exported {item : Item} (h : item.Holds ofEnum) :
    (Item.exported item).Holds ofEnum := by
  cases item <;> exact h

omit henum in
theorem yields_namedExports : Yields (namedExports rules) (Item.Holds ofEnum) := by
  refine .bind fun _ => .bind fun _ => .bind fun _ => .bind fun _ => .ite ?_ ?_
  · exact .bind fun _ => .bind fun _ => .pure trivial
  · exact .bind fun _ => .bind fun _ => .pure trivial

omit henum in
theorem yields_starExport : Yields (starExport rules) (Item.Holds ofEnum) := by
  refine .bind fun _ => .bind fun isNamespace => ?_
  extract_lets finish
  have hfinish : Yields (finish ()) (Item.Holds ofEnum) := by
    refine .bind fun _ => .bind fun _ => .pure ?_
    cases isNamespace <;> trivial
  exact .ite (.bind fun _ => hfinish) hfinish

theorem yields_defaultExport : Yields (defaultExport rules) (Item.Holds ofEnum) := by
  refine .bind fun _ => .bind fun _ => .ite ?_ (.bind fun _ => ?_)
  · exact .bind fun _ => .bind fun _ => .pure trivial
  refine .ite (yields_typeLevelDeclaration rules henum) (.bind fun _ => ?_)
  refine .ite (.bind fun _ => .pure trivial) (.bind fun _ => .bind fun _ => ?_)
  refine .ite (.bind fun _ => .bind fun _ => .pure trivial) (.bind fun _ => ?_)
  exact .ite (.bind fun _ => .pure trivial) (.bind fun _ => .bind fun _ => .pure trivial)

theorem yields_valueExport : Yields (valueExport rules) (Item.Holds ofEnum) := by
  refine .bind fun _ => .ite (.bind fun _ => .pure trivial) (.bind fun _ => .bind fun _ => ?_)
  refine .ite (.bind fun _ => .bind fun _ => .pure trivial) (.bind fun _ => ?_)
  refine .ite (.bind fun _ => .pure trivial) (.bind fun _ => .bind fun _ => .ite ?_ ?_)
  · exact .bind_of (yields_constEnum rules henum) fun _ hitem => .pure (holds_exported hitem)
  refine .bind fun _ => .bind fun _ => .ite (.bind fun _ => .pure trivial) (.bind fun _ => ?_)
  exact .ite (yields_starExport rules) (yields_namedExports rules)

omit henum in
theorem yields_importAlias : Yields (importAlias rules) (Item.Holds ofEnum) := by
  refine .bind fun _ => .bind fun _ => ?_
  extract_lets finish
  have hfinish : Yields (finish ()) (Item.Holds ofEnum) :=
    .bind fun _ => .bind fun _ => .bind fun _ => .pure trivial
  exact .ite (.bind fun _ => hfinish) hfinish

theorem yields_afterExport : Yields (afterExport rules) (Item.Holds ofEnum) := by
  refine .bind fun _ => .ite (yields_importAlias rules) (.bind fun _ => ?_)
  refine .ite (.bind fun _ => .bind fun _ => .pure trivial) (.bind fun _ => .ite ?_ ?_)
  · exact .bind fun _ => .bind fun _ => .bind fun _ => .pure trivial
  refine .bind fun _ => .ite (.bind fun _ => ?_) (.bind fun _ => ?_)
  · exact .ite (yields_starExport rules) (yields_namedExports rules)
  · exact .ite (yields_defaultExport rules henum) (yields_valueExport rules henum)

theorem yields_exportItem : Yields (exportItem rules) (Item.Holds ofEnum) := by
  have hsome {item : Item} (hitem : item.Holds ofEnum) :
      Yields (Pure.pure (Item.exported item) : Parser Item) (Item.Holds ofEnum) :=
    .pure (holds_exported hitem)
  refine .bind fun _ => .bind fun _ => ?_
  extract_lets after other
  have hafter : Yields (after ()) (Item.Holds ofEnum) := yields_afterExport rules henum
  have hother : Yields (other ()) (Item.Holds ofEnum) := by
    refine .bind fun _ => ?_
    refine .ite (.bind_of (.attempt (yields_typeLevelDeclaration rules henum)) ?_) hafter
    intro found hfound
    cases found with
    | none => exact hafter
    | some item => exact hsome (hfound item rfl)
  refine .ite (.bind_of (yields_ambientDeclaration? rules henum) fun found hfound => ?_) hother
  cases found with
  | none => exact hother
  | some item => exact hsome (hfound item rfl)

/-- A statement has the property of its enum. -/
theorem yields_item : Yields (item rules) (Item.Holds ofEnum) := by
  refine .bind fun token => ?_
  split
  · exact .bind fun _ => .ite (yields_statement rules henum) (yields_importItem rules)
  · exact yields_exportItem rules henum
  · exact yields_statement rules henum

end Items

end Parser

open TypeScript.Parser

section Sources

variable {ofEnum : EnumDeclaration → Prop} {markup : Bool} {source : List Char} {items : List Item}

theorem Rules.yields_item {depth : Nat} (henum : ∀ level < depth, ∀ isConst,
      Yields (enumDeclaration (ofDepth level) isConst) ofEnum) :
    Yields (ofDepth depth).item (Item.Holds ofEnum) := by
  cases depth with
  | zero => exact .fail
  | succ depth => exact Parser.yields_item (ofDepth depth) (henum depth (Nat.lt_succ_self depth))

theorem holds_of_readItems (henum : ∀ level < Rules.depthFor source.length, ∀ isConst,
      Yields (enumDeclaration (Rules.ofDepth level) isConst) ofEnum)
    (h : readItems markup source = .ok items) : ∀ item ∈ items, item.Holds ofEnum := by
  unfold readItems at h
  dsimp only at h
  split at h
  next => cases h
  next found state hfound =>
    have hitem := Rules.yields_item henum
    have hitems := Yields.repeatUntil hitem _ _ _ _ hfound
    split at h
    next =>
      cases h
      exact hitems
    next => cases h

/-- What holds of the enums that are read at any depth a source can have holds of the enums
in its statements. -/
theorem holds_of_parse (henum : ∀ level < Rules.depthFor source.length, ∀ isConst,
      Yields (enumDeclaration (Rules.ofDepth level) isConst) ofEnum)
    (h : parse markup source = .ok items) : ∀ item ∈ items, item.Holds ofEnum := by
  have hread := ok_of_mapError h
  refine holds_of_readItems (fun level hlevel => henum level ?_) hread
  refine Nat.lt_of_lt_of_le hlevel ?_
  unfold Rules.depthFor
  split
  · rw [List.length_drop]
    omega
  · exact Nat.le_refl _

/-- The names in the statements of a source are names of the source. -/
theorem isSpelled_of_parse (h : parse markup source = .ok items) :
    ∀ item ∈ items, item.IsSpelled :=
  holds_of_parse (fun _ _ isConst => yields_enumDeclaration _ isConst) h

end Sources

end EnumInline.TypeScript
