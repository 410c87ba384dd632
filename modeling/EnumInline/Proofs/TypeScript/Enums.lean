import EnumInline.Proofs.TypeScript.Names

/-!
The enums of a source. The numbers in their initializers have no signs but those of the operators
before them, and an enum has no more members than its source has room for.
-/

namespace EnumInline.TypeScript

/-- A number in the expression has no sign; operators and brackets around it do not count. -/
def Expr.IsUnsigned : Expr → Prop
  | .number value => value.IsUnsigned
  | .paren inner => inner.IsUnsigned
  | .unary _ operand => operand.IsUnsigned
  | _ => True

/-- The numbers in the initializers of an enum have no signs but those of operators. -/
def EnumMember.HasUnsignedValue (member : EnumMember) : Prop :=
  ∀ value ∈ member.value, value.IsUnsigned

def EnumDeclaration.HasUnsignedValues (declaration : EnumDeclaration) : Prop :=
  ∀ member ∈ declaration.members, member.HasUnsignedValue

def Operand.IsUnsigned (operand : Operand) : Prop := operand.value.IsUnsigned

namespace Parser

namespace Yields

variable {β : Type} {p : Parser β} {holds : β → Prop}

theorem salvage (hp : Yields p holds) :
    Yields (salvage p) fun found => ∀ value, found = .ok value → holds value := by
  intro context state found after hrun value hvalue
  unfold Parser.salvage at hrun
  split at hrun
  next hfound =>
    cases hrun
    cases hvalue
    exact hp context state _ _ hfound
  next =>
    cases hrun
    cases hvalue

theorem failAtStart : Yields (failAtStart : Parser β) holds := by
  refine bind fun token => ?_
  split
  · exact bind fun _ => failAt
  · exact bind fun _ => failAt

/-- Each round of a repetition takes one unit of its fuel. -/
theorem length_repeatUntil {fuel : Nat} {stop : Parser Bool} :
    Yields (Parser.repeatUntil fuel stop p) fun values => values.length ≤ fuel := by
  unfold Parser.repeatUntil
  suffices hgo : ∀ soFar : List β,
      Yields (Parser.repeatUntil.go stop p fuel soFar) fun values =>
        values.length ≤ soFar.length + fuel by
    simpa using hgo []
  induction fuel with
  | zero => exact fun _ => fail
  | succ fuel ih =>
    intro soFar
    refine bind fun stopped => ite ?_ ?_
    · apply pure
      rw [List.length_reverse]
      omega
    · refine bind fun value => ?_
      have hrest := ih (value :: soFar)
      rw [List.length_cons, Nat.add_assoc, Nat.add_comm 1] at hrest
      exact hrest

end Yields

section Expressions

variable {rules : Rules}

theorem yields_arrayLiteral : Yields (arrayLiteral rules) Operand.IsUnsigned :=
  .bind fun _ => .bind fun _ => .bind fun _ => .bind fun _ => .pure trivial

theorem yields_objectLiteral : Yields (objectLiteral rules) Operand.IsUnsigned :=
  .bind fun _ => .bind fun _ => .bind fun _ => .bind fun _ => .pure trivial

theorem isUnsigned_extend {subject : Subject} {value : Expr} (h : value.IsUnsigned)
    (unassignable : Bool) : (subject.extend value unassignable).operand.IsUnsigned := by
  unfold Subject.extend Operand.IsUnsigned
  dsimp only
  split
  · trivial
  · exact h

theorem yields_memberName (subject : Subject) :
    Yields (memberName subject) fun found => found.operand.IsUnsigned := by
  refine .bind fun _ => .ite (.bind fun _ => .pure (isUnsigned_extend (by trivial) false)) ?_
  exact .bind fun _ => .pure (isUnsigned_extend (by trivial) false)

theorem yields_optionalMember (subject : Subject) :
    Yields (optionalMember rules subject) fun found => found.operand.IsUnsigned := by
  have hpure : Yields (Pure.pure ({ subject with optional := true }.extend .other true) :
      Parser Subject) fun found => found.operand.IsUnsigned :=
    .pure (isUnsigned_extend (by trivial) true)
  refine .bind fun _ => .bind fun _ => .ite (.bind fun _ => hpure) (.bind fun _ => ?_)
  refine .ite (.bind fun _ => hpure) (.bind fun _ => .ite ?_ ?_)
  · exact .bind fun _ => .bind fun _ => hpure
  · exact .bind fun _ => .bind fun _ => hpure

/-- Reading members and calls off an operand keeps it unsigned. -/
theorem yields_subscripts (calls : Bool) (fuel : Nat) {subject : Subject}
    (h : subject.operand.IsUnsigned) :
    Yields (subscripts rules calls fuel subject) Operand.IsUnsigned := by
  induction fuel generalizing subject with
  | zero => exact .fail
  | succ fuel ih =>
    refine .bind fun token => ?_
    split
    · exact .bind fun _ => .bind_of (yields_memberName subject) fun _ hnext => ih hnext
    · exact .ite (.bind_of (yields_optionalMember subject) fun _ hnext => ih hnext) .fail
    · exact .bind fun _ => ih (isUnsigned_extend (by trivial) false)
    · exact .ite (.bind fun _ => ih (isUnsigned_extend (by trivial) true)) (.pure h)
    · exact .bind fun _ => ih (isUnsigned_extend (by trivial) true)
    · refine .bind fun _ => .ite (.pure h) (.bind fun _ => ih (isUnsigned_extend (by trivial) _))
    · refine .bind fun _ => .ite (.bind fun _ => .ite ?_ (.pure h)) (.pure h)
      exact ih (isUnsigned_extend (by trivial) true)
    · refine .bind fun _ => .ite (.bind fun _ => .ite ?_ (.pure h)) (.pure h)
      exact ih (isUnsigned_extend (by trivial) true)
    · exact .pure h

theorem yields_superMember : Yields (superMember rules) Expr.IsUnsigned := by
  refine .bind fun _ => .bind fun _ => .ite ?_ (.bind fun _ => .ite ?_ ?_)
  · exact .bind fun _ => .bind fun _ => .pure trivial
  · exact .bind fun _ => .pure trivial
  · exact .bind fun _ => .pure trivial

theorem yields_importCall : Yields (importCall rules) Expr.IsUnsigned := by
  refine .bind fun _ => .bind fun _ => .ite ?_ ?_
  · exact .bind fun _ => .pure trivial
  · exact .bind fun _ => .pure trivial

/-- An object creation is no number. -/
theorem yields_creation (fuel : Nat) : Yields (creation rules fuel) Operand.IsUnsigned := by
  unfold creation
  cases fuel with
  | zero => exact .fail
  | succ fuel =>
    refine .bind fun start => .bind fun _ => .bind fun _ => .ite ?_ ?_
    · exact .bind fun _ => .bind fun _ => .bind fun _ => .pure trivial
    · refine .bind fun _ => .bind fun _ => .bind fun _ => ?_
      exact .ite (.bind fun _ => .pure trivial) (.pure trivial)

theorem yields_tolerated {operand : Parser Operand} (h : Yields operand Operand.IsUnsigned) :
    Yields (tolerated operand) Operand.IsUnsigned := by
  refine .bind fun start => .bind_of h.salvage fun found hfound => ?_
  split
  · exact .pure (hfound _ rfl)
  · exact .bind fun _ => .pure trivial

theorem yields_conversion {operand : Operand} :
    Yields (conversion rules operand) Operand.IsUnsigned := by
  refine .bind fun _ => .bind fun _ => .ite ?_ ?_
  · exact .bind fun _ => .pure trivial
  · exact .bind fun _ => .pure trivial

/-- An operation is no number, unless it is its first operand. -/
theorem yields_operations (fuel minimum : Nat) {operation : Operation}
    (h : operation.operand.IsUnsigned) :
    Yields (operations rules fuel minimum operation) fun found => found.operand.IsUnsigned := by
  induction fuel generalizing minimum operation with
  | zero => exact .fail
  | succ fuel ih =>
    unfold operations
    refine .bind fun _ => .ite (.bind_of yields_conversion fun _ hconverted => ih _ hconverted) ?_
    refine .bind fun _ => .bind fun operator => ?_
    extract_lets level power leftIsUnary rest
    have hrest : Yields (rest ()) fun found => found.operand.IsUnsigned := by
      refine .bind fun first => .bind fun right => ?_
      extract_lets value finish
      have hfinish : Yields (finish ()) fun found => found.operand.IsUnsigned := ih _ (by trivial)
      exact .ite (.bind fun _ => .bind fun _ => hfinish) hfinish
    refine .bind fun _ => .ite (.pure h) (.bind fun _ => ?_)
    exact .ite (.bind fun _ => hrest) hrest

end Expressions

section Nested

variable {rules : Rules} (hassignment : Yields rules.assignment Operand.IsUnsigned)

include hassignment

theorem yields_expression : Yields (expression rules) Operand.IsUnsigned := by
  refine .bind fun _ => .bind_of hassignment fun first hfirst => .bind fun _ => ?_
  exact .ite (.bind fun _ => .pure trivial) (.pure hfirst)

theorem yields_bracketed : Yields (bracketed rules) Operand.IsUnsigned := by
  have hexpression : Yields (enclosed (expression rules)) Operand.IsUnsigned :=
    .withReader (yields_expression hassignment)
  refine .bind fun start => .bind fun _ => .bind fun _ => ?_
  extract_lets inside
  have hinside : Yields (inside ()) Operand.IsUnsigned :=
    .bind_of hexpression fun inner hinner => .bind fun _ => .pure hinner
  exact .ite (.bind fun _ => hinside) hinside

/-- A number is read from one token, and brackets keep what is in them. -/
theorem yields_primary (fuel : Nat) : Yields (primary rules fuel) Operand.IsUnsigned := by
  unfold primary
  cases fuel with
  | zero => exact .fail
  | succ fuel =>
    refine .bind fun start => ?_
    extract_lets here
    have hother : Yields (Pure.pure (here .other) : Parser Operand) Operand.IsUnsigned :=
      .pure trivial
    have hliteral : Yields (Pure.pure (here .otherLiteral) : Parser Operand) Operand.IsUnsigned :=
      .pure trivial
    refine .bind_of yields_token fun token hspelled => ?_
    split
    case h_1 => exact .bind fun _ => .pure hspelled
    case h_2 => exact .bind fun _ => .pure trivial
    case h_3 => exact .bind fun _ => hliteral
    case h_4 => exact .bind fun _ => .pure trivial
    case h_5 => exact yields_bracketed hassignment
    case h_6 => exact yields_arrayLiteral
    case h_7 => exact yields_objectLiteral
    case h_8 => exact .bind fun _ => hliteral
    case h_9 => exact .bind fun _ => hliteral
    case h_10 => exact .bind fun _ => .bind fun _ => .bind fun _ => .ite hother .fail
    case h_11 => exact .bind fun _ => .ite (.bind fun _ => .bind fun _ => hother) .fail
    case h_12 => exact .bind fun _ => hother
    case h_13 => exact .bind fun _ => hother
    case h_14 =>
      refine .bind fun _ => .ite ?_ (.bind fun _ => .pure trivial)
      exact .bind fun _ => .bind fun _ => hother
    case h_15 => exact .bind fun _ => hother
    case h_16 => exact .bind fun _ => hliteral
    case h_17 => exact .bind fun _ => hliteral
    case h_18 => exact .bind fun _ => hliteral
    case h_19 => exact .bind_of yields_superMember fun _ hvalue => .pure hvalue
    case h_20 => exact .bind_of yields_importCall fun _ hvalue => .pure hvalue
    case h_21 => exact yields_creation fuel
    case h_22 => exact .bind fun _ => .bind fun _ => .pure trivial
    case h_23 => exact .bind fun _ => .bind fun _ => .pure trivial
    case h_24 => exact .bind fun _ => .pure trivial
    case h_25 => exact .failAtStart

theorem yields_leftHand : Yields (leftHand rules) Operand.IsUnsigned :=
  .bind_of (yields_primary hassignment rules.fuel) fun _ hfirst =>
    yields_subscripts true rules.fuel hfirst

end Nested

section Operands

variable {rules : Rules} (hleftHand : Yields rules.leftHand Operand.IsUnsigned)

include hleftHand

theorem yields_postfixed : Yields (postfixed rules) Operand.IsUnsigned := by
  refine .bind_of hleftHand fun operand hoperand => .bind fun _ => .bind fun _ => ?_
  exact .ite (.bind fun _ => .bind fun _ => .pure trivial) (.pure hoperand)

/-- An operator is kept with its operand. -/
theorem yields_unary (fuel : Nat) : Yields (unary rules fuel) Operand.IsUnsigned := by
  induction fuel with
  | zero => exact .fail
  | succ fuel ih =>
    refine .bind fun start => .bind fun token => ?_
    split
    · refine .bind fun _ => .bind_of (yields_tolerated ih) fun operand hoperand => ?_
      exact .bind fun _ => .pure hoperand
    · refine .bind fun token => ?_
      split
      · exact .bind fun _ => .bind fun _ => .bind fun _ => .pure trivial
      · exact .bind fun _ => .bind fun _ => .bind fun _ => .pure trivial
      · refine .bind fun _ => .ite (yields_postfixed hleftHand) ?_
        exact .bind fun _ => .bind fun _ => .pure trivial
      · refine .bind fun _ => .bind fun _ => .bind fun _ => .bind fun _ => .ite ?_ ?_
        · exact .bind fun _ => .pure trivial
        · exact .bind fun _ => .bind fun _ => .bind fun _ => .bind fun _ => .bind fun _ =>
            .pure trivial
      · exact yields_postfixed hleftHand

theorem yields_firstOperand : Yields (firstOperand rules) Operand.IsUnsigned := by
  have hunary := (yields_unary hleftHand rules.fuel).salvage
  refine .bind fun start => .bind_of hunary fun found hfound => ?_
  split
  · exact .pure (hfound _ rfl)
  · refine .bind fun _ => .bind fun _ => .bind fun _ => .ite ?_ .failAt
    exact .bind fun _ => .bind fun _ => .pure trivial

theorem yields_conditional : Yields (conditional rules) Operand.IsUnsigned := by
  refine .bind_of (yields_firstOperand hleftHand) fun first hfirst => ?_
  refine .bind_of (yields_operations rules.fuel 0 hfirst) fun test htest => ?_
  extract_lets first
  refine .bind fun _ => .ite ?_ (.pure htest)
  exact .bind fun _ => .bind fun _ => .bind fun _ => .pure trivial

theorem yields_assignment : Yields (assignment rules) Operand.IsUnsigned := by
  refine .bind fun start => .bind fun _ => .bind fun _ => .ite ?_ ?_
  · exact .bind fun _ => .pure trivial
  refine .bind fun _ => .bind fun _ => .ite (.pure trivial) ?_
  refine .bind_of (yields_conditional hleftHand) fun target htarget => .bind fun _ => ?_
  refine .bind fun _ => .ite ?_ (.bind fun _ => .ite ?_ (.pure htarget))
  · extract_lets last assigned
    have hlast : Yields (last ()) Operand.IsUnsigned :=
      .bind fun _ => .bind fun _ => .pure trivial
    have hassigned : Yields (assigned ()) Operand.IsUnsigned := by
      unfold assigned
      split
      · exact .bind fun _ => hlast
      · exact hlast
    split
    · exact .bind fun _ => hassigned
    · exact hassigned
  · exact .bind fun _ => .bind fun _ => .bind fun _ => .pure trivial

end Operands

section Enums

variable {rules : Rules}

theorem yields_enumMember (h : Yields rules.assignment Operand.IsUnsigned) :
    Yields (enumMember rules) EnumMember.HasUnsignedValue := by
  refine .bind fun name => .bind fun _ => .ite ?_ (.bind fun _ => .ite ?_ ?_)
  · refine .bind_of h fun operand hoperand => .pure ?_
    rintro _ ⟨⟩
    exact hoperand
  · exact .pure fun _ hvalue => nomatch hvalue
  · refine .bind fun _ => .ite .fail ?_
    exact .bind fun _ => .bind fun _ => .bind fun _ => .bind fun _ =>
      .pure fun _ hvalue => nomatch hvalue

theorem yields_enumMembers (h : Yields rules.assignment Operand.IsUnsigned) :
    Yields (enumMembers rules) fun members => ∀ member ∈ members, member.HasUnsignedValue := by
  refine .repeatUntil (.bind_of (yields_enumMember h) fun member hmember => ?_)
  refine .bind fun _ => .bind fun _ => ?_
  extract_lets finish
  have hfinish : Yields (finish ()) EnumMember.HasUnsignedValue := .pure hmember
  refine .ite hfinish (.bind fun _ => .ite (.bind fun _ => hfinish) ?_)
  exact .bind fun _ => .bind fun _ => hfinish

theorem yields_unsignedValues (h : Yields rules.assignment Operand.IsUnsigned) (isConst : Bool) :
    Yields (enumDeclaration rules isConst) EnumDeclaration.HasUnsignedValues := by
  refine .bind fun _ => .bind fun _ => .bind fun _ => ?_
  exact .bind_of (.withReader (yields_enumMembers h)) fun members hmembers =>
    .bind fun _ => .pure hmembers

/-- An enum has no more members than its grammar has fuel. -/
theorem yields_membersWithin (isConst : Bool) :
    Yields (enumDeclaration rules isConst) fun declaration =>
      declaration.members.length ≤ rules.fuel := by
  refine .bind fun _ => .bind fun _ => .bind fun _ => ?_
  exact .bind_of (.withReader .length_repeatUntil) fun members hmembers =>
    .bind fun _ => .pure hmembers

end Enums

end Parser

open TypeScript.Parser

/-- The rules of every level keep numbers unsigned, by those of the level below. -/
theorem Rules.yields_operands (depth : Nat) :
    Yields (ofDepth depth).assignment Operand.IsUnsigned ∧
      Yields (ofDepth depth).leftHand Operand.IsUnsigned := by
  induction depth with
  | zero => exact ⟨.fail, .fail⟩
  | succ depth ih =>
    exact ⟨Parser.yields_assignment ih.2, Parser.yields_leftHand ih.1⟩

theorem Rules.fuel_ofDepth (depth : Nat) : (ofDepth depth).fuel = depth := by
  cases depth <;> rfl

section Sources

variable {markup : Bool} {source : List Char} {items : List Item}

theorem unsignedValues_of_parse (h : parse markup source = .ok items) :
    ∀ item ∈ items, item.Holds EnumDeclaration.HasUnsignedValues :=
  holds_of_parse
    (fun level _ isConst => yields_unsignedValues (Rules.yields_operands level).1 isConst) h

/-- How many members an enum of a source can have is linear in the length of the source. -/
theorem membersWithin_of_parse (h : parse markup source = .ok items) :
    ∀ item ∈ items, item.Holds fun declaration =>
      declaration.members.length < Rules.depthFor source.length := by
  refine holds_of_parse (fun level hlevel isConst => ?_) h
  intro context state declaration after hrun
  have hlength := yields_membersWithin isConst context state declaration after hrun
  rw [Rules.fuel_ofDepth] at hlength
  exact Nat.lt_of_le_of_lt hlength hlevel

end Sources

end EnumInline.TypeScript
