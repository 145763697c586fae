import FixedWidth.Proofs.Grammar
import FixedWidth.Scenario

/-!
# Rendered expressions

A scenario is rendered in one of three layouts, by the number of its operands, and behind an arrow
if it has a destination. The text tells all of this: its first mark, that is its first character
that is neither a letter nor a digit, is another one in each case (`mark?_expression`,
`mark?_describe`).

Once the layout is known, the text falls into its parts at characters that no part contains. One
lemma serves all of these cuts, as the part in front of a cut has no character of some class and
what comes behind it begins with one (`Text.append_inj_of_boundary`). Only the symbol of subtraction
is that of negation, too, so an expression that shows a symbol tells its operator up to these two.

> `describe_identifies`
-/

namespace FixedWidth

namespace Text

/-- Before a character of a class, and at the end, stops what has none of the class. -/
theorem takeWhile_append_of_boundary {p : Char → Bool} {front back : List Char}
    (hfront : ∀ c ∈ front, p c = false) (hback : ∀ c ∈ back.head?, p c = true) :
    (front ++ back).takeWhile (fun c => !p c) = front := by
  have hstop : back.takeWhile (fun c => !p c) = [] := by
    cases back with
    | nil => rfl
    | cons c rest => rw [List.takeWhile_cons_of_neg (by simp [hback c rfl])]
  rw [List.takeWhile_append_of_pos (by simpa using hfront), hstop, List.append_nil]

/-- A text is cut in one way only before the first character of a class. -/
theorem append_inj_of_boundary (p : Char → Bool) {front front' back back' : List Char}
    (hfront : ∀ c ∈ front, p c = false) (hfront' : ∀ c ∈ front', p c = false)
    (hback : ∀ c ∈ back.head?, p c = true) (hback' : ∀ c ∈ back'.head?, p c = true)
    (h : front ++ back = front' ++ back') : front = front' ∧ back = back' := by
  have heq : front = front' := by
    rw [← takeWhile_append_of_boundary hfront hback, h,
      takeWhile_append_of_boundary hfront' hback']
  subst heq
  exact ⟨rfl, List.append_cancel_left h⟩

/-- A text is cut in one way only at the first place of a character. -/
theorem append_cons_inj {c : Char} {front front' back back' : List Char} (hfront : c ∉ front)
    (hfront' : c ∉ front') (h : front ++ c :: back = front' ++ c :: back') :
    front = front' ∧ back = back' := by
  have hnone : ∀ text : List Char, c ∉ text → ∀ d ∈ text, decide (d = c) = false := by
    intro text hc d hd
    refine decide_eq_false ?_
    rintro rfl
    exact hc hd
  have hhead : ∀ (text : List Char), ∀ d ∈ (c :: text).head?, decide (d = c) = true := by
    intro text d hd
    exact decide_eq_true (Option.some.inj hd).symm
  obtain ⟨heq, hcons⟩ := append_inj_of_boundary (fun d => decide (d = c)) (hnone front hfront)
    (hnone front' hfront') (hhead back) (hhead back') h
  exact ⟨heq, (List.cons.inj hcons).2⟩

/-- A text is cut in one way only at the last place of a character. -/
theorem append_cons_inj_last {c : Char} {front front' back back' : List Char} (hback : c ∉ back)
    (hback' : c ∉ back') (h : front ++ c :: back = front' ++ c :: back') :
    front = front' ∧ back = back' := by
  have hreverse : back.reverse ++ c :: front.reverse = back'.reverse ++ c :: front'.reverse := by
    simpa using congrArg List.reverse h
  obtain ⟨heq, hfront⟩ := append_cons_inj (by simpa using hback) (by simpa using hback') hreverse
  exact ⟨List.reverse_inj.mp hfront, List.reverse_inj.mp heq⟩

/-- Whether a character is neither a letter nor a digit. -/
def isMark (c : Char) : Bool := !c.isAlphanum

/-- The first mark of a text. -/
def mark? (text : List Char) : Option Char := text.find? isMark

/-- Behind a word the first mark is the one that ends it. -/
theorem mark?_append {word : List Char} (h : ∀ c ∈ word, isMark c = false) {c : Char}
    (hc : isMark c = true) (rest : List Char) : mark? (word ++ c :: rest) = some c := by
  unfold mark?
  rw [List.find?_append, List.find?_eq_none.mpr (by simpa using h), Option.none_or,
    List.find?_cons_of_pos hc]

end Text

/-! ## The parts of an expression -/

/-- The name of a type is a word. -/
theorem IntType.isMark_of_mem_name {t : IntType} :
    ∀ c ∈ t.name.toList, Text.isMark c = false := by
  have hall : t.name.toList.all (fun c => !Text.isMark c) = true := by cases t <;> decide
  simpa using hall

namespace Operator

theorem isMark_of_mem_name {op : Operator} : ∀ c ∈ op.name.toList, Text.isMark c = false := by
  have hall : op.name.toList.all (fun c => !Text.isMark c) = true := by cases op <;> decide
  simpa using hall

/-- A symbol is nothing but marks. -/
theorem isMark_of_mem_symbol {op : Operator} : ∀ c ∈ op.symbol.toList, Text.isMark c = true := by
  have hall : op.symbol.toList.all Text.isMark = true := by cases op <;> decide
  exact List.all_eq_true.mp hall

theorem not_mem_symbol {op : Operator} : ' ' ∉ op.symbol.toList := by
  cases op <;> decide

/-- Two operators have one symbol only if they are subtraction and negation. -/
theorem symbol_eq_iff {op op' : Operator} :
    op.symbol = op'.symbol ↔ op = op' ∨ op = .sub ∧ op' = .neg ∨ op = .neg ∧ op' = .sub := by
  cases op <;> cases op' <;> decide

end Operator

namespace Value

/-- The marks of a literal are its colon and its minus sign. -/
theorem mem_literal {v : Value} {c : Char} (hc : c ∈ v.literal.toList) :
    Text.isMark c = false ∨ c = ':' ∨ c = '-' := by
  have hdigits : ('-' :: (Numeral.lowerDigits ++ Numeral.upperDigits)).all
      (fun c => Text.isMark c = false ∨ c = '-') = true := by decide
  rw [Literal.toList_literal, List.mem_append, List.mem_cons] at hc
  rcases hc with hname | rfl | hdecimal
  · exact .inl (IntType.isMark_of_mem_name c hname)
  · exact .inr (.inl rfl)
  · have hdigit := List.all_eq_true.mp hdigits c (Numeral.mem_of_mem_signedDecimal hdecimal)
    exact (of_decide_eq_true hdigit).imp_right .inr

/-- A literal has neither blank nor comma in it, and is cut off by either. -/
theorem ne_of_mem_literal {v : Value} {c : Char} (hc : c ∈ v.literal.toList) :
    c ≠ ' ' ∧ c ≠ ',' := by
  rcases mem_literal hc with hword | rfl | rfl
  · refine ⟨?_, ?_⟩
    · rintro rfl
      exact absurd hword (by decide)
    · rintro rfl
      exact absurd hword (by decide)
  · decide
  · decide

/-- A literal begins with the name of its type, and so with a letter. -/
theorem isMark_head_literal (v : Value) : ∀ c ∈ v.literal.toList.head?, Text.isMark c = false := by
  have hhead : ∃ c ∈ v.type.name.toList, v.literal.toList.head? = some c := by
    rw [Literal.toList_literal]
    cases v.type <;> exact ⟨_, List.mem_cons_self .., rfl⟩
  obtain ⟨d, hd, hhead⟩ := hhead
  intro c hc
  rw [hhead, Option.mem_some_iff] at hc
  exact hc ▸ IntType.isMark_of_mem_name d hd

end Value

/-! ## Lists of operands -/

namespace Scenario

/-- Literals that follow another one in a list. -/
def followers (operands : List Value) : List Char :=
  operands.flatMap fun v => ',' :: ' ' :: v.literal.toList

theorem toList_intercalate (v : Value) (rest : List Value) :
    (", ".intercalate ((v :: rest).map Value.literal)).toList =
      v.literal.toList ++ followers rest := by
  induction rest generalizing v with
  | nil => exact (List.append_nil _).symm
  | cons w rest ih =>
    rw [List.map_cons, List.map_cons, String.intercalate_cons_cons, String.toList_append,
      String.toList_append, ← List.map_cons, ih, List.append_assoc]
    rfl

theorem head_followers (operands : List Value) :
    ∀ c ∈ (followers operands).head?, decide (c = ',') = true := by
  intro c hc
  cases operands with
  | nil => cases hc
  | cons v rest => simpa [followers, eq_comm] using hc

/-- A literal ends where a comma stands, or at the end. -/
theorem literal_followers_injective {v w : Value} {rest rest' : List Value}
    (h : v.literal.toList ++ followers rest = w.literal.toList ++ followers rest') :
    v = w ∧ followers rest = followers rest' := by
  have hcomma : ∀ u : Value, ∀ c ∈ u.literal.toList, decide (c = ',') = false :=
    fun _ _ hc => decide_eq_false (Value.ne_of_mem_literal hc).2
  obtain ⟨hliteral, hrest⟩ := Text.append_inj_of_boundary (fun c => decide (c = ','))
    (hcomma v) (hcomma w) (head_followers rest) (head_followers rest') h
  exact ⟨Value.literal_injective (String.toList_inj.mp hliteral), hrest⟩

/-- The operands that follow are told one by one, by induction on them. -/
theorem followers_injective {operands operands' : List Value}
    (h : followers operands = followers operands') : operands = operands' := by
  induction operands generalizing operands' with
  | nil =>
    cases operands' with
    | nil => rfl
    | cons w rest' => cases h
  | cons v rest ih =>
    cases operands' with
    | nil => cases h
    | cons w rest' =>
      have htail := List.cons.inj (List.cons.inj h).2
      obtain ⟨rfl, hrest⟩ := literal_followers_injective htail.2
      rw [ih hrest]

/-- Listed operands are told by the list, an empty one by its having no literal. -/
theorem intercalate_injective {operands operands' : List Value}
    (h : ", ".intercalate (operands.map Value.literal) =
      ", ".intercalate (operands'.map Value.literal)) : operands = operands' := by
  -- No literal is empty, so the empty list is the only one that shows nothing.
  have hempty : ∀ (v : Value) (rest : List Value), v.literal.toList ++ followers rest ≠ [] := by
    intro v rest hnil
    rw [Literal.toList_literal, List.append_assoc] at hnil
    exact List.cons_ne_nil _ _ (List.append_eq_nil_iff.mp hnil).2
  rw [← String.toList_inj] at h
  cases operands with
  | nil =>
    cases operands' with
    | nil => rfl
    | cons w rest' =>
      rw [toList_intercalate] at h
      exact absurd h.symm (hempty w rest')
  | cons v rest =>
    cases operands' with
    | nil =>
      rw [toList_intercalate] at h
      exact absurd h (hempty v rest)
    | cons w rest' =>
      rw [toList_intercalate, toList_intercalate] at h
      obtain ⟨rfl, hrest⟩ := literal_followers_injective h
      rw [followers_injective hrest]

/-! ## Layouts -/

/-- How an expression shows its operator: by a symbol in front or in between, or by its name. -/
inductive Layout where
  | leading
  | between
  | call
  deriving DecidableEq

namespace Layout

/-- The layout of an expression with some operands. -/
def ofOperands : List Value → Layout
  | [_] => leading
  | [_, _] => between
  | _ => call

/-- The layout of an expression with some first mark. -/
def ofMark : Char → Layout
  | ':' => between
  | '(' => call
  | _ => leading

variable {operands : List Value}

/-- A symbol stands in front only of a single operand. -/
theorem exists_of_leading (h : ofOperands operands = leading) : ∃ v, operands = [v] := by
  unfold ofOperands at h
  split at h
  next v => exact ⟨v, rfl⟩
  next => cases h
  next => cases h

theorem exists_of_between (h : ofOperands operands = between) : ∃ v w, operands = [v, w] := by
  unfold ofOperands at h
  split at h
  next => cases h
  next v w => exact ⟨v, w, rfl⟩
  next => cases h

/-- An expression shows a symbol exactly where there are one or two operands. -/
theorem ne_call_iff :
    ofOperands operands ≠ call ↔ operands.length = 1 ∨ operands.length = 2 := by
  unfold ofOperands
  split
  next => simp
  next => simp
  next hone htwo =>
    refine iff_of_false (fun h => h rfl) ?_
    rintro (h | h)
    · obtain ⟨v, rfl⟩ := List.length_eq_one_iff.mp h
      exact hone v rfl
    · obtain ⟨v, w, rfl⟩ := List.length_eq_two.mp h
      exact htwo v w rfl

end Layout

variable {op op' : Operator} {operands operands' : List Value}

theorem toList_leading (op : Operator) (v : Value) :
    (expression op [v]).toList = op.symbol.toList ++ v.literal.toList :=
  String.toList_append

theorem toList_between (op : Operator) (v w : Value) :
    (expression op [v, w]).toList =
      v.literal.toList ++ ' ' :: (op.symbol.toList ++ ' ' :: w.literal.toList) := by
  unfold expression
  simp only [String.toList_append, List.append_assoc]
  rfl

theorem toList_call (h : Layout.ofOperands operands = .call) (op : Operator) :
    (expression op operands).toList = op.name.toList ++
      '(' :: ((", ".intercalate (operands.map Value.literal)).toList ++ [')']) := by
  unfold Layout.ofOperands at h
  unfold expression
  split at h
  next => cases h
  next => cases h
  next =>
    simp only [String.toList_append, List.append_assoc]
    rfl

/-- The first mark of an expression tells its layout, and is no blank. -/
theorem mark?_expression (op : Operator) (operands : List Value) :
    ∃ c, Text.mark? (expression op operands).toList = some c ∧ c ≠ ' ' ∧
      Layout.ofMark c = Layout.ofOperands operands := by
  cases h : Layout.ofOperands operands with
  | leading =>
    obtain ⟨v, rfl⟩ := Layout.exists_of_leading h
    rw [toList_leading]
    cases op <;> exact ⟨_, rfl, by decide, rfl⟩
  | between =>
    obtain ⟨v, w, rfl⟩ := Layout.exists_of_between h
    rw [toList_between, Literal.toList_literal, List.append_assoc, List.cons_append]
    exact ⟨':', Text.mark?_append IntType.isMark_of_mem_name (by decide) _, by decide, rfl⟩
  | call =>
    rw [toList_call h]
    exact ⟨'(', Text.mark?_append Operator.isMark_of_mem_name (by decide) _, by decide, rfl⟩

/-- Equal expressions have one layout, as it is told by their first mark. -/
theorem layout_eq (h : expression op operands = expression op' operands') :
    Layout.ofOperands operands = Layout.ofOperands operands' := by
  obtain ⟨c, hc, -, hlayout⟩ := mark?_expression op operands
  obtain ⟨c', hc', -, hlayout'⟩ := mark?_expression op' operands'
  rw [h, hc'] at hc
  rw [← hlayout, ← hlayout', Option.some.inj hc]

/-- A symbol in front ends where the letters of the literal begin. -/
theorem leading_injective {v v' : Value} (h : expression op [v] = expression op' [v']) :
    op.symbol = op'.symbol ∧ v = v' := by
  rw [← String.toList_inj, toList_leading, toList_leading] at h
  have hsymbol : ∀ op : Operator, ∀ c ∈ op.symbol.toList, (!Text.isMark c) = false := by
    intro op c hc
    rw [Operator.isMark_of_mem_symbol c hc]
    rfl
  have hhead : ∀ v : Value, ∀ c ∈ v.literal.toList.head?, (!Text.isMark c) = true := by
    intro v c hc
    rw [v.isMark_head_literal c hc]
    rfl
  obtain ⟨hop, hv⟩ := Text.append_inj_of_boundary (fun c => !Text.isMark c)
    (hsymbol op) (hsymbol op') (hhead v) (hhead v') h
  exact ⟨String.toList_inj.mp hop, Value.literal_injective (String.toList_inj.mp hv)⟩

/-- A symbol in between stands between the only two blanks. -/
theorem between_injective {v w v' w' : Value}
    (h : expression op [v, w] = expression op' [v', w']) :
    op.symbol = op'.symbol ∧ v = v' ∧ w = w' := by
  rw [← String.toList_inj, toList_between, toList_between] at h
  have hliteral : ∀ u : Value, ' ' ∉ u.literal.toList :=
    fun _ hc => (Value.ne_of_mem_literal hc).1 rfl
  obtain ⟨hv, hrest⟩ := Text.append_cons_inj (hliteral v) (hliteral v') h
  obtain ⟨hop, hw⟩ := Text.append_cons_inj Operator.not_mem_symbol Operator.not_mem_symbol hrest
  exact ⟨String.toList_inj.mp hop, Value.literal_injective (String.toList_inj.mp hv),
    Value.literal_injective (String.toList_inj.mp hw)⟩

/-- A name ends at the bracket, and the list at the last character. -/
theorem call_injective (hcall : Layout.ofOperands operands = .call)
    (hcall' : Layout.ofOperands operands' = .call)
    (h : expression op operands = expression op' operands') : op = op' ∧ operands = operands' := by
  rw [← String.toList_inj, toList_call hcall, toList_call hcall'] at h
  have hname : ∀ op : Operator, '(' ∉ op.name.toList :=
    fun _ hc => absurd (Operator.isMark_of_mem_name _ hc) (by decide)
  obtain ⟨hop, hrest⟩ := Text.append_cons_inj (hname op) (hname op') h
  have hlist := String.toList_inj.mp (List.append_cancel_right hrest)
  exact ⟨Operator.name_injective (String.toList_inj.mp hop), intercalate_injective hlist⟩

/-- An expression tells its operands, and its operator where a name or no other symbol shows it. -/
theorem expression_eq_iff :
    expression op operands = expression op' operands' ↔
      operands = operands' ∧
        (op = op' ∨ (op = .sub ∧ op' = .neg ∨ op = .neg ∧ op' = .sub) ∧
          Layout.ofOperands operands ≠ .call) := by
  constructor
  · intro h
    -- Equal texts have one layout, so a split of one side serves the other, too.
    have hlayout := layout_eq h
    cases hoperands : Layout.ofOperands operands with
    | leading =>
      obtain ⟨v, rfl⟩ := Layout.exists_of_leading hoperands
      obtain ⟨v', rfl⟩ := Layout.exists_of_leading (hlayout.symm.trans hoperands)
      obtain ⟨hop, rfl⟩ := leading_injective h
      exact ⟨rfl, (Operator.symbol_eq_iff.mp hop).imp_right fun hshared => ⟨hshared, nofun⟩⟩
    | between =>
      obtain ⟨v, w, rfl⟩ := Layout.exists_of_between hoperands
      obtain ⟨v', w', rfl⟩ := Layout.exists_of_between (hlayout.symm.trans hoperands)
      obtain ⟨hop, rfl, rfl⟩ := between_injective h
      exact ⟨rfl, (Operator.symbol_eq_iff.mp hop).imp_right fun hshared => ⟨hshared, nofun⟩⟩
    | call =>
      obtain ⟨rfl, rfl⟩ := call_injective hoperands (hlayout.symm.trans hoperands) h
      exact ⟨rfl, .inl rfl⟩
  · rintro ⟨rfl, rfl | ⟨hshared, hcall⟩⟩
    · rfl
    · have hsymbol : op.symbol = op'.symbol := Operator.symbol_eq_iff.mpr (.inr hshared)
      cases hoperands : Layout.ofOperands operands with
      | leading =>
        obtain ⟨v, rfl⟩ := Layout.exists_of_leading hoperands
        rw [← String.toList_inj, toList_leading, toList_leading, hsymbol]
      | between =>
        obtain ⟨v, w, rfl⟩ := Layout.exists_of_between hoperands
        rw [← String.toList_inj, toList_between, toList_between, hsymbol]
      | call => exact absurd hoperands hcall

/-! ## Destinations -/

variable {s s' : Scenario}

theorem toList_arrow (target : IntType) (text : String) :
    (target.name ++ " <- " ++ text).toList =
      target.name.toList ++ ' ' :: ('<' :: '-' :: ' ' :: text.toList) := by
  rw [String.toList_append, String.toList_append, List.append_assoc]
  rfl

theorem describe_of_none (h : s.assign = none) : s.describe = expression s.op s.operands := by
  unfold describe
  rw [h]

theorem describe_of_some {target : IntType} (h : s.assign = some target) :
    s.describe = target.name ++ " <- " ++ expression s.op s.operands := by
  unfold describe
  rw [h]

/-- A blank is the first mark of no expression, so it tells that there is a destination. -/
theorem mark?_describe (s : Scenario) :
    Text.mark? s.describe.toList = some ' ' ↔ s.assign.isSome = true := by
  cases h : s.assign with
  | none =>
    obtain ⟨c, hc, hblank, -⟩ := mark?_expression s.op s.operands
    rw [describe_of_none h, hc, Option.some.injEq]
    exact iff_of_false hblank nofun
  | some target =>
    rw [describe_of_some h, toList_arrow]
    exact iff_of_true (Text.mark?_append IntType.isMark_of_mem_name (by decide) _) rfl

/-- A destination and what is behind the arrow are told apart by the blank in front of it. -/
theorem arrow_injective {target target' : IntType} {text text' : String}
    (h : target.name ++ " <- " ++ text = target'.name ++ " <- " ++ text') :
    target = target' ∧ text = text' := by
  have hname : ∀ t : IntType, ' ' ∉ t.name.toList :=
    fun _ hc => absurd (IntType.isMark_of_mem_name _ hc) (by decide)
  rw [← String.toList_inj, toList_arrow, toList_arrow] at h
  obtain ⟨htarget, hrest⟩ := Text.append_cons_inj (hname target) (hname target') h
  have htext := (List.cons.inj (List.cons.inj (List.cons.inj hrest).2).2).2
  exact ⟨IntType.name_injective (String.toList_inj.mp htarget), String.toList_inj.mp htext⟩

/-- The text about a scenario tells whether it has a destination and which, and the expression. -/
theorem describe_eq_iff_expression :
    s.describe = s'.describe ↔ s.assign = s'.assign ∧
      expression s.op s.operands = expression s'.op s'.operands := by
  constructor
  · intro h
    -- The first mark of the text is a blank exactly behind a destination.
    have hsome : s.assign.isSome = true ↔ s'.assign.isSome = true := by
      rw [← mark?_describe, ← mark?_describe, h]
    cases hs : s.assign with
    | none =>
      cases hs' : s'.assign with
      | none =>
        rw [describe_of_none hs, describe_of_none hs'] at h
        exact ⟨rfl, h⟩
      | some target' =>
        rw [hs, hs'] at hsome
        exact absurd (hsome.mpr rfl) nofun
    | some target =>
      cases hs' : s'.assign with
      | none =>
        rw [hs, hs'] at hsome
        exact absurd (hsome.mp rfl) nofun
      | some target' =>
        rw [describe_of_some hs, describe_of_some hs'] at h
        obtain ⟨rfl, hexpression⟩ := arrow_injective h
        exact ⟨rfl, hexpression⟩
  · rintro ⟨hassign, hexpression⟩
    unfold describe
    rw [hassign, hexpression]

/-- **A rendered scenario tells its destination, its operands and its operator,** but for
subtraction and negation where a symbol stands for either. An operator with the number of operands
that it takes is always told. -/
theorem describe_identifies (s s' : Scenario) :
    (s.describe = s'.describe ↔
      s.assign = s'.assign ∧ s.operands = s'.operands ∧
        (s.op = s'.op ∨ (s.op = .sub ∧ s'.op = .neg ∨ s.op = .neg ∧ s'.op = .sub) ∧
          (s.operands.length = 1 ∨ s.operands.length = 2))) ∧
    (s.operands.length = s.op.arity → s'.operands.length = s'.op.arity →
      s.describe = s'.describe →
        s.op = s'.op ∧ s.operands = s'.operands ∧ s.assign = s'.assign) := by
  have hiff : s.describe = s'.describe ↔
      s.assign = s'.assign ∧ s.operands = s'.operands ∧
        (s.op = s'.op ∨ (s.op = .sub ∧ s'.op = .neg ∨ s.op = .neg ∧ s'.op = .sub) ∧
          (s.operands.length = 1 ∨ s.operands.length = 2)) := by
    rw [describe_eq_iff_expression, expression_eq_iff, Layout.ne_call_iff]
  refine ⟨hiff, ?_⟩
  intro harity harity' h
  obtain ⟨hassign, hoperands, hop⟩ := hiff.mp h
  refine ⟨?_, hoperands, hassign⟩
  rcases hop with hop | ⟨hshared, -⟩
  · exact hop
  · -- Subtraction and negation do not take the same number of operands.
    rw [← hoperands, harity] at harity'
    rcases hshared with ⟨hop, hop'⟩ | ⟨hop, hop'⟩
    · rw [hop, hop'] at harity'
      exact absurd harity' (by decide)
    · rw [hop, hop'] at harity'
      exact absurd harity' (by decide)

/-- A difference that is rendered alike in two scenarios, a negation of two operands that is
rendered like it, and the same two operators beside three operands, where their names are shown. -/
theorem describe_identifies_difference :
    (([⟨.i32, 1⟩, ⟨.i32, 0xffffffff⟩] : List Value).length = Operator.arity .sub ∧
      describe ⟨"a", "x", .sub, [⟨.i32, 1⟩, ⟨.i32, 0xffffffff⟩], some .i64, .value ⟨.i64, 2⟩⟩ =
        describe ⟨"b", "", .sub, [⟨.i32, 1⟩, ⟨.i32, 0xffffffff⟩], some .i64,
          .error .arityMismatch⟩ ∧
      Operator.sub = .sub ∧
      ([⟨.i32, 1⟩, ⟨.i32, 0xffffffff⟩] : List Value) = [⟨.i32, 1⟩, ⟨.i32, 0xffffffff⟩] ∧
      some IntType.i64 = some .i64) ∧
    describe ⟨"a", "x", .neg, [⟨.i32, 1⟩, ⟨.i32, 0xffffffff⟩], none, .value ⟨.i32, 2⟩⟩ =
      describe ⟨"a", "x", .sub, [⟨.i32, 1⟩, ⟨.i32, 0xffffffff⟩], none, .value ⟨.i32, 2⟩⟩ ∧
    describe ⟨"a", "x", .neg, [⟨.i32, 1⟩, ⟨.i32, 2⟩, ⟨.i32, 3⟩], none, .value ⟨.i32, 2⟩⟩ ≠
      describe ⟨"a", "x", .sub, [⟨.i32, 1⟩, ⟨.i32, 2⟩, ⟨.i32, 3⟩], none, .value ⟨.i32, 2⟩⟩ :=
  ⟨⟨rfl, rfl, (describe_identifies
      ⟨"a", "x", .sub, [⟨.i32, 1⟩, ⟨.i32, 0xffffffff⟩], some .i64, .value ⟨.i64, 2⟩⟩
      ⟨"b", "", .sub, [⟨.i32, 1⟩, ⟨.i32, 0xffffffff⟩], some .i64, .error .arityMismatch⟩).2
        rfl rfl rfl⟩,
    (describe_identifies _ _).1.mpr (by decide), mt (describe_identifies _ _).1.mp (by decide)⟩

end Scenario

end FixedWidth
