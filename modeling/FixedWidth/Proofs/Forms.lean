import FixedWidth.Proofs.RoundTrip
import FixedWidth.Proofs.Shapes
import FixedWidth.Proofs.Spelling
import Mathlib.Data.List.ReduceOption

/-!
# What a matrix means does not depend on how it is written

A scenario may be written as an object of its fields in any order or as an array of them, with the
fields left out whose absence means the same, with fields that nobody knows in between, and with
names as texts or as keys. `Scenario.Spelling` and `Matrix.Spelling` say which tokens these are, as
`Spells` says which texts have the tokens.

- `SpellsField.reads`: each field is read as the scenario has it, in whatever form it is written;
- `Draft.readsMembers`: the members of an object fill in a draft one after another, and a field that
  is not known takes its own value away and changes nothing;
- `spelling_print`: what is printed is one of the spellings, so every matrix has one.

> `read_of_spelling`: every spelling of a scenario is read as the scenario, and every spelling of a
> matrix as the matrix.
-/

namespace FixedWidth

open Json

/-! ## Parts of a scenario -/

/-- Whether tokens write a name: a text, or an object with the name as its key and `null` in it. -/
inductive SpellsName (name : String) : List Token → Prop where
  | text : SpellsName name (Layout.text name)
  | object : SpellsName name (Layout.object [Layout.member name [.null]])

/-- Whether tokens write the type of a destination, or that there is none. -/
inductive SpellsDestination : Option IntType → List Token → Prop where
  | absent : SpellsDestination none [.null]
  | present {type : IntType} {written : List Token} (h : SpellsName type.name written) :
    SpellsDestination (some type) written

/-- Whether tokens write a value: a text that is a literal of it. -/
def SpellsLiteral (written : List Token) (v : Value) : Prop :=
  ∃ literal, written = Layout.text literal ∧ Literal.IsLiteral literal v

/-- Whether tokens are a member that says nothing in an object that knows some keys. -/
def IsUnknown (use : Use) (depth : Nat) (keys : List String) (written : List Token) : Prop :=
  ∃ key value, written = Layout.member key value ∧ key ∉ keys ∧ IsValue use depth value

/-- Whether tokens write an expectation: a literal, or an object that names a kind of errors. Other
members of that object are kept for a while, so there are bounds to their values. -/
inductive SpellsExpectation : Expectation → List Token → Prop where
  | value {v : Value} {written : List Token} (h : SpellsLiteral written v) :
    SpellsExpectation (.value v) written
  | error {kind : ErrorKind} {name : List Token} {before after : List (List Token)}
    (hname : SpellsName kind.name name) (hbefore : ∀ m ∈ before, IsUnknown .kept 99 ["error"] m)
    (hafter : ∀ m ∈ after, IsUnknown .kept 99 ["error"] m) :
    SpellsExpectation (.error kind) (Layout.object (before ++ Layout.member "error" name :: after))

namespace Scenario

/-- Whether tokens write what a scenario has in a field. -/
def SpellsField (s : Scenario) : Field → List Token → Prop
  | .name, written => written = Layout.text s.name
  | .group, written => written = Layout.text s.group
  | .op, written => SpellsName s.op.name written
  | .operands, written =>
    ∃ items, written = Layout.array items ∧ List.Forall₂ SpellsLiteral items s.operands
  | .assign, written => SpellsDestination s.assign written
  | .expect, written => SpellsExpectation s.expect written

/-- Whether tokens are a member of an object that is the scenario: one of its fields, or a member
under another key. -/
inductive SpellsMember (s : Scenario) : Option Field → List Token → Prop where
  | field {field : Field} {written : List Token} (h : s.SpellsField field written) :
    SpellsMember s (some field) (Layout.member field.key written)
  | unknown {depth : Nat} {written : List Token}
    (h : IsUnknown .skipped depth (Field.all.map Field.key) written) : SpellsMember s none written

/-- Whether the scenario is the same without a field. -/
def MayOmit (s : Scenario) : Field → Prop
  | .group => s.group = ""
  | .assign => s.assign = none
  | .name | .op | .operands | .expect => False

/-- Whether tokens write the scenario. -/
inductive Spelling (s : Scenario) : List Token → Prop where
  /-- An object of the fields, in any order and each of them once. -/
  | object {fields : List (Option Field)} {members : List (List Token)}
    (h : List.Forall₂ s.SpellsMember fields members) (hnodup : fields.reduceOption.Nodup)
    (hall : ∀ field, some field ∈ fields ∨ s.MayOmit field) : Spelling s (Layout.object members)
  /-- An array of all fields in their order. -/
  | array {name group op operands assign expect : List Token} (hname : s.SpellsField .name name)
    (hgroup : s.SpellsField .group group) (hop : s.SpellsField .op op)
    (hoperands : s.SpellsField .operands operands) (hassign : s.SpellsField .assign assign)
    (hexpect : s.SpellsField .expect expect) :
    Spelling s (Layout.array [name, group, op, operands, assign, expect])

end Scenario

/-- Whether tokens write the matrix. -/
inductive Matrix.Spelling (m : Matrix) : List Token → Prop where
  | object {items before after : List (List Token)}
    (h : List.Forall₂ (fun written s => Scenario.Spelling s written) items m.scenarios)
    (hbefore : ∀ x ∈ before, ∃ depth, IsUnknown .skipped depth [scenariosKey] x)
    (hafter : ∀ x ∈ after, ∃ depth, IsUnknown .skipped depth [scenariosKey] x) :
    Spelling m
      (Layout.object (before ++ Layout.member scenariosKey (Layout.array items) :: after))
  | array {items : List (List Token)}
    (h : List.Forall₂ (fun written s => Scenario.Spelling s written) items m.scenarios) :
    Spelling m (Layout.array [Layout.array items])

/-! ## Reading the parts -/

/-- A text is read as the value that its tokens are read as, however they are spelled. -/
theorem Json.Reader.read_of_spells {α : Type} {value : Reader α} {written : List Token} {x : α}
    {text : String} (h : Reads value written x) (hspells : Spells written text.toList) :
    value.read text = .ok x := by
  have hvalue := h []
  rw [List.append_nil] at hvalue
  unfold Reader.read Reader.document
  rw [Lexer.tokens_of_spells hspells, hvalue]

/-- A name is read in either form. -/
theorem SpellsName.reads {α : Type} {names : List String} {ofName? : String → Option α}
    {name : String} {x : α} {written : List Token} (h : SpellsName name written)
    (hname : ofName? name = some x) : Reads (Reader.choice names ofName?) written x := by
  cases h with
  | text => exact Reads.choice hname
  | object =>
    have hunit : Reads Reader.unit [.null] () := by
      intro rest
      rfl
    have hvalue : Reads (do
        let x ← Reader.named names ofName? name
        Reader.expect .colon
        Reader.unit
        Reader.expect .closeCurly
        pure x) [.colon, .null, .closeCurly] x :=
      (Reads.named hname).bind
        ((Reads.expect .colon).bind (hunit.bind (Reads.closing .closeCurly x)))
    exact .mark (fun _ => rfl) ((Reads.key .kept name).bind hvalue)

/-- A name stands where `null` may stand, as it does not begin like `null`. -/
theorem SpellsName.reads_optional {α : Type} {reader : Reader α} {name : String} {x : α}
    {written : List Token} (h : SpellsName name written) (hreads : Reads reader written x) :
    Reads (Reader.optional reader) written (some x) := by
  cases h with
  | text => exact hreads.map some
  | object => exact hreads.map some

/-- Every form of a destination is read as it, `null` as none. -/
theorem SpellsDestination.reads {assign : Option IntType} {written : List Token}
    (h : SpellsDestination assign written) :
    Reads (Reader.optional IntType.reader) written assign := by
  cases h with
  | absent =>
    intro rest
    rfl
  | present h => exact h.reads_optional (h.reads (IntType.ofName?_name _))

/-- Every form of a value is read as the value. -/
theorem SpellsLiteral.reads {written : List Token} {v : Value} (h : SpellsLiteral written v) :
    Reads Value.reader written v := by
  obtain ⟨literal, rfl, hliteral⟩ := h
  exact Value.reads_text (Literal.read_of_isLiteral hliteral)

theorem SpellsLiteral.beginsElement {written : List Token} {v : Value}
    (h : SpellsLiteral written v) : Reads.BeginsElement written := by
  obtain ⟨literal, rfl, -⟩ := h
  exact ⟨.text (some literal), [], rfl, by simp, by simp⟩

/-! ## Reading an expectation -/

/-- Members that say nothing are kept under keys that are not asked for. -/
theorem exists_reads_unknown {depth room : Nat} {keys : List String} (hroom : depth ≤ room)
    {written : List (List Token)} (h : ∀ m ∈ written, IsUnknown .kept depth keys m) :
    ∃ members : List (String × Tree), (∀ m ∈ members, m.1 ∉ keys) ∧
      List.Forall₂ (fun tokens member => ∃ value, tokens = Layout.member member.1 value ∧
        Reads (Tree.reader .kept room) value member.2) written members := by
  induction written with
  | nil => exact ⟨[], List.forall_mem_nil _, .nil⟩
  | cons m written ih =>
    obtain ⟨hm, hwritten⟩ := List.forall_mem_cons.mp h
    obtain ⟨key, value, rfl, hkey, hvalue⟩ := hm
    obtain ⟨tree, htree⟩ := Tree.exists_reads (hvalue.resize (.inl hroom))
    obtain ⟨members, hkeys, hmembers⟩ := ih hwritten
    exact ⟨(key, tree) :: members, List.forall_mem_cons.mpr ⟨hkey, hkeys⟩,
      .cons ⟨value, rfl, htree⟩ hmembers⟩

/-- The kind of errors stands inside an expectation, which is kept as a whole; either form of its
name gives a JSON value that names it. -/
theorem SpellsName.exists_reads_kind {kind : ErrorKind} {written : List Token}
    (h : SpellsName kind.name written) (room : Nat) :
    ∃ tree, Reads (Tree.reader .kept (room + 1)) written tree ∧
      ErrorKind.ofTree? tree = some kind := by
  cases h with
  | text => exact ⟨_, Tree.reads_text .kept _ kind.name, ErrorKind.ofName?_name kind⟩
  | object =>
    have hnull : Reads (Tree.reader .kept room) [.null] .null := by
      intro rest
      cases room <;> rfl
    exact ⟨.object [(kind.name, .null)], Tree.reads_object (.cons ⟨[.null], rfl, hnull⟩ .nil),
      ErrorKind.ofName?_name kind⟩

/-- Of members with other keys around it, a member is the only one under its key. -/
theorem filter_key {front back : List (String × Tree)} {key : String} (tree : Tree)
    (hfront : ∀ m ∈ front, m.1 ∉ [key]) (hback : ∀ m ∈ back, m.1 ∉ [key]) :
    (front ++ (key, tree) :: back).filter (·.1 = key) = [(key, tree)] := by
  have hnone : ∀ members : List (String × Tree), (∀ m ∈ members, m.1 ∉ [key]) →
      members.filter (·.1 = key) = [] := by
    intro members h
    rw [List.filter_eq_nil_iff]
    intro m hm hkey
    exact h m hm (List.mem_singleton.mpr (of_decide_eq_true hkey))
  simp [hnone front hfront, hnone back hback]

/-- Every form of an expectation is read as it. Other members of its object say nothing, but are
kept and so need room. -/
theorem SpellsExpectation.reads {e : Expectation} {written : List Token}
    (h : SpellsExpectation e written) {room : Nat} (hroom : 100 ≤ room) :
    Reads (Expectation.reader room) written e := by
  cases h with
  | value h =>
    obtain ⟨literal, rfl, hliteral⟩ := h
    exact Expectation.reads_of_tree (Tree.reads_text .kept room literal)
      (Expectation.ofTree?_text (Literal.read_of_isLiteral hliteral))
  | @error kind name before after hname hbefore hafter =>
    obtain ⟨room, rfl⟩ : ∃ smaller, room = smaller + 2 := ⟨room - 2, by omega⟩
    obtain ⟨tree, htree, hkind⟩ := hname.exists_reads_kind room
    have hfits : 99 ≤ room + 1 := by omega
    obtain ⟨front, hfrontKeys, hfront⟩ := exists_reads_unknown hfits hbefore
    obtain ⟨back, hbackKeys, hback⟩ := exists_reads_unknown hfits hafter
    have hobject := Tree.reads_object
      (List.rel_append hfront (.cons ⟨name, rfl, htree⟩ hback : List.Forall₂ _
        (Layout.member "error" name :: after) (("error", tree) :: back)))
    exact Expectation.reads_of_tree hobject
      (Expectation.ofTree?_object (filter_key tree hfrontKeys hbackKeys) hkind)

/-! ## Reading a scenario -/

namespace Scenario

/-- Each field is read as the scenario has it, in whatever form it is written. -/
theorem SpellsField.reads {s : Scenario} {field : Field} {written : List Token}
    (h : s.SpellsField field written) {room : Nat} (hroom : 100 ≤ room) :
    Draft.ReadsField room s field written := by
  cases field with
  | name =>
    obtain rfl := h
    exact Reads.text s.name
  | group =>
    obtain rfl := h
    exact Reads.text s.group
  | op => exact SpellsName.reads h (Operator.ofName?_name s.op)
  | operands =>
    obtain ⟨items, rfl, hitems⟩ := h
    exact Reads.array_forall₂ SpellsLiteral.reads SpellsLiteral.beginsElement hitems
  | assign => exact SpellsDestination.reads h
  | expect => exact SpellsExpectation.reads h hroom

namespace Draft

/-- A member under a key that is not known takes its value away and changes nothing. -/
theorem reads_unknown {depth : Nat} {key : String} {value : List Token} (room : Nat)
    (draft : Draft) (hkey : key ∉ Field.all.map Field.key) (h : IsValue .skipped depth value) :
    Reads (draft.member room key) (.colon :: value) draft := by
  have hnone : Field.ofKey? key = none := by
    cases hfield : Field.ofKey? key with
    | none => rfl
    | some field =>
      have hmem := List.mem_map_of_mem (f := Field.key) (Field.mem_all field)
      rw [Field.key_of_ofKey? hfield] at hmem
      exact absurd hmem hkey
  unfold member
  rw [hnone]
  exact (Reads.expect .colon).bind ((Tree.reads_skip h).bind_nil (Reads.pure draft))

/-- Whether a member is read as what a scenario has in a field, or says nothing. -/
inductive TakesMember (room : Nat) (s : Scenario) : Option Field → List Token → Prop where
  | field {field : Field} {written : List Token} (h : ReadsField room s field written) :
    TakesMember room s (some field) (Layout.member field.key written)
  | unknown {depth : Nat} {written : List Token}
    (h : IsUnknown .skipped depth (Field.all.map Field.key) written) :
    TakesMember room s none written

/-- Every member of an object is taken: a known one fills its field, and an unknown one is skipped.
-/
theorem takesMember {room : Nat} (hroom : 100 ≤ room) {s : Scenario} {field : Option Field}
    {written : List Token} (h : s.SpellsMember field written) :
    TakesMember room s field written := by
  cases h with
  | field h => exact .field (h.reads hroom)
  | unknown h => exact .unknown h

/-- The members of an object fill in a draft one after another. -/
theorem readsMembers {room : Nat} {s : Scenario} {fields : List (Option Field)}
    {members : List (List Token)} (h : List.Forall₂ (TakesMember room s) fields members)
    {known : List Field} (hnodup : fields.reduceOption.Nodup)
    (hnew : ∀ field ∈ fields.reduceOption, field ∉ known) :
    Reads.ReadsMembers (member room) (of s known) members
      (of s (fields.reduceOption.reverse ++ known)) := by
  induction h generalizing known with
  | nil => exact .nil _
  | @cons field written fields members hmember _ ih =>
    cases hmember with
    | unknown h =>
      obtain ⟨key, value, rfl, hkey, hvalue⟩ := h
      rw [List.reduceOption_cons_of_none] at hnodup hnew ⊢
      exact .cons (reads_unknown room _ hkey hvalue) (ih hnodup hnew)
    | @field field value h =>
      rw [List.reduceOption_cons_of_some] at hnodup hnew ⊢
      obtain ⟨hfirst, hnodup⟩ := List.nodup_cons.mp hnodup
      obtain ⟨hfield, hrest⟩ := List.forall_mem_cons.mp hnew
      -- The draft knows the field now, and no later member has it.
      have hnext : ∀ later ∈ fields.reduceOption, later ∉ field :: known := by
        intro later hmem hin
        rcases List.mem_cons.mp hin with rfl | hin
        · exact hfirst hmem
        · exact hrest later hmem hin
      rw [List.reverse_cons, List.append_assoc]
      exact .cons (reads_member hfield h) (ih hnodup hnext)

end Draft

/-- A scenario is read from an object of its fields in any order, with other members among them. -/
theorem reads_objectSpelling {room : Nat} (hroom : 100 ≤ room) {s : Scenario}
    {fields : List (Option Field)} {members : List (List Token)}
    (h : List.Forall₂ s.SpellsMember fields members) (hnodup : fields.reduceOption.Nodup)
    (hall : ∀ field, some field ∈ fields ∨ s.MayOmit field) :
    Reads (Scenario.reader (room + 1)) (Layout.object members) s := by
  have hmembers : Reads.ReadsMembers (Draft.member room) (Draft.of s []) members
      (Draft.of s (fields.reduceOption.reverse ++ [])) :=
    Draft.readsMembers (h.imp fun _ _ => Draft.takesMember hroom) hnodup
      fun _ _ => List.not_mem_nil
  rw [List.append_nil] at hmembers
  -- A field that is not there is one whose absence means the same.
  have hknown : ∀ field, ¬ s.MayOmit field → field ∈ fields.reduceOption.reverse := by
    intro field hneeded
    rw [List.mem_reverse, List.reduceOption_mem_iff]
    exact (hall field).resolve_right hneeded
  have habsent : ∀ field, field ∉ fields.reduceOption.reverse → s.MayOmit field := by
    intro field hfield
    by_contra hneeded
    exact hfield (hknown field hneeded)
  have hfinish : (Draft.of s fields.reduceOption.reverse).finish = .ok s :=
    Draft.finish_of (hknown .name id) (hknown .op id) (hknown .operands id) (hknown .expect id)
      (habsent .group) (habsent .assign)
  refine .mark (fun _ => rfl) ((Reads.objectRest .kept hmembers).bind_nil ?_)
  rw [hfinish]
  exact Reads.pure s

/-- A scenario is read from an array of its six fields, each in any of its forms. -/
theorem reads_arraySpelling {room : Nat} (hroom : 100 ≤ room) {s : Scenario}
    {name group op operands assign expect : List Token} (hname : s.SpellsField .name name)
    (hgroup : s.SpellsField .group group) (hop : s.SpellsField .op op)
    (hoperands : s.SpellsField .operands operands) (hassign : s.SpellsField .assign assign)
    (hexpect : s.SpellsField .expect expect) :
    Reads (Scenario.reader (room + 1))
      (Layout.array [name, group, op, operands, assign, expect]) s := by
  have hbegin : Reads.BeginsElement name := by
    obtain rfl := hname
    exact ⟨.text (some s.name), [], rfl, by simp, by simp⟩
  have hwritten : Layout.array [name, group, op, operands, assign, expect] =
      .openSquare :: (name ++ (.comma :: group ++ (.comma :: op ++ (.comma :: operands ++
        (.comma :: assign ++ (.comma :: expect ++ [.closeSquare])))))) := by
    simp [Layout.array, Layout.separated]
  rw [hwritten]
  refine .mark (fun _ => rfl) ((Reads.element_first (hname.reads hroom) hbegin).bind ?_)
  refine (Reads.element_later (hgroup.reads hroom)).bind ?_
  refine (Reads.element_later (hop.reads hroom)).bind ?_
  refine (Reads.element_later (hoperands.reads hroom)).bind ?_
  refine (Reads.element_later (hassign.reads hroom)).bind ?_
  refine (Reads.element_later (hexpect.reads hroom)).bind ?_
  exact Reads.closing .closeSquare s

/-- A scenario is read in either form. -/
theorem Spelling.reads {room : Nat} (hroom : 100 ≤ room) {s : Scenario} {written : List Token}
    (h : s.Spelling written) : Reads (Scenario.reader (room + 1)) written s := by
  cases h with
  | object h hnodup hall => exact reads_objectSpelling hroom h hnodup hall
  | array hname hgroup hop hoperands hassign hexpect =>
    exact reads_arraySpelling hroom hname hgroup hop hoperands hassign hexpect

theorem Spelling.beginsElement {s : Scenario} {written : List Token} (h : s.Spelling written) :
    Reads.BeginsElement written := by
  cases h with
  | object => exact ⟨.openCurly, _, rfl, by simp, by simp⟩
  | array => exact ⟨.openSquare, _, rfl, by simp, by simp⟩

end Scenario

/-! ## Reading a matrix -/

namespace Matrix

variable {room : Nat} {m : Matrix}

/-- Scenarios in any forms are read as the list of them. -/
theorem reads_scenarios (hroom : 100 ≤ room) {items : List (List Token)}
    (h : List.Forall₂ (fun written s => Scenario.Spelling s written) items m.scenarios) :
    Reads (scenariosReader (room + 2)) (Layout.array items) m.scenarios :=
  Reads.array_forall₂ (Scenario.Spelling.reads hroom) Scenario.Spelling.beginsElement h

/-- Members under other keys change nothing of what is known. -/
theorem readsMembers_unknown {soFar result : Option (List Scenario)}
    {unknown rest : List (List Token)}
    (h : ∀ x ∈ unknown, ∃ depth, IsUnknown .skipped depth [scenariosKey] x)
    (hrest : Reads.ReadsMembers (member room) soFar rest result) :
    Reads.ReadsMembers (member room) soFar (unknown ++ rest) result := by
  induction unknown with
  | nil => exact hrest
  | cons x unknown ih =>
    obtain ⟨⟨depth, key, value, rfl, hkey, hvalue⟩, hunknown⟩ := List.forall_mem_cons.mp h
    refine .cons ?_ (ih hunknown)
    unfold member
    rw [if_neg (fun hscenarios => hkey (List.mem_singleton.mpr hscenarios))]
    exact (Reads.expect .colon).bind ((Tree.reads_skip hvalue).bind_nil (Reads.pure soFar))

/-- Every form of a matrix is read as the matrix. -/
theorem Spelling.reads (hroom : 100 ≤ room) {written : List Token} (h : m.Spelling written) :
    Reads (Matrix.reader (room + 3)) written m := by
  cases h with
  | @object items before after h hbefore hafter =>
    have hscenarios := reads_member_of (reads_scenarios hroom h)
    have hrest : Reads.ReadsMembers (member (room + 2)) (some m.scenarios) (after ++ [])
        (some m.scenarios) := readsMembers_unknown hafter (.nil _)
    rw [List.append_nil] at hrest
    have hmembers := readsMembers_unknown hbefore (.cons hscenarios hrest)
    exact .mark (fun _ => rfl) ((Reads.objectRest .kept hmembers).bind_nil (Reads.pure m))
  | @array items h =>
    have hbegin : Reads.BeginsElement (Layout.array items) :=
      ⟨.openSquare, _, rfl, by simp, by simp⟩
    exact .mark (fun _ => rfl) ((Reads.element_first (reads_scenarios hroom h) hbegin).bind
      (Reads.closing .closeSquare m))

end Matrix

/-! ## The printed form -/

namespace Scenario

/-- An expectation is printed in one of its forms. -/
theorem spellsExpectation_tokens (e : Expectation) : SpellsExpectation e e.tokens := by
  cases e with
  | value v => exact .value ⟨v.literal, rfl, Literal.isLiteral_literal v⟩
  | error kind =>
    exact @SpellsExpectation.error kind kind.tokens [] [] .text (List.forall_mem_nil _)
      (List.forall_mem_nil _)

theorem spellsField_fieldTokens (s : Scenario) {field : Field} {written : List Token}
    (h : s.fieldTokens field = some written) : s.SpellsField field written := by
  cases field with
  | name => exact (Option.some.inj h).symm
  | group => exact (Option.some.inj h).symm
  | op =>
    obtain rfl := Option.some.inj h
    exact .text
  | operands =>
    obtain rfl := Option.some.inj h
    refine ⟨_, rfl, List.forall₂_map_left_iff.mpr (List.forall₂_same.mpr ?_)⟩
    intro v _
    exact ⟨v.literal, rfl, Literal.isLiteral_literal v⟩
  | assign =>
    obtain ⟨type, hassign, rfl⟩ := Option.map_eq_some_iff.mp h
    show SpellsDestination s.assign _
    rw [hassign]
    exact .present .text
  | expect =>
    obtain rfl := Option.some.inj h
    exact spellsExpectation_tokens s.expect

/-- The printed members are those fields that have tokens, in order. -/
theorem spellsMember_fields (s : Scenario) (fields : List Field) :
    List.Forall₂ s.SpellsMember
      ((fields.filter fun field => (s.fieldTokens field).isSome).map some)
      (fields.filterMap fun field => (s.fieldTokens field).map (Layout.member field.key)) := by
  induction fields with
  | nil => exact .nil
  | cons field fields ih =>
    cases htokens : s.fieldTokens field with
    | none =>
      rw [List.filterMap_cons_none (by rw [htokens]; rfl),
        List.filter_cons_of_neg (by rw [htokens]; exact Bool.false_ne_true)]
      exact ih
    | some written =>
      rw [List.filterMap_cons_some (by rw [htokens]; rfl),
        List.filter_cons_of_pos (by rw [htokens]; rfl), List.map_cons]
      exact .cons (.field (s.spellsField_fieldTokens htokens)) ih

/-- The tokens that are printed are one of the spellings. -/
theorem spelling_tokens (s : Scenario) : s.Spelling s.tokens := by
  refine .object (s.spellsMember_fields Field.all) ?_ ?_
  · have hnodup : Field.all.Nodup := by decide
    have hfields : ∀ fields : List Field, (fields.map some).reduceOption = fields := by
      intro fields
      simp [List.reduceOption]
    rw [hfields]
    exact hnodup.filter _
  · intro field
    cases htokens : s.fieldTokens field with
    | some written =>
      refine .inl (List.mem_map_of_mem (List.mem_filter.mpr ⟨Field.mem_all field, ?_⟩))
      rw [htokens]
      rfl
    | none =>
      -- Only the destination is ever left out, and only where there is none.
      refine .inr ?_
      cases field with
      | assign => exact Option.map_eq_none_iff.mp htokens
      | _ => cases htokens

end Scenario

namespace Matrix

/-- Every matrix has a spelling, as what is printed is one. -/
theorem spelling_print (m : Matrix) : m.Spelling m.tokens ∧ Spells m.tokens m.print.toList := by
  have hscenarios : List.Forall₂ (fun written s => Scenario.Spelling s written)
      (m.scenarios.map Scenario.tokens) m.scenarios :=
    List.forall₂_map_left_iff.mpr (List.forall₂_same.mpr fun s _ => s.spelling_tokens)
  exact ⟨@Spelling.object m _ [] [] hscenarios (List.forall_mem_nil _) (List.forall_mem_nil _),
    spells_print m.allClosed⟩

/-- **What a matrix means does not depend on how it is written.** Every text that spells a scenario
is read as that scenario, and every text that spells a matrix as that matrix. -/
theorem read_of_spelling :
    (∀ (s : Scenario) written text, s.Spelling written → Spells written text.toList →
      (Scenario.reader Tree.nestingLimit).read text = .ok s) ∧
    ∀ (m : Matrix) written text, m.Spelling written → Spells written text.toList →
      read text = .ok m := by
  constructor
  · intro s written text hspelling hspells
    have hroom : 100 ≤ 126 := by omega
    exact Reader.read_of_spells (hspelling.reads hroom) hspells
  · intro m written text hspelling hspells
    have hroom : 100 ≤ 124 := by omega
    exact Reader.read_of_spells (hspelling.reads hroom) hspells

/-- A scenario whose fields are out of order, behind a member that nobody knows. -/
def reworded : List Token :=
  Layout.object [
    Layout.member "x" (Layout.array [[.text none]]),
    Layout.member "expect" (Layout.object [Layout.member "error" (Layout.text "arity_mismatch")]),
    Layout.member "name" (Layout.text "a"),
    Layout.member "operands" (Layout.array [Layout.text "u64:0x1"]),
    Layout.member "op" (Layout.object [Layout.member "neg" [.null]])]

/-- The same as a text. The unknown member holds half of a surrogate pair, and the key of the name
stands behind a blank and begins with an escape. -/
def rewordedText : String :=
  "\x7b\"x\":[\"\\udC00\"],\"expect\":\x7b\"error\":\"arity_mismatch\"\x7d, \"\\u006eame\":\"a\"," ++
    "\"operands\":[\"u64:0x1\"],\"op\":\x7b\"neg\":null\x7d\x7d"

theorem spelling_reworded :
    Scenario.Spelling ⟨"a", "", .neg, [⟨.u64, 1⟩], none, .error .arityMismatch⟩ reworded := by
  have hvalue : IsValue .skipped 1 (Layout.array [[.text none]]) := by
    refine .array (List.forall_mem_singleton.mpr ?_)
    exact .scalar rfl
  have hliteral : SpellsLiteral (Layout.text "u64:0x1") ⟨.u64, 1⟩ :=
    ⟨"u64:0x1", rfl, Literal.isLiteral_of_read rfl⟩
  have hexpect : SpellsExpectation (.error .arityMismatch)
      (Layout.object ([] ++ Layout.member "error" (Layout.text "arity_mismatch") :: [])) :=
    .error .text (List.forall_mem_nil _) (List.forall_mem_nil _)
  refine @Scenario.Spelling.object _ [none, some .expect, some .name, some .operands, some .op]
    _ ?_ ?_ ?_
  · exact .cons (.unknown ⟨"x", _, rfl, by decide, hvalue⟩) (.cons (.field hexpect)
      (.cons (.field rfl) (.cons (.field ⟨_, rfl, .cons hliteral .nil⟩)
        (.cons (.field .object) .nil))))
  · decide
  · intro field
    cases field <;> simp [Scenario.MayOmit]

/-- The reworded text has the tokens of the reworded scenario, with blanks and escapes. -/
theorem spells_reworded : Spells reworded rewordedText.toList := by
  have hdigit : ∀ c d, d < 16 → Numeral.lowerDigits[d]? = some c ∨ Numeral.upperDigits[d]? = some c →
      Numeral.IsDigit 16 c d := fun _ _ hd hc => ⟨hd, hc⟩
  have hunit : SpellsUnit 0xdc00 ['\\', 'u', 'd', 'C', '0', '0'] :=
    .numbered (hdigit 'd' 13 (by omega) (.inl rfl)) (hdigit 'C' 12 (by omega) (.inr rfl))
      (hdigit '0' 0 (by omega) (.inl rfl)) (hdigit '0' 0 (by omega) (.inl rfl))
  have hletter : SpellsUnit 'n'.toNat ['\\', 'u', '0', '0', '6', 'e'] :=
    .numbered (hdigit '0' 0 (by omega) (.inl rfl)) (hdigit '0' 0 (by omega) (.inl rfl))
      (hdigit '6' 6 (by omega) (.inl rfl)) (hdigit 'e' 14 (by omega) (.inl rfl))
  have hhalf := SpellsToken.text (.half hunit (.inl ⟨by omega, by omega⟩) .nil)
  have hname := SpellsToken.text (.char (.unit hletter) (spellsText_escaped ['a', 'm', 'e']))
  have hno : ∀ {content rest}, (∃ value, Token.text content = .number value) → Follows rest := by
    rintro content rest ⟨value, h⟩
    cases h
  -- From the end to the beginning: what is printed, and the two tokens that are not.
  have hback : Layout.AllClosed [.colon, .text (some "a"), .comma, .text (some "operands"), .colon,
      .openSquare, .text (some "u64:0x1"), .closeSquare, .comma, .text (some "op"), .colon,
      .openCurly, .text (some "neg"), .colon, .null, .closeCurly, .closeCurly] := by
    simp [Layout.AllClosed, Token.IsClosed]
  have hmiddle : Layout.AllClosed [.closeSquare, .comma, .text (some "expect"), .colon, .openCurly,
      .text (some "error"), .colon, .text (some "arity_mismatch"), .closeCurly, .comma] := by
    simp [Layout.AllClosed, Token.IsClosed]
  have hfront : Layout.AllClosed [.openCurly, .text (some "x"), .colon, .openSquare] := by
    simp [Layout.AllClosed, Token.IsClosed]
  have hspells := spells_written_append hfront (.close hhalf hno
    (spells_written_append hmiddle (@Spells.cons _ _ [' '] _ _ (by simp [Lexer.isBlank]) hname hno
      (spells_written hback))))
  have htext : ∀ chars, Spells reworded chars → rewordedText = String.ofList chars →
      Spells reworded rewordedText.toList := by
    rintro chars h htext
    rw [htext, String.toList_ofList]
    exact h
  exact htext _ hspells (by decide +kernel)

/-- The scenario is read from the text, and so is a matrix of it, an array in an array. -/
theorem read_of_spelling_reworded :
    (Scenario.reader Tree.nestingLimit).read rewordedText =
        .ok ⟨"a", "", .neg, [⟨.u64, 1⟩], none, .error .arityMismatch⟩ ∧
      read ("[[" ++ rewordedText ++ "]]") =
        .ok ⟨[⟨"a", "", .neg, [⟨.u64, 1⟩], none, .error .arityMismatch⟩]⟩ := by
  have hopen : Layout.AllClosed [.openSquare, .openSquare] := by
    simp [Layout.AllClosed, Token.IsClosed]
  have hclose : Layout.AllClosed [.closeSquare, .closeSquare] := by
    simp [Layout.AllClosed, Token.IsClosed]
  have hend : Follows [']', ']'] := follows_of_separator (.inr (.inr (.inl rfl))) _
  have hmatrix : Spells (Layout.array [Layout.array [reworded]])
      ("[[" ++ rewordedText ++ "]]").toList := by
    rw [String.append_assoc, String.toList_append, String.toList_append]
    exact spells_written_append hopen (spells_reworded.append (spells_written hclose) hend)
  exact ⟨read_of_spelling.1 _ _ _ spelling_reworded spells_reworded,
    read_of_spelling.2 _ _ _ (.array (.cons spelling_reworded .nil)) hmatrix⟩

end Matrix

end FixedWidth
