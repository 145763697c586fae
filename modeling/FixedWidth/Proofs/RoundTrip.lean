import FixedWidth.Proofs.Grammar
import FixedWidth.Proofs.Reading
import FixedWidth.Scenario.Printer

/-!
# Matrices are read as they were written

Every part of a matrix is read back from its tokens: a value because its literal is one, an
expectation because its two forms cannot be taken for each other, a scenario field by field. A draft
that knows some fields of a scenario (`Draft.of`) does not say in which order they came, so the
members may stand in any order (`readsMembers_fields`), and a field that is not written is one whose
absence means the same (`finish_of`).

> `read_print_roundTrip`: reading what was printed gives the matrix back; hence printing is
> injective, and a text that is read and printed again stays as it is from then on.
-/

namespace FixedWidth

open Json

/-! ## Names and literals -/

theorem IntType.reads (type : IntType) : Reads IntType.reader type.tokens type :=
  Reads.choice (IntType.ofName?_name type)

theorem Operator.reads (op : Operator) : Reads Operator.reader op.tokens op :=
  Reads.choice (Operator.ofName?_name op)

/-- Any text that is read as a literal is read as a value. -/
theorem Value.reads_text {literal : String} {v : Value} (h : Literal.read literal = .ok v) :
    Reads Value.reader (Layout.text literal) v := by
  refine (Reads.text literal).bind_nil ?_
  rw [h]
  exact Reads.pure v

theorem Value.reads (v : Value) : Reads Value.reader v.tokens v :=
  reads_text (Literal.read_literal v)

theorem Value.beginsElement (v : Value) : Reads.BeginsElement v.tokens :=
  ⟨.text (some v.literal), [], rfl, by simp, by simp⟩

/-! ## Expectations -/

/-- A text that is a literal is the expectation of its value. -/
theorem Expectation.ofTree?_text {literal : String} {v : Value} (h : Literal.read literal = .ok v) :
    ofTree? (.text literal) = some (.value v) := by
  show (Literal.read literal).toOption.map Expectation.value = _
  rw [h]
  rfl

/-- An object can only be an error, and its kind is read back. -/
theorem Expectation.ofTree?_object {members : List (String × Tree)} {tree : Tree}
    {kind : ErrorKind} (hmembers : members.filter (·.1 = "error") = [("error", tree)])
    (hkind : ErrorKind.ofTree? tree = some kind) :
    ofTree? (.object members) = some (.error kind) := by
  simp only [ofTree?, hmembers, hkind, Option.map_some]

/-- An expectation is read by reading a JSON value and looking at it. -/
theorem Expectation.reads_of_tree {room : Nat} {written : List Token} {tree : Tree}
    {e : Expectation} (h : Reads (Tree.reader .kept room) written tree)
    (htree : ofTree? tree = some e) : Reads (Expectation.reader room) written e := by
  refine h.bind_nil ?_
  rw [htree]
  exact Reads.pure e

/-- An expectation is read from what is printed for it; the object of an error takes one bracket. -/
theorem Expectation.reads (room : Nat) (e : Expectation) :
    Reads (Expectation.reader (room + 1)) e.tokens e := by
  cases e with
  | value v =>
    exact reads_of_tree (Tree.reads_text .kept _ v.literal) (ofTree?_text (Literal.read_literal v))
  | error kind =>
    have hkind := Tree.reads_text .kept room kind.name
    have htree : Reads (Tree.reader .kept (room + 1)) (Expectation.error kind).tokens
        (.object [("error", .text kind.name)]) :=
      Tree.reads_object (.cons ⟨kind.tokens, rfl, hkind⟩ .nil)
    exact reads_of_tree htree (ofTree?_object rfl (ErrorKind.ofName?_name kind))

theorem Expectation.allClosed (e : Expectation) : Layout.AllClosed e.tokens := by
  cases e with
  | value v => exact Layout.allClosed_text v.literal
  | error kind =>
    refine .object ?_
    intro member hmember
    obtain rfl := List.mem_singleton.mp hmember
    exact .member "error" (Layout.allClosed_text kind.name)

/-! ## Scenarios -/

namespace Scenario

/-- What is known of a scenario when some of its fields have been read. -/
def Draft.of (s : Scenario) (known : List Field) : Draft where
  name := if .name ∈ known then some s.name else none
  group := if .group ∈ known then some s.group else none
  op := if .op ∈ known then some s.op else none
  operands := if .operands ∈ known then some s.operands else none
  assign := if .assign ∈ known then some s.assign else none
  expect := if .expect ∈ known then some s.expect else none

namespace Draft

theorem isSome_if {α : Type} (p : Prop) [Decidable p] (x : α) :
    (if p then some x else none).isSome = decide p := by
  by_cases h : p
  · rw [if_pos h, decide_eq_true h]
    rfl
  · rw [if_neg h, decide_eq_false h]
    rfl

/-- What is left out can be made up for if it is the default. -/
theorem getD_if {α : Type} {p : Prop} [Decidable p] {x default : α} (h : ¬p → x = default) :
    (if p then some x else none).getD default = x := by
  by_cases hp : p
  · rw [if_pos hp]
    rfl
  · rw [if_neg hp, h hp]
    rfl

theorem has_of (s : Scenario) (known : List Field) (field : Field) :
    (of s known).has field = decide (field ∈ known) := by
  cases field with
  | name => exact isSome_if _ s.name
  | group => exact isSome_if _ s.group
  | op => exact isSome_if _ s.op
  | operands => exact isSome_if _ s.operands
  | assign => exact isSome_if _ s.assign
  | expect => exact isSome_if _ s.expect

/-- The draft with one more field as the scenario has it. -/
def learn (draft : Draft) (s : Scenario) : Field → Draft
  | .name => { draft with name := some s.name }
  | .group => { draft with group := some s.group }
  | .op => { draft with op := some s.op }
  | .operands => { draft with operands := some s.operands }
  | .assign => { draft with assign := some s.assign }
  | .expect => { draft with expect := some s.expect }

/-- The draft of one more field is got by learning it. -/
theorem of_cons (s : Scenario) (known : List Field) (field : Field) :
    of s (field :: known) = (of s known).learn s field := by
  cases field <;> simp [of, learn]

/-- Whether tokens are read as the value that a scenario has in a field. -/
def ReadsField (room : Nat) (s : Scenario) : Field → List Token → Prop
  | .name, written => Reads Reader.text written s.name
  | .group, written => Reads Reader.text written s.group
  | .op, written => Reads Operator.reader written s.op
  | .operands, written => Reads (Reader.array Value.reader) written s.operands
  | .assign, written => Reads (Reader.optional IntType.reader) written s.assign
  | .expect, written => Reads (Expectation.reader room) written s.expect

/-- A printed field is read as what the scenario has there. -/
theorem readsField (room : Nat) (s : Scenario) {field : Field} {written : List Token}
    (h : s.fieldTokens field = some written) : ReadsField (room + 1) s field written := by
  cases field with
  | name =>
    obtain rfl := Option.some.inj h
    exact Reads.text s.name
  | group =>
    obtain rfl := Option.some.inj h
    exact Reads.text s.group
  | op =>
    obtain rfl := Option.some.inj h
    exact s.op.reads
  | operands =>
    obtain rfl := Option.some.inj h
    exact Reads.array_map Value.reads Value.beginsElement s.operands
  | assign =>
    obtain ⟨type, hassign, rfl⟩ := Option.map_eq_some_iff.mp h
    show Reads _ _ s.assign
    rw [hassign]
    exact Reads.optional type.reads
  | expect =>
    obtain rfl := Option.some.inj h
    exact s.expect.reads room

/-- Reading the value of a field is learning it. -/
theorem reads_fill {room : Nat} {s : Scenario} (draft : Draft) {field : Field}
    {written : List Token} (h : ReadsField room s field written) :
    Reads (draft.fill room field) written (draft.learn s field) := by
  cases field
  all_goals exact Reads.bind_nil h (Reads.pure _)

/-- A member that holds a field not known before. -/
theorem reads_member {room : Nat} {s : Scenario} {known : List Field} {field : Field}
    (hnew : field ∉ known) {written : List Token} (h : ReadsField room s field written) :
    Reads ((of s known).member room field.key) (.colon :: written) (of s (field :: known)) := by
  unfold member
  rw [Field.ofKey?_key]
  -- A key that has come before would be refused here.
  show Reads (if (of s known).has field = true then _ else _) _ _
  rw [has_of, decide_eq_false hnew, if_neg Bool.false_ne_true, of_cons]
  exact (Reads.expect .colon).bind (reads_fill (of s known) h)

/-- Members that hold distinct fields, in any order. A field that is not written adds nothing. -/
theorem readsMembers_fields (room : Nat) (s : Scenario) {fields known : List Field}
    (hnodup : fields.Nodup) (hnew : ∀ field ∈ fields, field ∉ known) :
    Reads.ReadsMembers (member (room + 1)) (of s known)
      (fields.filterMap fun field => (s.fieldTokens field).map (Layout.member field.key))
      (of s ((fields.filter fun field => (s.fieldTokens field).isSome).reverse ++ known)) := by
  induction fields generalizing known with
  | nil => exact .nil _
  | cons first fields ih =>
    obtain ⟨hfirst, hnodup⟩ := List.nodup_cons.mp hnodup
    have hrestNew : ∀ field ∈ fields, field ∉ known := by
      intro field hmem
      exact hnew field (List.mem_cons_of_mem _ hmem)
    cases htokens : s.fieldTokens first with
    | none =>
      rw [List.filterMap_cons_none (by rw [htokens]; rfl),
        List.filter_cons_of_neg (by rw [htokens]; exact Bool.false_ne_true)]
      exact ih hnodup hrestNew
    | some written =>
      -- From here on `first` is known, and it does not come again.
      have hnext : ∀ field ∈ fields, field ∉ first :: known := by
        intro field hmem hin
        rcases List.mem_cons.mp hin with hin | hin
        · exact hfirst (hin ▸ hmem)
        · exact hrestNew field hmem hin
      rw [List.filterMap_cons_some (by rw [htokens]; rfl),
        List.filter_cons_of_pos (by rw [htokens]; rfl), List.reverse_cons, List.append_assoc]
      exact .cons (reads_member (hnew first (List.mem_cons_self ..)) (readsField room s htokens))
        (ih hnodup hnext)

/-- A draft that lacks no field but those whose absence says the same. -/
theorem finish_of {s : Scenario} {known : List Field} (hname : .name ∈ known) (hop : .op ∈ known)
    (hoperands : .operands ∈ known) (hexpect : .expect ∈ known)
    (hgroup : .group ∉ known → s.group = "") (hassign : .assign ∉ known → s.assign = none) :
    (of s known).finish = .ok s := by
  have hgroup' : (of s known).group.getD "" = s.group := getD_if hgroup
  have hassign' : (of s known).assign.getD none = s.assign := getD_if hassign
  unfold finish
  rw [hgroup', hassign']
  simp only [of, if_pos hname, if_pos hop, if_pos hoperands, if_pos hexpect]
  rfl

end Draft

theorem beginsElement (s : Scenario) : Reads.BeginsElement s.tokens :=
  ⟨.openCurly, _, rfl, by simp, by simp⟩

/-- A scenario is read from what is printed for it. -/
theorem reads (room : Nat) (s : Scenario) : Reads (Scenario.reader (room + 2)) s.tokens s := by
  have hnodup : Field.all.Nodup := by decide
  have hmembers := @Draft.readsMembers_fields room s Field.all [] hnodup
    fun _ _ => List.not_mem_nil
  rw [List.append_nil] at hmembers
  have hmem : ∀ field, field ∈ (Field.all.filter fun field => (s.fieldTokens field).isSome).reverse ↔
      (s.fieldTokens field).isSome := by
    intro field
    simp [Field.mem_all field]
  generalize (Field.all.filter fun field => (s.fieldTokens field).isSome).reverse = known
    at hmembers hmem
  -- Only the destination may be left out, and it is where the scenario has none.
  have hfinish : (Draft.of s known).finish = .ok s := by
    refine Draft.finish_of ((hmem _).mpr rfl) ((hmem _).mpr rfl) ((hmem _).mpr rfl)
      ((hmem _).mpr rfl) (fun h => absurd ((hmem _).mpr rfl) h) ?_
    intro h
    rw [hmem, Bool.not_eq_true, Option.isSome_eq_false_iff] at h
    exact Option.map_eq_none_iff.mp (Option.isNone_iff_eq_none.mp h)
  refine .mark (fun _ => rfl) ((Reads.objectRest .kept hmembers).bind_nil ?_)
  rw [hfinish]
  exact Reads.pure s

theorem allClosed_fieldTokens (s : Scenario) {field : Field} {written : List Token}
    (h : s.fieldTokens field = some written) : Layout.AllClosed written := by
  cases field with
  | operands =>
    obtain rfl := Option.some.inj h
    refine .array ?_
    intro written hmem
    obtain ⟨v, -, rfl⟩ := List.mem_map.mp hmem
    exact Layout.allClosed_text v.literal
  | assign =>
    obtain ⟨type, -, rfl⟩ := Option.map_eq_some_iff.mp h
    exact Layout.allClosed_text type.name
  | expect =>
    obtain rfl := Option.some.inj h
    exact s.expect.allClosed
  | _ =>
    obtain rfl := Option.some.inj h
    exact Layout.allClosed_text _

theorem allClosed (s : Scenario) : Layout.AllClosed s.tokens := by
  refine .object ?_
  intro member hmember
  obtain ⟨field, -, hfield⟩ := List.mem_filterMap.mp hmember
  obtain ⟨written, hwritten, rfl⟩ := Option.map_eq_some_iff.mp hfield
  exact .member _ (s.allClosed_fieldTokens hwritten)

end Scenario

/-! ## Matrices -/

namespace Matrix

/-- The member that holds the scenarios, whatever form they are written in. -/
theorem reads_member_of {room : Nat} {written : List Token} {scenarios : List Scenario}
    (h : Reads (scenariosReader room) written scenarios) :
    Reads (member room none scenariosKey) (.colon :: written) (some scenarios) := by
  unfold member
  rw [if_pos rfl]
  exact (Reads.expect .colon).bind (h.map some)

/-- The only member of a printed matrix is read as its scenarios. -/
theorem reads_member (room : Nat) (scenarios : List Scenario) :
    Reads (member (room + 3) none scenariosKey)
      (.colon :: Layout.array (scenarios.map Scenario.tokens)) (some scenarios) :=
  reads_member_of (Reads.array_map (Scenario.reads room) Scenario.beginsElement scenarios)

/-- A matrix is read from its tokens, with four brackets of room. -/
theorem reads (room : Nat) (m : Matrix) : Reads (Matrix.reader (room + 4)) m.tokens m := by
  have hmember := reads_member room m.scenarios
  exact .mark (fun _ => rfl)
    ((Reads.objectRest .kept (.cons hmember (.nil _))).bind_nil (Reads.pure m))

theorem allClosed (m : Matrix) : Layout.AllClosed m.tokens := by
  refine .object ?_
  intro member hmember
  obtain rfl := List.mem_singleton.mp hmember
  refine .member _ (.array ?_)
  intro written hmem
  obtain ⟨s, -, rfl⟩ := List.mem_map.mp hmem
  exact s.allClosed

/-- A matrix is read from its text. -/
theorem read_print (m : Matrix) : read m.print = .ok m := Reader.read_print (m.reads 123) m.allClosed

/-- A text of a matrix, written anew. -/
def normalize (text : String) : Except Json.Error String := (read text).map print

/-- A text that is written anew is read as before. -/
theorem normalize_bind_read (text : String) : (normalize text).bind read = read text := by
  show ((read text).map print).bind read = _
  cases read text with
  | error e => rfl
  | ok m =>
    rw [Except.map, Except.bind]
    exact read_print m

/-- A text that is written anew once is not changed by doing it again. -/
theorem normalize_bind_normalize (text : String) :
    (normalize text).bind normalize = normalize text := by
  have hprint : ∀ m, normalize (print m) = .ok m.print := by
    intro m
    unfold normalize
    rw [read_print m]
    rfl
  show ((read text).map print).bind normalize = (read text).map print
  cases read text with
  | error e => rfl
  | ok m =>
    rw [Except.map, Except.bind]
    exact hprint m

/-- **Reading undoes printing.** So no two matrices are printed alike; and once a text has been
written anew, it holds the same matrix as before, and writing it anew once more changes nothing. -/
theorem read_print_roundTrip :
    (∀ m, read m.print = .ok m) ∧ Function.Injective print ∧
    ∀ text, (normalize text).bind read = read text ∧
      (normalize text).bind normalize = normalize text := by
  refine ⟨read_print, ?_, ?_⟩
  · intro a b h
    have hb := read_print b
    rw [← h, read_print a] at hb
    exact Except.ok.inj hb
  · intro text
    exact ⟨normalize_bind_read text, normalize_bind_normalize text⟩

end Matrix

end FixedWidth
