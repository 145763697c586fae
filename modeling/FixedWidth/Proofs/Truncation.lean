import FixedWidth.Proofs.RoundTrip
import FixedWidth.Proofs.Starving

/-!
# Only the whole text of a matrix is read

A printed matrix that lacks its end is never taken for another one, nor is it blamed for anything
but its end: what is cut off might have been the missing field, the rest of a literal, or the name
that is not yet a known one. What stands behind a printed matrix is refused unless it is blank.

The readers of the parts starve on what the parts write. Literals, names and expectations are read
as a whole before they are looked at, so a cut is met before their content is (`Starves.bind_nil`).
The same holds for the fields of a scenario, which are counted only at its closing bracket. A member
that is cut has been allowed to begin, so its key has not come before (`starves_member`).
-/

namespace FixedWidth

open Json

/-! ## Names, literals and expectations -/

/-- A type that is cut is too short, and not an unknown one. -/
theorem IntType.starves (type : IntType) : Starves IntType.reader type.tokens :=
  .choice _ _ type.name

/-- An operator that is cut is too short, and not an unknown one. -/
theorem Operator.starves (op : Operator) : Starves Operator.reader op.tokens :=
  .choice _ _ op.name

/-- A literal that is cut is too short, and not a bad one: it is looked at only as a whole. -/
theorem Value.starves (v : Value) : Starves Value.reader v.tokens :=
  (Starves.text v.literal).bind_nil _

/-- An expectation that is cut is too short, as it is read as a whole, too. -/
theorem Expectation.starves (room : Nat) (e : Expectation) :
    Starves (Expectation.reader (room + 1)) e.tokens := by
  cases e with
  | value v => exact (Tree.starves_text .kept _ v.literal).bind_nil _
  | error kind =>
    have hreads := Tree.reads_text .kept room kind.name
    have hkind := Tree.starves_text .kept room kind.name
    refine Starves.bind_nil _ (@Tree.starves_object .kept room _ [("error", .text kind.name)]
      (.cons ⟨kind.tokens, rfl, hreads⟩ .nil) ?_)
    intro tokens hmem
    obtain rfl := List.mem_singleton.mp hmem
    exact ⟨"error", kind.tokens, rfl, hkind⟩

/-! ## Scenarios -/

namespace Scenario

namespace Draft

/-- A field that is cut is too short, whatever has been read before it. -/
theorem starves_fill (room : Nat) (s : Scenario) (draft : Draft) {field : Field}
    {written : List Token} (h : s.fieldTokens field = some written) :
    Starves (draft.fill (room + 1) field) written := by
  cases field with
  | name =>
    obtain rfl := Option.some.inj h
    exact (Starves.text s.name).bind_nil _
  | group =>
    obtain rfl := Option.some.inj h
    exact (Starves.text s.group).bind_nil _
  | op =>
    obtain rfl := Option.some.inj h
    exact s.op.starves.bind_nil _
  | operands =>
    obtain rfl := Option.some.inj h
    exact (Starves.array_map Value.reads Value.beginsElement Value.starves s.operands).bind_nil _
  | assign =>
    -- Only a destination that is there has tokens.
    obtain ⟨type, -, rfl⟩ := Option.map_eq_some_iff.mp h
    exact (Starves.optional type.starves).bind_nil _
  | expect =>
    obtain rfl := Option.some.inj h
    exact (s.expect.starves room).bind_nil _

/-- A member that holds a field of the scenario, wherever it is not refused. -/
theorem starves_member (room : Nat) (s : Scenario) {draft next : Draft} {field : Field}
    {written : List Token} (h : s.fieldTokens field = some written)
    (hreads : Reads (draft.member (room + 1) field.key) (.colon :: written) next) :
    Starves (draft.member (room + 1) field.key) (.colon :: written) := by
  unfold member at hreads ⊢
  rw [Field.ofKey?_key] at hreads ⊢
  by_cases hhas : draft.has field = true
  · -- A key that has come before is refused, so its member is not read.
    have hrefused := hreads []
    simp only [if_pos hhas] at hrefused
    cases hrefused
  · simp only [if_neg hhas]
    exact (Starves.expect rfl).bind (Reads.expect .colon) (starves_fill room s draft h)

end Draft

/-- A scenario that is cut is too short, and lacks no field. -/
theorem starves (room : Nat) (s : Scenario) : Starves (Scenario.reader (room + 2)) s.tokens := by
  have hnodup : Field.all.Nodup := by decide
  have hreads := @Draft.readsMembers_fields room s Field.all [] hnodup
    fun _ _ => List.not_mem_nil
  refine .mark rfl rfl (fun _ => rfl) (.bind_nil _ (.objectRest .kept hreads ?_))
  intro draft next key value hmem hmember
  obtain ⟨field, -, hfield⟩ := List.mem_filterMap.mp hmem
  obtain ⟨written, hwritten, hlayout⟩ := Option.map_eq_some_iff.mp hfield
  cases hlayout
  exact Draft.starves_member room s hwritten hmember

end Scenario

/-! ## Matrices -/

namespace Matrix

/-- Scenarios that are cut are too short. -/
theorem starves_scenarios (room : Nat) (scenarios : List Scenario) :
    Starves (scenariosReader (room + 3)) (Layout.array (scenarios.map Scenario.tokens)) :=
  .array_map (Scenario.reads room) Scenario.beginsElement (Scenario.starves room) scenarios

/-- The only member of a matrix, unless it is refused as a second one. -/
theorem starves_member (room : Nat) {soFar next : Option (List Scenario)} {value : List Token}
    (h : Starves (scenariosReader room) value)
    (hreads : Reads (member room soFar scenariosKey) (.colon :: value) next) :
    Starves (member room soFar scenariosKey) (.colon :: value) := by
  unfold member at hreads ⊢
  rw [if_pos rfl] at hreads ⊢
  by_cases hsome : soFar.isSome = true
  · rw [if_pos hsome] at hreads
    cases hreads []
  · rw [if_neg hsome]
    exact (Starves.expect rfl).bind (Reads.expect .colon) (h.map some)

/-- A matrix that is cut is too short. -/
theorem starves (room : Nat) (m : Matrix) : Starves (Matrix.reader (room + 4)) m.tokens := by
  have hreads := Reads.ReadsMembers.cons (reads_member room m.scenarios) (.nil _)
  refine .mark rfl rfl (fun _ => rfl) (.bind_nil _ (.objectRest .kept hreads ?_))
  intro soFar next key value hmem hmember
  cases List.mem_singleton.mp hmem
  exact starves_member _ (starves_scenarios room m.scenarios) hmember

/-- The text of a matrix that is cut is too short. -/
theorem read_cut (m : Matrix) {front back : String} (h : m.print = front ++ back)
    (hback : back ≠ "") : read front = .error (.fault .endOfText) :=
  Reader.read_cut (m.starves 123) m.allClosed h hback

/-- Behind the text of a matrix only blanks may stand. -/
theorem read_append (m : Matrix) (text : String) :
    read (m.print ++ text) =
      if text.toList.all Lexer.isBlank then .ok m else .error (.fault .malformed) :=
  Reader.read_print_append (m.reads 123) m.allClosed text

/-- **Only the whole text of a matrix is read.** Without its end it is too short, wherever the cut
is; with anything but blanks behind it, it is malformed; and blanks change nothing. -/
theorem read_whole_text_only (m : Matrix) :
    (∀ front back : String, m.print = front ++ back → back ≠ "" →
      read front = .error (.fault .endOfText)) ∧
    (∀ text : String, (∃ c ∈ text.toList, Lexer.isBlank c = false) →
      read (m.print ++ text) = .error (.fault .malformed)) ∧
    ∀ text : String, (∀ c ∈ text.toList, Lexer.isBlank c = true) →
      read (m.print ++ text) = .ok m := by
  refine ⟨?_, ?_, ?_⟩
  · intro front back h hback
    exact m.read_cut h hback
  · intro text hother
    obtain ⟨c, hmem, hc⟩ := hother
    have hblank : ¬ text.toList.all Lexer.isBlank = true := by
      intro hall
      rw [List.all_eq_true.mp hall c hmem] at hc
      cases hc
    rw [read_append, if_neg hblank]
  · intro text hblank
    rw [read_append, if_pos (List.all_eq_true.mpr hblank)]

/-- A matrix with a line break in a name, which is written as an escape. -/
def twoLines : Matrix :=
  ⟨[⟨"a\nb", "", .neg, [⟨.u64, 1⟩], some .i64, .error .unrepresentable⟩]⟩

theorem read_whole_text_only_twoLines :
    read "\x7b\"scenarios\":[\x7b\"name\":\"a\\" = .error (.fault .endOfText) ∧
    read (twoLines.print ++ " ]") = .error (.fault .malformed) ∧
    read (twoLines.print ++ " \n") = .ok twoLines := by
  have hprint : twoLines.print = "\x7b\"scenarios\":[\x7b\"name\":\"a\\" ++
      ("nb\",\"group\":\"\",\"op\":\"neg\",\"operands\":[\"u64:1\"],\"assign\":\"i64\"," ++
        "\"expect\":\x7b\"error\":\"unrepresentable_operation\"\x7d\x7d]\x7d") := by
    decide +kernel
  have hblanks : " \n".toList.all Lexer.isBlank = true := by decide
  obtain ⟨hcut, hother, hblank⟩ := read_whole_text_only twoLines
  exact ⟨hcut _ _ hprint (by decide), hother _ ⟨']', by decide, rfl⟩, hblank _ (List.all_eq_true.mp hblanks)⟩

end Matrix

end FixedWidth
