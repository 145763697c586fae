import FixedWidth.Proofs.Arguments
import FixedWidth.Proofs.Fields
import FixedWidth.Proofs.Positions

/-!
# A literal is the same in a file and on a command line

A file has its literals in JSON texts, which may be spelled in many ways, and a command line has
them as they are. Both read them alike: a text of a file is a value exactly if its content is a
literal, and a list of operands is read exactly if each of them would be an operand among arguments.
One thing is lost on the way, and only from the complaint about a text that is no literal: an ending
that looks like a position (`Echoes`).

> `read_shared_literals`
-/

namespace FixedWidth

open Json

/-- Whether what a file says about a text is what is said elsewhere, but for a position at its
end. -/
structure Echoes (said : String) (source : String) : Prop where
  plain : (∀ front suffix, source.toList = front ++ suffix → ¬ IsPosition suffix) → said = source
  position : ∀ front suffix, source.toList = front ++ suffix → IsPosition suffix →
    said = String.ofList front

/-- A complaint about a literal is the one of the command line. -/
theorem echoes_invalidLiteral (cause : LiteralError) :
    Echoes (Mismatch.invalidLiteral cause).message (EvalError.invalidLiteral cause).message where
  plain h := by
    have hself : withoutPosition cause.message.toList = cause.message.toList :=
      withoutPosition_eq_self h
    show String.ofList (withoutPosition cause.message.toList) = cause.message
    rw [hself, String.ofList_toList]
  position front suffix h hsuffix := by
    have hmessage : cause.message.toList = front ++ suffix := h
    show String.ofList (withoutPosition cause.message.toList) = _
    rw [hmessage, withoutPosition_append front hsuffix]

/-! ## One literal -/

/-- A text that is no literal is refused as a value, for the same reason. -/
theorem Value.refuses_text {literal : String} {cause : LiteralError}
    (h : Literal.read literal = .error cause) :
    Refuses Value.reader (Layout.text literal) (.mismatch (.invalidLiteral cause)) := by
  refine .bind_nil (Reads.text literal) ?_
  rw [h]
  exact .fail _ []

/-- An expectation has no more to say than that it is none. -/
theorem Expectation.refuses_text (room : Nat) {literal : String} {cause : LiteralError}
    (h : Literal.read literal = .error cause) :
    Refuses (Expectation.reader room) (Layout.text literal)
      (.mismatch (.noVariant "Expectation")) := by
  have htree : ofTree? (.text literal) = none := by
    show (Literal.read literal).toOption.map Expectation.value = none
    rw [h]
    rfl
  refine .bind_nil (Tree.reads_text .kept room literal) ?_
  rw [htree]
  exact .fail _ []

theorem Expectation.reads_text (room : Nat) {literal : String} {v : Value}
    (h : Literal.read literal = .ok v) :
    Reads (Expectation.reader room) (Layout.text literal) (.value v) :=
  reads_of_tree (Tree.reads_text .kept room literal) (ofTree?_text h)

/-- A reader that takes just the literals, and makes of each a result that tells its value. -/
theorem Literal.read_iff {α : Type} {reader : Reader α} {literal text : String}
    {e : LiteralError → Error} {make : Value → α} (hmake : Function.Injective make)
    (hspells : Spells (Layout.text literal) text.toList)
    (hreads : ∀ v, Literal.read literal = .ok v → Reads reader (Layout.text literal) (make v))
    (hrefuses : ∀ cause, Literal.read literal = .error cause →
      Refuses reader (Layout.text literal) (e cause)) :
    (∀ v, reader.read text = .ok (make v) ↔ Literal.read literal = .ok v) ∧
    ∀ cause, Literal.read literal = .error cause → reader.read text = .error (e cause) := by
  refine ⟨?_, fun cause h => Reader.read_of_refuses (hrefuses cause h) hspells⟩
  intro v
  cases h : Literal.read literal with
  | ok w =>
    rw [Reader.read_of_spells (hreads w h) hspells, Except.ok.injEq, Except.ok.injEq, hmake.eq_iff]
  | error cause =>
    rw [Reader.read_of_refuses (hrefuses cause h) hspells]
    exact iff_of_false nofun nofun

/-! ## Lists of literals -/

theorem beginsElement_text (content : String) : Reads.BeginsElement (Layout.text content) :=
  ⟨.text (some content), [], rfl, by simp, by simp⟩

/-- Literals are read as an array of values. -/
theorem Literals.reads {texts : List String} {operands : List Value} (h : Literals texts operands) :
    List.Forall₂ (Reads Value.reader) (texts.map Layout.text) operands :=
  List.forall₂_map_left_iff.mpr (h.imp fun _ _ => Value.reads_text)

/-- An array of literals is valid for the operands of a scenario. -/
theorem Literals.holds {texts : List String} {operands : List Value} (h : Literals texts operands) :
    Scenario.Field.Holds .operands (Layout.array (texts.map Layout.text)) operands := by
  have hbegin : ∀ item ∈ texts.map Layout.text, Reads.BeginsElement item :=
    List.forall_mem_map.mpr fun text _ => beginsElement_text text
  have hreads := Reads.array h.reads hbegin []
  rw [List.append_nil] at hreads
  exact hreads

/-- An array of texts is refused for the first that is no literal. -/
theorem Literals.refuses_array {front back : List String} {text : String} {operands : List Value}
    {cause : LiteralError} (h : Literals front operands) (htext : Literal.read text = .error cause) :
    Refuses (Reader.array Value.reader) (Layout.array ((front ++ text :: back).map Layout.text))
      (.mismatch (.invalidLiteral cause)) := by
  rw [List.map_append, List.map_cons]
  refine .array h.reads ?_ (Value.refuses_text htext)
  intro written hmem
  rcases List.mem_append.mp hmem with hmem | hmem
  · obtain ⟨content, -, rfl⟩ := List.mem_map.mp hmem
    exact beginsElement_text content
  · exact List.mem_singleton.mp hmem ▸ beginsElement_text text

/-! ## Operands -/

/-- The first operand that is no literal is an error. -/
theorem Command.ofArguments_bad {front back : List String} {text : String} {operands : List Value}
    {cause : LiteralError} (h : Literals front operands) (htext : Request.IsOperand text)
    (hread : Literal.read text = .error cause) (op : Operator) :
    ofArguments ("eval" :: op.name :: (front ++ text :: back)) =
      .error (.evaluation (.invalidLiteral cause)) := by
  have hoffends : Request.Offends (text :: back) (.evaluation (.invalidLiteral cause)) :=
    .badOperand htext hread
  have hbad := ofArguments_of_offends (Request.Piece.sound_literals h none) hoffends op
  rw [Request.Piece.written_operands, List.append_assoc] at hbad
  exact hbad

namespace Scenario

open Request

/-- Whether tokens are an object that has everything a scenario needs, whatever its operands are. -/
inductive HoldsOperands (operands : List Token) : List Token → Prop where
  | object {before after : List Entry} {front back : List (List Token)}
    (hbefore : List.Forall₂ Entry.Written before front)
    (hafter : List.Forall₂ Entry.Written after back)
    (hnodup : (Entry.fields before ++ .operands :: Entry.fields after).Nodup)
    (hneeded : ∀ field ∈ Field.needed,
      field ∈ Entry.fields before ++ .operands :: Entry.fields after) :
    HoldsOperands operands (Layout.object (front ++ Layout.member "operands" operands :: back))

namespace HoldsOperands

variable {tokens written : List Token} (h : HoldsOperands tokens written)

include h

/-- With valid operands there is a scenario, and it has them. -/
theorem exists_reads {operands : List Value} (hheld : Field.Holds .operands tokens operands) :
    ∃ s, Reads (reader Tree.nestingLimit) written s ∧ s.operands = operands := by
  obtain @⟨before, after, front, back, hbefore, hafter, hnodup, hneeded⟩ := h
  have hentries : List.Forall₂ Entry.Written (before ++ .known .operands operands :: after)
      (front ++ Layout.member "operands" tokens :: back) :=
    List.rel_append hbefore (.cons (.known hheld) hafter)
  have hfields : Entry.fields (before ++ .known .operands operands :: after) =
      Entry.fields before ++ .operands :: Entry.fields after :=
    Entry.fields_append ..
  rw [← hfields] at hnodup hneeded
  obtain ⟨s, hs, hreads⟩ := exists_reads_object hentries hnodup hneeded
  have hmem : Entry.known .operands operands ∈ before ++ .known .operands operands :: after :=
    List.mem_append_right _ (List.mem_cons_self ..)
  exact ⟨s, hreads, hs.content .operands operands hmem⟩

/-- Whatever is wrong with the operands is wrong with the scenario. -/
theorem refuses {e : Error} (hvalue : Refuses (Reader.array Value.reader) tokens e) :
    Refuses (reader Tree.nestingLimit) written e := by
  obtain @⟨before, _, _, _, hbefore, _, hnodup, _⟩ := h
  obtain ⟨hearlier, -, hdisjoint⟩ := List.nodup_append.mp hnodup
  have hnew : Field.operands ∉ Entry.fields before := by
    intro hmem
    exact hdisjoint _ hmem _ (List.mem_cons_self ..) rfl
  exact refuses_value hbefore hearlier hnew hvalue

end HoldsOperands

/-- The operands of a scenario are read exactly if the command line takes the same texts for the
same operands. -/
theorem read_operands_iff {texts : List String} {written : List Token} {text : String}
    (h : HoldsOperands (Layout.array (texts.map Layout.text)) written)
    (hspells : Spells written text.toList) (op : Operator) (operands : List Value) :
    (∃ s, (reader Tree.nestingLimit).read text = .ok s ∧ s.operands = operands) ↔
      (∀ operand ∈ texts, IsOperand operand) ∧
      Command.ofArguments ("eval" :: op.name :: texts) =
        .ok (.eval ⟨op, operands, none, false⟩) := by
  -- Both routes stop at the first text that is no literal, or at none.
  rcases literals_cases texts with ⟨values, hvalues⟩ |
    ⟨earlier, bad, later, values, cause, rfl, hvalues, hbad⟩
  · obtain ⟨s, hreads, hoperands⟩ := h.exists_reads hvalues.holds
    have harguments : Command.ofArguments ("eval" :: op.name :: texts) =
        .ok (.eval ⟨op, values, none, false⟩) := by
      rw [← List.append_nil texts]
      exact Command.ofArguments_literals hvalues op none
    rw [Reader.read_of_spells hreads hspells, harguments]
    constructor
    · rintro ⟨s', hs', rfl⟩
      cases hs'
      rw [hoperands]
      exact ⟨isOperand_of_literals hvalues, rfl⟩
    · rintro ⟨-, hsame⟩
      cases hsame
      exact ⟨s, rfl, hoperands⟩
  · rw [Reader.read_of_refuses (h.refuses (hvalues.refuses_array hbad)) hspells]
    refine iff_of_false ?_ ?_
    · rintro ⟨s, hs, -⟩
      cases hs
    · rintro ⟨hall, heq⟩
      have hbadOperand := hall bad (List.mem_append_right _ (List.mem_cons_self ..))
      rw [Command.ofArguments_bad hvalues hbadOperand hbad] at heq
      cases heq

end Scenario

/-- **A literal is the same in a file and on a command line.** However a text of a file is spelled,
it is a value or an expectation exactly if its content is a literal, and otherwise the complaint is
the one about that literal, but for a position at its end, or that there is no such expectation. The
operands of a scenario that lacks nothing else are accepted exactly if the command line takes each
of the texts as an operand, and are the same values. -/
theorem read_shared_literals :
    (∀ literal text : String, Spells (Layout.text literal) text.toList →
      ((∀ v, Value.reader.read text = .ok v ↔ Literal.read literal = .ok v) ∧
        ∀ cause, Literal.read literal = .error cause →
          Value.reader.read text = .error (.mismatch (.invalidLiteral cause)) ∧
          Echoes (Mismatch.invalidLiteral cause).message (EvalError.invalidLiteral cause).message) ∧
      ∀ room,
        (∀ v, (Expectation.reader room).read text = .ok (.value v) ↔
          Literal.read literal = .ok v) ∧
        ∀ cause, Literal.read literal = .error cause →
          (Expectation.reader room).read text = .error (.mismatch (.noVariant "Expectation"))) ∧
    ∀ (texts : List String) (written : List Token) (text : String),
      Scenario.HoldsOperands (Layout.array (texts.map Layout.text)) written →
      Spells written text.toList → ∀ (op : Operator) (operands : List Value),
        (∃ s, (Scenario.reader Tree.nestingLimit).read text = .ok s ∧ s.operands = operands) ↔
          (∀ operand ∈ texts, Request.IsOperand operand) ∧
          Command.ofArguments ("eval" :: op.name :: texts) =
            .ok (.eval ⟨op, operands, none, false⟩) := by
  constructor
  · intro literal text hspells
    refine ⟨?_, ?_⟩
    · obtain ⟨hvalue, herror⟩ := Literal.read_iff Function.injective_id hspells
        (fun _ => Value.reads_text) (fun _ => Value.refuses_text)
      exact ⟨hvalue, fun cause h => ⟨herror cause h, echoes_invalidLiteral cause⟩⟩
    · intro room
      exact Literal.read_iff (fun _ _ => Expectation.value.inj) hspells
        (fun _ => Expectation.reads_text room) (fun _ => Expectation.refuses_text room)
  · intro texts written text h hspells op operands
    exact Scenario.read_operands_iff h hspells op operands

/-- A scenario of which one operand has a tab behind its colon. -/
def tabbed : List Token :=
  Layout.object [
    Layout.member "name" (Layout.text "a"),
    Layout.member "op" (Layout.text "add"),
    Layout.member "operands" (Layout.array [Layout.text "i32:1", Layout.text "u32:\t2"]),
    Layout.member "expect" (Layout.text "i64:3")]

/-- The same as a text. -/
def tabbedText : String :=
  "\x7b\"name\":\"a\",\"op\":\"add\",\"operands\":[\"i32:1\",\"u32:\\t2\"],\"expect\":\"i64:3\"\x7d"

/-- A literal with a tab, which a JSON text has as an escape, by itself and among operands. -/
theorem read_shared_literals_tabbed :
    Value.reader.read "\"u32:\\t2\"" = .ok ⟨.u32, 2⟩ ∧
    ∃ s, (Scenario.reader Tree.nestingLimit).read tabbedText = .ok s ∧
      s.operands = [⟨.i32, 1⟩, ⟨.u32, 2⟩] := by
  have hliteral : Spells (Layout.text "u32:\t2") "\"u32:\\t2\"".toList :=
    spells_print (Layout.allClosed_text "u32:\t2")
  have hbefore : List.Forall₂ Scenario.Entry.Written [.known .name "a", .known .op .add]
      [Layout.member "name" (Layout.text "a"), Layout.member "op" (Layout.text "add")] :=
    .cons (.known rfl) (.cons (.known rfl) .nil)
  have hafter : List.Forall₂ Scenario.Entry.Written [.known .expect (.value ⟨.i64, 3⟩)]
      [Layout.member "expect" (Layout.text "i64:3")] := .cons (.known rfl) .nil
  have hobject : Scenario.HoldsOperands
      (Layout.array (["i32:1", "u32:\t2"].map Layout.text)) tabbed :=
    .object hbefore hafter (by decide) (by decide)
  have hclosed : Layout.AllClosed tabbed := by
    simp [tabbed, Layout.AllClosed, Layout.object, Layout.array, Layout.separated, Layout.member,
      Layout.text, Token.IsClosed]
  have htext : Layout.print tabbed = tabbedText := by
    decide +kernel
  have hspells := spells_print hclosed
  rw [htext] at hspells
  obtain ⟨hone, hlist⟩ := read_shared_literals
  have hread : Literal.read "u32:\t2" = .ok ⟨.u32, 2⟩ := by rfl
  exact ⟨((hone _ _ hliteral).1.1 _).mpr hread,
    (hlist _ _ _ hobject hspells .add _).mpr ⟨by decide, by rfl⟩⟩

/-- What looks like a position at the end of a text is lost from the complaint about it. -/
theorem read_literal_with_position :
    Spells (Layout.text "x at line 0 column 1") "\"x at line 0 column 1\"".toList ∧
    Literal.read "x at line 0 column 1" = .error (.noColon "x at line 0 column 1") ∧
    Value.reader.read "\"x at line 0 column 1\"" =
      .error (.mismatch (.invalidLiteral (.noColon "x at line 0 column 1"))) ∧
    (Mismatch.invalidLiteral (.noColon "x at line 0 column 1")).message =
      "Invalid literal: expected type:value, got x" ∧
    (EvalError.invalidLiteral (.noColon "x at line 0 column 1")).message =
      "Invalid literal: expected type:value, got x at line 0 column 1" := by
  have hspells : Spells (Layout.text "x at line 0 column 1") "\"x at line 0 column 1\"".toList :=
    spells_print (Layout.allClosed_text "x at line 0 column 1")
  have hread : Literal.read "x at line 0 column 1" = .error (.noColon "x at line 0 column 1") := by
    rfl
  exact ⟨hspells, hread, Reader.read_of_refuses (Value.refuses_text hread) hspells,
    by decide +kernel, by decide⟩

end FixedWidth
