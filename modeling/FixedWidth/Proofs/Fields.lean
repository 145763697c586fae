import FixedWidth.Proofs.Forms
import FixedWidth.Proofs.Refusing
import FixedWidth.Proofs.Stability
import Mathlib.Data.List.Induction
import Mathlib.Data.List.Nodup

/-!
# Each field once, and no needed one missing

An object is read as a scenario member by member. The members are fields with what they hold
(`Entry`), valid if the reader of the field accepts their tokens (`Field.Holds`), and members under
keys that nobody knows. Of the fields nothing counts but their order: the first that comes a second
time is the error (`FirstRepeat`), and there is always a first one if one comes twice
(`exists_firstRepeat`); without a repeat the first needed field that is missing is, in the order of
the fields and not in that of the text.

The members in front of a repeat are read as those of some scenario that has what they hold
(`exists_scenario`), so what is known about drafts of a scenario says which fields have been seen.

> `read_fields`
-/

namespace FixedWidth

open Json

namespace Scenario

/-! ## What a field holds -/

namespace Field

/-- What a field holds. -/
def Content : Field → Type
  | name | group => String
  | op => Operator
  | operands => List Value
  | assign => Option IntType
  | expect => Expectation

/-- The reader of what a field holds. -/
def reader (room : Nat) : (field : Field) → Reader field.Content
  | name | group => Reader.text
  | op => Operator.reader
  | operands => Reader.array Value.reader
  | assign => Reader.optional IntType.reader
  | expect => Expectation.reader room

/-- Whether tokens are valid for a field of a scenario: what its reader makes of them by themselves.
One bracket of those that a text may open is that of the scenario. -/
def Holds (field : Field) (written : List Token) (content : field.Content) : Prop :=
  field.reader (Tree.nestingLimit - 1) written = .ok (content, [])

/-- The fields that a scenario cannot do without, in order. -/
def needed : List Field := [name, op, operands, expect]

end Field

theorem stable_value : Stable Value.reader := by
  refine Stable.text.bind fun literal => ?_
  cases Literal.read literal with
  | ok v => exact .pure v
  | error cause => exact .fail _

/-- An expectation is one value, whatever is made of it afterwards. -/
theorem stable_expectation (room : Nat) : Stable (Expectation.reader room) := by
  refine (Tree.stable .kept room).bind fun tree => ?_
  cases Expectation.ofTree? tree with
  | some expectation => exact .pure expectation
  | none => exact .fail _

/-- Every field is read without a look at what follows it. -/
theorem Field.stable (room : Nat) (field : Field) : Stable (field.reader room) := by
  cases field with
  | name => exact .text
  | group => exact .text
  | op => exact .choice _ _
  | operands => exact stable_value.array
  | assign => exact .optional rfl (.choice _ _)
  | expect => exact stable_expectation room

/-- What a scenario has in a field. -/
def content (s : Scenario) : (field : Field) → field.Content
  | .name => s.name
  | .group => s.group
  | .op => s.op
  | .operands => s.operands
  | .assign => s.assign
  | .expect => s.expect

/-- The scenario with something else in a field. -/
def put (s : Scenario) : (field : Field) → field.Content → Scenario
  | .name, x => { s with name := x }
  | .group, x => { s with group := x }
  | .op, x => { s with op := x }
  | .operands, x => { s with operands := x }
  | .assign, x => { s with assign := x }
  | .expect, x => { s with expect := x }

theorem content_put (s : Scenario) (field : Field) (x : field.Content) :
    (s.put field x).content field = x := by
  cases field <;> rfl

theorem content_put_of_ne (s : Scenario) {field other : Field} (x : field.Content)
    (h : other ≠ field) : (s.put field x).content other = s.content other := by
  cases field <;> cases other <;> first | rfl | exact absurd rfl h

/-- A value that is accepted by itself is read as the field of a scenario that has it. -/
theorem Field.Holds.reads {field : Field} {written : List Token} {s : Scenario}
    (h : field.Holds written (s.content field)) :
    Draft.ReadsField (Tree.nestingLimit - 1) s field written := by
  have hreads := (field.stable _).reads h
  cases field <;> exact hreads

/-! ## Members -/

/-- A member of an object in the eyes of a scenario: a field with what it holds, or nothing. -/
inductive Entry where
  | known (field : Field) (content : field.Content)
  | unknown

namespace Entry

/-- The field of a member, if it has one. -/
def field? : Entry → Option Field
  | known field _ => some field
  | unknown => none

/-- The fields of members, in the order of the members. -/
def fields (entries : List Entry) : List Field := (entries.map field?).reduceOption

/-- Whether tokens are such a member. -/
inductive Written : Entry → List Token → Prop where
  | known {field : Field} {content : field.Content} {value : List Token}
    (h : field.Holds value content) : Written (known field content) (Layout.member field.key value)
  | unknown {depth : Nat} {written : List Token}
    (h : IsUnknown .skipped depth (Field.all.map Field.key) written) : Written unknown written

theorem fields_known (field : Field) (content : field.Content) (entries : List Entry) :
    fields (known field content :: entries) = field :: fields entries :=
  List.reduceOption_cons_of_some ..

theorem fields_unknown (entries : List Entry) : fields (unknown :: entries) = fields entries :=
  List.reduceOption_cons_of_none ..

theorem fields_append (front back : List Entry) :
    fields (front ++ back) = fields front ++ fields back := by
  unfold fields
  rw [List.map_append, List.reduceOption_append]

theorem mem_fields {entries : List Entry} {field : Field} {content : field.Content}
    (h : known field content ∈ entries) : field ∈ fields entries :=
  List.reduceOption_mem_iff.mpr (List.mem_map_of_mem (f := field?) h)

/-- Whether a scenario has what some members hold, and the defaults for the fields that may be left
out and are. -/
structure Describe (entries : List Entry) (s : Scenario) : Prop where
  content : ∀ field x, known field x ∈ entries → s.content field = x
  group : .group ∉ fields entries → s.group = ""
  assign : .assign ∉ fields entries → s.assign = none

/-- A member that says nothing changes nothing. -/
theorem Describe.cons_unknown {entries : List Entry} {s : Scenario} (h : Describe entries s) :
    Describe (unknown :: entries) s := by
  obtain ⟨hcontent, hgroup, hassign⟩ := h
  rw [← fields_unknown] at hgroup hassign
  refine ⟨?_, hgroup, hassign⟩
  intro field x hmem
  exact hcontent field x ((List.mem_cons.mp hmem).resolve_left nofun)

/-- A field that is new changes nothing of what the others hold. -/
theorem Describe.cons_known {entries : List Entry} {s : Scenario} (h : Describe entries s)
    {field : Field} (hnew : field ∉ fields entries) (content : field.Content) :
    Describe (known field content :: entries) (s.put field content) := by
  -- A field without any entry is neither the new one nor among the others.
  have hkeeps : ∀ other, other ∉ fields (known field content :: entries) →
      (s.put field content).content other = s.content other ∧ other ∉ fields entries := by
    intro other hother
    rw [fields_known] at hother
    obtain ⟨hne, habsent⟩ := List.ne_and_not_mem_of_not_mem_cons hother
    exact ⟨s.content_put_of_ne content hne, habsent⟩
  refine ⟨?_, ?_, ?_⟩
  · intro other x hmem
    rcases List.mem_cons.mp hmem with hsame | hlater
    · cases hsame
      exact s.content_put field content
    · have hne : other ≠ field := by
        rintro rfl
        exact hnew (mem_fields hlater)
      rw [s.content_put_of_ne content hne]
      exact h.content other x hlater
  · intro habsent
    obtain ⟨hkept, habsent⟩ := hkeeps .group habsent
    exact hkept.trans (h.group habsent)
  · intro habsent
    obtain ⟨hkept, habsent⟩ := hkeeps .assign habsent
    exact hkept.trans (h.assign habsent)

/-- Members of which no two have one field describe a scenario. -/
theorem exists_scenario {entries : List Entry} (h : (fields entries).Nodup) :
    ∃ s, Describe entries s := by
  induction entries with
  | nil =>
    -- Nothing is said of the fields that have no default.
    exact ⟨⟨"", "", .add, [], none, .error .divisionByZero⟩, nofun, fun _ => rfl, fun _ => rfl⟩
  | cons entry entries ih =>
    cases entry with
    | unknown =>
      rw [fields_unknown] at h
      obtain ⟨s, hs⟩ := ih h
      exact ⟨s, hs.cons_unknown⟩
    | known field content =>
      rw [fields_known] at h
      obtain ⟨hnew, hrest⟩ := List.nodup_cons.mp h
      obtain ⟨s, hs⟩ := ih hrest
      exact ⟨s.put field content, hs.cons_known hnew content⟩

/-- Members that are described are read as the fields of the scenario. -/
theorem takesMembers {entries : List Entry} {members : List (List Token)} {s : Scenario}
    (h : List.Forall₂ Written entries members)
    (hs : ∀ field x, known field x ∈ entries → s.content field = x) :
    List.Forall₂ (Draft.TakesMember (Tree.nestingLimit - 1) s) (entries.map field?) members := by
  induction h with
  | nil => exact .nil
  | @cons entry written entries members hmember _ ih =>
    have hrest := ih fun field x hmem => hs field x (List.mem_cons_of_mem _ hmem)
    refine .cons ?_ hrest
    cases hmember with
    | unknown h => exact .unknown h
    | @known field content value h =>
      have hcontent := hs field content (List.mem_cons_self ..)
      exact .field (hcontent ▸ h : field.Holds value (s.content field)).reads

/-- Members without a repeat are read to a draft that knows their fields. -/
theorem exists_readsMembers {entries : List Entry} {members : List (List Token)}
    (h : List.Forall₂ Written entries members) (hnodup : (fields entries).Nodup) :
    ∃ s, Describe entries s ∧ Reads.ReadsMembers (Draft.member (Tree.nestingLimit - 1)) {} members
      (Draft.of s (fields entries).reverse) := by
  obtain ⟨s, hs⟩ := exists_scenario hnodup
  have hnone : ∀ field ∈ fields entries, field ∉ [] := fun _ _ => List.not_mem_nil
  have hmembers := Draft.readsMembers (takesMembers h hs.content) hnodup hnone
  rw [List.append_nil] at hmembers
  exact ⟨s, hs, hmembers⟩

end Entry

/-! ## The first repeat -/

/-- Whether a field is the first to come a second time. -/
def FirstRepeat (fields : List Field) (field : Field) : Prop :=
  ∃ before after, fields = before ++ field :: after ∧ before.Nodup ∧ field ∈ before

/-- Where a field comes twice, one is the first to do so. -/
theorem exists_firstRepeat {fields : List Field} (h : ¬ fields.Nodup) :
    ∃ field, FirstRepeat fields field := by
  induction fields using List.reverseRecOn with
  | nil => exact absurd List.nodup_nil h
  | append_singleton front last ih =>
    by_cases hfront : front.Nodup
    · have hlast : last ∈ front := by
        by_contra hnew
        exact h (List.nodup_append.mpr ⟨hfront, List.nodup_singleton last, by
          intro a ha b hb heq
          exact hnew (List.mem_singleton.mp hb ▸ heq ▸ ha)⟩)
      exact ⟨last, front, [], rfl, hfront, hlast⟩
    · obtain ⟨field, before, after, rfl, hbefore⟩ := ih hfront
      refine ⟨field, before, after ++ [last], ?_, hbefore⟩
      rw [List.append_assoc, List.cons_append]

/-- The member that holds a certain field in the order of the fields. -/
theorem Entry.exists_split {entries : List Entry} {front back : List Field} {field : Field}
    (h : fields entries = front ++ field :: back) :
    ∃ before content after, entries = before ++ known field content :: after ∧
      fields before = front := by
  induction entries generalizing front with
  | nil => exact absurd h.symm (List.append_ne_nil_of_right_ne_nil _ (List.cons_ne_nil _ _))
  | cons entry entries ih =>
    cases entry with
    | unknown =>
      -- Another name is passed over, as it is no place in the order of the fields.
      rw [fields_unknown] at h
      obtain ⟨before, content, after, rfl, hbefore⟩ := ih h
      exact ⟨unknown :: before, content, after, rfl, (fields_unknown before).trans hbefore⟩
    | known first held =>
      rw [fields_known] at h
      cases front with
      | nil =>
        obtain ⟨rfl, -⟩ := List.cons.inj h
        exact ⟨[], held, entries, rfl, rfl⟩
      | cons next front =>
        obtain ⟨rfl, hrest⟩ := List.cons.inj h
        obtain ⟨before, content, after, rfl, hbefore⟩ := ih hrest
        refine ⟨known first held :: before, content, after, rfl, ?_⟩
        rw [fields_known, hbefore]

/-! ## What the reader says -/

/-- A field that has been seen is refused before its value is looked at. -/
theorem Draft.refuses_member (room : Nat) {s : Scenario} {known : List Field} {field : Field}
    (h : field ∈ known) (written : List Token) :
    Refuses ((Draft.of s known).member room field.key) written
      (.mismatch (.duplicateField field.key)) := by
  unfold member
  rw [Field.ofKey?_key]
  show Refuses (if (of s known).has field = true then _ else _) _ _
  rw [has_of, decide_eq_true h, if_pos rfl]
  exact .fail _ written

/-- A field that has not been seen is refused if its value is. -/
theorem Draft.refuses_fill {room : Nat} {s : Scenario} {known : List Field} {field : Field}
    (h : field ∉ known) {written : List Token} {e : Error}
    (hvalue : Refuses (field.reader room) written e) :
    Refuses ((Draft.of s known).member room field.key) (.colon :: written) e := by
  have hfill : Refuses ((Draft.of s known).fill room field) written e := by
    cases field
    all_goals exact Refuses.bind_first hvalue _
  unfold member
  rw [Field.ofKey?_key]
  show Refuses (if (of s known).has field = true then _ else _) _ _
  rw [has_of, decide_eq_false h, if_neg Bool.false_ne_true]
  exact .bind (Reads.expect .colon) hfill

/-- A field is asked for: either it is the one that is missing, or a later one is. -/
theorem Draft.need_missing {α : Type} {known rest : List Field} {asked field : Field}
    {β : Type} {x : α} {next : α → Except Mismatch β}
    (h : (asked :: rest).find? (· ∉ known) = some field)
    (hnext : rest.find? (· ∉ known) = some field → next x = .error (.missingField field.key)) :
    (need asked (if asked ∈ known then some x else none) >>= next) =
      .error (.missingField field.key) := by
  by_cases hasked : asked ∈ known
  · rw [List.find?_cons_of_neg (by simpa using hasked)] at h
    rw [if_pos hasked]
    exact hnext h
  · rw [List.find?_cons_of_pos (by simpa using hasked)] at h
    cases h
    rw [if_neg hasked]
    rfl

/-- The first needed field that is not known is missing. -/
theorem Draft.finish_missing (s : Scenario) {known : List Field} {field : Field}
    (h : Field.needed.find? (· ∉ known) = some field) :
    (Draft.of s known).finish = .error (.missingField field.key) :=
  need_missing h fun h => need_missing h fun h => need_missing h fun h => need_missing h nofun

section

variable {entries : List Entry} {members : List (List Token)}

/-- What comes after the first repeat is not looked at. -/
theorem refuses_repeat (h : List.Forall₂ Entry.Written entries members) {field : Field}
    (hrepeat : FirstRepeat (Entry.fields entries) field) :
    Refuses (reader Tree.nestingLimit) (Layout.object members)
      (.mismatch (.duplicateField field.key)) := by
  obtain ⟨_, _, hsplit, hnodup, hmem⟩ := hrepeat
  -- The members are cut where the repeat stands among their fields.
  obtain ⟨before, content, after, rfl, rfl⟩ := Entry.exists_split hsplit
  obtain ⟨front, back, rfl, hfront, hback⟩ : ∃ front back, members = front ++ back ∧
      List.Forall₂ Entry.Written before front ∧
      List.Forall₂ Entry.Written (.known field content :: after) back :=
    ⟨_, _, (List.take_append_drop _ members).symm,
      (List.forall₂_take_append _ _ _ h.flip).flip, (List.forall₂_drop_append _ _ _ h.flip).flip⟩
  cases hback with
  | cons hrepeated _ =>
    cases hrepeated with
    | known _ =>
      obtain ⟨s, -, hmembers⟩ := Entry.exists_readsMembers hfront hnodup
      have hmember := Draft.refuses_member (Tree.nestingLimit - 1) (s := s)
        (List.mem_reverse.mpr hmem)
      exact .mark (fun _ => rfl) ((Refuses.objectRest .kept hmembers (hmember _)).bind_first _)

/-- A field is refused for what it holds, behind members that are read and do not have it. -/
theorem refuses_value {before : List Entry} {front back : List (List Token)}
    (h : List.Forall₂ Entry.Written before front) (hnodup : (Entry.fields before).Nodup)
    {field : Field} (hnew : field ∉ Entry.fields before) {value : List Token} {e : Error}
    (hvalue : Refuses (field.reader (Tree.nestingLimit - 1)) value e) :
    Refuses (reader Tree.nestingLimit)
      (Layout.object (front ++ Layout.member field.key value :: back)) e := by
  obtain ⟨s, -, hmembers⟩ := Entry.exists_readsMembers h hnodup
  have hmember := Draft.refuses_fill (s := s) (mt List.mem_reverse.mp hnew) hvalue
  exact .mark (fun _ => rfl) ((Refuses.objectRest .kept hmembers hmember).bind_first _)

/-- All members are read before anything is missed. -/
theorem refuses_missing (h : List.Forall₂ Entry.Written entries members)
    (hnodup : (Entry.fields entries).Nodup) {field : Field}
    (hmissing : Field.needed.find? (· ∉ Entry.fields entries) = some field) :
    Refuses (reader Tree.nestingLimit) (Layout.object members)
      (.mismatch (.missingField field.key)) := by
  obtain ⟨s, -, hmembers⟩ := Entry.exists_readsMembers h hnodup
  have hfinish : (Draft.of s (Entry.fields entries).reverse).finish =
      .error (.missingField field.key) := by
    refine Draft.finish_missing s ?_
    simpa only [List.mem_reverse] using hmissing
  refine .mark (fun _ => rfl) (.bind_nil (Reads.objectRest .kept hmembers) ?_)
  rw [hfinish]
  exact .fail _ []

/-- With every needed field and no repeat there is a scenario, and it has what the members hold. -/
theorem exists_reads_object (h : List.Forall₂ Entry.Written entries members)
    (hnodup : (Entry.fields entries).Nodup)
    (hneeded : ∀ field ∈ Field.needed, field ∈ Entry.fields entries) :
    ∃ s, Entry.Describe entries s ∧ Reads (reader Tree.nestingLimit) (Layout.object members) s := by
  obtain ⟨s, hs, hmembers⟩ := Entry.exists_readsMembers h hnodup
  have hknown : ∀ field ∈ Field.needed, field ∈ (Entry.fields entries).reverse := by
    intro field hfield
    exact List.mem_reverse.mpr (hneeded field hfield)
  have hfinish : (Draft.of s (Entry.fields entries).reverse).finish = .ok s :=
    Draft.finish_of (hknown .name (by decide)) (hknown .op (by decide))
      (hknown .operands (by decide)) (hknown .expect (by decide))
      (fun habsent => hs.group (mt List.mem_reverse.mpr habsent))
      (fun habsent => hs.assign (mt List.mem_reverse.mpr habsent))
  refine ⟨s, hs, .mark (fun _ => rfl) ((Reads.objectRest .kept hmembers).bind_nil ?_)⟩
  rw [hfinish]
  exact Reads.pure s

/-- What is read as a scenario has neither a repeat nor a gap: either would be an error. -/
theorem fields_of_read (h : List.Forall₂ Entry.Written entries members) {text : String}
    (hspells : Spells (Layout.object members) text.toList) {s : Scenario}
    (hs : (reader Tree.nestingLimit).read text = .ok s) :
    (Entry.fields entries).Nodup ∧ ∀ field ∈ Field.needed, field ∈ Entry.fields entries := by
  have hnodup : (Entry.fields entries).Nodup := by
    by_contra hdup
    obtain ⟨field, hfield⟩ := exists_firstRepeat hdup
    rw [Reader.read_of_refuses (refuses_repeat h hfield) hspells] at hs
    cases hs
  refine ⟨hnodup, ?_⟩
  cases hfind : Field.needed.find? (· ∉ Entry.fields entries) with
  | none => simpa using List.find?_eq_none.mp hfind
  | some field =>
    rw [Reader.read_of_refuses (refuses_missing h hnodup hfind) hspells] at hs
    cases hs

end

/-- **A field that comes twice is the error, or else a needed one that is missing.** The keys of the
object are fields and other names in any order, and its values are valid. Which repeat is reported
depends on the text, and which missing field on the order of the fields; where there is neither, the
scenario has what the fields hold. -/
theorem read_fields {entries : List Entry} {members : List (List Token)} {text : String}
    (h : List.Forall₂ Entry.Written entries members)
    (hspells : Spells (Layout.object members) text.toList) :
    (¬ (Entry.fields entries).Nodup → ∃ field, FirstRepeat (Entry.fields entries) field) ∧
    (∀ field, FirstRepeat (Entry.fields entries) field →
      (reader Tree.nestingLimit).read text = .error (.mismatch (.duplicateField field.key))) ∧
    ((Entry.fields entries).Nodup → ∀ field,
      Field.needed.find? (· ∉ Entry.fields entries) = some field →
      (reader Tree.nestingLimit).read text = .error (.mismatch (.missingField field.key))) ∧
    ((∃ s, (reader Tree.nestingLimit).read text = .ok s) ↔
      (Entry.fields entries).Nodup ∧ ∀ field ∈ Field.needed, field ∈ Entry.fields entries) ∧
    ∀ s, (reader Tree.nestingLimit).read text = .ok s → Entry.Describe entries s := by
  refine ⟨exists_firstRepeat, ?_, ?_, ⟨?_, ?_⟩, ?_⟩
  · intro field hfield
    exact Reader.read_of_refuses (refuses_repeat h hfield) hspells
  · intro hnodup field hfield
    exact Reader.read_of_refuses (refuses_missing h hnodup hfield) hspells
  · rintro ⟨s, hs⟩
    exact fields_of_read h hspells hs
  · rintro ⟨hnodup, hneeded⟩
    obtain ⟨s, -, hreads⟩ := exists_reads_object h hnodup hneeded
    exact ⟨s, Reader.read_of_spells hreads hspells⟩
  · intro s hs
    obtain ⟨hnodup, hneeded⟩ := fields_of_read h hspells hs
    obtain ⟨s', hs', hreads⟩ := exists_reads_object h hnodup hneeded
    rw [Reader.read_of_spells hreads hspells] at hs
    cases hs
    exact hs'

/-- An object with two fields that come twice, and without a name. -/
def repeated : List Token :=
  Layout.object [
    Layout.member "op" (Layout.text "neg"),
    Layout.member "x" [.null],
    Layout.member "group" (Layout.text "g"),
    Layout.member "op" (Layout.text "add"),
    Layout.member "group" (Layout.text "h")]

/-- The operator is the first to come again; without what comes from there on, the name would be
missing. -/
theorem read_fields_repeated :
    (reader Tree.nestingLimit).read
        "\x7b\"op\":\"neg\",\"x\":null,\"group\":\"g\",\"op\":\"add\",\"group\":\"h\"\x7d" =
      .error (.mismatch (.duplicateField "op")) := by
  have hunknown : IsUnknown .skipped 0 (Field.all.map Field.key) (Layout.member "x" [.null]) :=
    ⟨"x", [.null], rfl, by decide, .scalar trivial⟩
  have hentries : List.Forall₂ Entry.Written
      [.known .op .neg, .unknown, .known .group "g", .known .op .add, .known .group "h"]
      [Layout.member "op" (Layout.text "neg"), Layout.member "x" [.null],
        Layout.member "group" (Layout.text "g"), Layout.member "op" (Layout.text "add"),
        Layout.member "group" (Layout.text "h")] :=
    .cons (.known rfl) (.cons (.unknown hunknown)
      (.cons (.known rfl) (.cons (.known rfl) (.cons (.known rfl) .nil))))
  have hclosed : Layout.AllClosed repeated := by
    simp [repeated, Layout.AllClosed, Layout.object, Layout.separated, Layout.member, Layout.text,
      Token.IsClosed]
  have htext : Layout.print repeated =
      "\x7b\"op\":\"neg\",\"x\":null,\"group\":\"g\",\"op\":\"add\",\"group\":\"h\"\x7d" := by
    decide +kernel
  have hspells := spells_print hclosed
  rw [htext] at hspells
  exact (read_fields hentries hspells).2.1 .op
    ⟨[.op, .group], [.group], rfl, by decide, List.mem_cons_self ..⟩

end Scenario

end FixedWidth
