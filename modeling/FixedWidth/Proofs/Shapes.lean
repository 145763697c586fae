import FixedWidth.Proofs.Reading

/-!
# Values of any shape are taken whole

A value of no known shape stands where an object has a field that nobody asked for. `IsValue` is the
grammar of such values, with the depth of their brackets. What may be in one depends on its use: of
a value that is only skipped, neither texts nor numbers nor keys need a content.

- `exists_reads`: as many brackets as a value nests are room enough to read it, and all of its
  tokens are taken;
- `resize`: there are never more brackets than tokens, so the tokens of a value are room enough too.

> `reads_skip`: a value is skipped with exactly its own tokens, however deep it nests.
-/

namespace FixedWidth.Json

/-- Whether a token is a value by itself, for a reader that makes a certain use of it. -/
def Token.IsScalar (use : Use) : Token → Prop
  | null | bool _ | text (some _) | number (some _) => True
  | text none | number none => use = .skipped
  | _ => False

/-- Whether tokens are a value whose brackets nest to a certain depth at most. -/
inductive IsValue (use : Use) : (depth : Nat) → List Token → Prop where
  | scalar {depth : Nat} {token : Token} (h : token.IsScalar use) : IsValue use depth [token]
  | array {depth : Nat} {items : List (List Token)} (h : ∀ item ∈ items, IsValue use depth item) :
    IsValue use (depth + 1) (Layout.array items)
  | object {depth : Nat} {members : List (Option String × List Token)}
    (hkeys : ∀ m ∈ members, (Token.text m.1).IsScalar use)
    (h : ∀ m ∈ members, IsValue use depth m.2) :
    IsValue use (depth + 1) (Layout.object (members.map fun m => .text m.1 :: .colon :: m.2))

namespace Layout

theorem length_item_le {item : List Token} {items : List (List Token)}
    (h : item ∈ items) : item.length ≤ (separated items).length := by
  induction items with
  | nil => cases h
  | cons first rest ih =>
    rw [separated_cons, List.length_append]
    rcases List.mem_cons.mp h with rfl | hrest
    · exact Nat.le_add_right _ _
    · cases rest with
      | nil => cases hrest
      | cons next rest =>
        have hlater := ih hrest
        rw [separated_cons, List.length_append] at hlater
        rw [List.flatMap_cons, List.cons_append, List.length_cons, List.length_append]
        omega

end Layout

namespace IsValue

variable {use : Use} {depth : Nat} {written : List Token}

/-- A value fits into as much room as it nests, and into as much as it has tokens. -/
theorem resize (h : IsValue use depth written) {room : Nat}
    (hroom : depth ≤ room ∨ written.length ≤ room) : IsValue use room written := by
  induction h generalizing room with
  | scalar h => exact .scalar h
  | @array depth items _ ih =>
    simp only [Layout.array, List.cons_append, List.length_cons, List.length_append] at hroom
    -- By either bound there is room for one bracket more than for what is inside it.
    obtain ⟨room, rfl⟩ : ∃ smaller, room = smaller + 1 := ⟨room - 1, by omega⟩
    refine .array ?_
    intro item hitem
    have hlength := Layout.length_item_le hitem
    exact ih item hitem (by omega)
  | @object depth members hkeys _ ih =>
    simp only [Layout.object, List.cons_append, List.length_cons, List.length_append] at hroom
    obtain ⟨room, rfl⟩ : ∃ smaller, room = smaller + 1 := ⟨room - 1, by omega⟩
    refine .object hkeys ?_
    intro m hm
    have hlength := Layout.length_item_le
      (List.mem_map_of_mem (f := fun m => Token.text m.1 :: .colon :: m.2) hm)
    simp only [List.length_cons] at hlength
    exact ih m hm (by omega)

theorem beginsElement (h : IsValue use depth written) : Reads.BeginsElement written := by
  cases h with
  | @scalar _ token h =>
    refine ⟨token, [], rfl, ?_, ?_⟩
    · rintro rfl
      exact h
    · rintro rfl
      exact h
  | array => exact ⟨.openSquare, _, rfl, by simp, by simp⟩
  | object => exact ⟨.openCurly, _, rfl, by simp, by simp⟩

end IsValue

namespace Tree

variable {use : Use} {depth : Nat}

/-- A token that is a value by itself is read as some value. -/
theorem exists_ofToken {token : Token} (h : token.IsScalar use) :
    ∃ tree, ofToken use token = .ok tree := by
  cases token with
  | null => exact ⟨.null, rfl⟩
  | bool value => exact ⟨.bool value, rfl⟩
  | text content =>
    cases content with
    | none => exact ⟨.null, if_pos h⟩
    | some content => exact ⟨.text content, rfl⟩
  | number value =>
    cases value with
    | none => exact ⟨.null, if_pos h⟩
    | some value => exact ⟨.number value, rfl⟩
  | _ => exact absurd h id

theorem exists_reads_scalar {token : Token} (h : token.IsScalar use) (depth : Nat) :
    ∃ tree, Reads (reader use depth) [token] tree := by
  obtain ⟨tree, htree⟩ := exists_ofToken h
  have hmap : ∀ rest : List Token, (ofToken use token).map (·, rest) = .ok (tree, rest) := by
    intro rest
    rw [htree]
    rfl
  refine ⟨tree, fun rest => ?_⟩
  rw [← hmap rest]
  cases token with
  | openSquare => exact absurd h id
  | openCurly => exact absurd h id
  | _ => cases depth <;> rfl

/-- A key that is a scalar for the use is read, if only as the empty one. -/
theorem exists_reads_key {content : Option String} (h : (Token.text content).IsScalar use) :
    ∃ name, Reads (Reader.key use) [.text content] name := by
  cases content with
  | some name => exact ⟨name, Reads.key use name⟩
  | none => exact ⟨"", fun rest => if_pos h⟩

/-- Values of which each is read by itself are read as a list. -/
theorem exists_forall₂ {item : Reader Tree} {items : List (List Token)}
    (h : ∀ written ∈ items, ∃ tree, Reads item written tree) :
    ∃ trees, List.Forall₂ (Reads item) items trees := by
  induction items with
  | nil => exact ⟨[], .nil⟩
  | cons written items ih =>
    obtain ⟨tree, htree⟩ := h written (List.mem_cons_self ..)
    obtain ⟨trees, htrees⟩ := ih fun w hw => h w (List.mem_cons_of_mem _ hw)
    exact ⟨tree :: trees, .cons htree htrees⟩

/-- An array of unknown shape is read element by element; it takes one bracket of the room. -/
theorem reads_array {items : List (List Token)} {trees : List Tree}
    (h : List.Forall₂ (Reads (reader use depth)) items trees)
    (hbegin : ∀ written ∈ items, Reads.BeginsElement written) :
    Reads (reader use (depth + 1)) (Layout.array items) (.array trees) := by
  have hitems : Reads (Reader.arrayRest (reader use depth))
      (Layout.separated items ++ [.closeSquare]) trees := Reads.array h hbegin
  exact hitems.map array

/-- Members of which each is read by itself are taken one after another. -/
theorem exists_takesMembers {members : List (Option String × List Token)}
    (hkeys : ∀ m ∈ members, (Token.text m.1).IsScalar use)
    (h : ∀ m ∈ members, ∃ tree, Reads (reader use depth) m.2 tree)
    (soFar : List (String × Tree)) :
    ∃ trees, Reads.TakesMembers use (fun members name => do
        Reader.expect .colon
        return (name, ← reader use depth) :: members) soFar
      (members.map fun m => .text m.1 :: .colon :: m.2) trees := by
  induction members generalizing soFar with
  | nil => exact ⟨soFar, .nil soFar⟩
  | cons m members ih =>
    obtain ⟨name, hname⟩ := exists_reads_key (hkeys m (List.mem_cons_self ..))
    obtain ⟨tree, htree⟩ := h m (List.mem_cons_self ..)
    obtain ⟨trees, htrees⟩ := ih (fun m' hm => hkeys m' (List.mem_cons_of_mem _ hm))
      (fun m' hm => h m' (List.mem_cons_of_mem _ hm)) ((name, tree) :: soFar)
    exact ⟨trees, .cons hname
      ((Reads.expect .colon).bind (htree.map fun tree => (name, tree) :: soFar)) htrees⟩

/-- As many brackets as a value nests are room enough to read it. -/
theorem exists_reads {written : List Token} (h : IsValue use depth written) :
    ∃ tree, Reads (reader use depth) written tree := by
  induction h with
  | scalar h => exact exists_reads_scalar h _
  | array h ih =>
    obtain ⟨trees, htrees⟩ := exists_forall₂ ih
    exact ⟨.array trees, reads_array htrees fun written hw => (h written hw).beginsElement⟩
  | object hkeys _ ih =>
    obtain ⟨trees, htrees⟩ := exists_takesMembers hkeys ih []
    exact ⟨.object trees.reverse, (Reads.objectRest_takes htrees).map _⟩

/-- A value is skipped with exactly its own tokens. -/
theorem reads_skip {written : List Token} (h : IsValue .skipped depth written) :
    Reads skip written () := by
  intro rest
  have hfits : written.length ≤ (written ++ rest).length := by
    rw [List.length_append]
    exact Nat.le_add_right _ _
  obtain ⟨tree, htree⟩ := exists_reads (h.resize (.inr hfits))
  show (reader .skipped (written ++ rest).length (written ++ rest) >>= _) = _
  rw [htree]
  rfl

end Tree

end FixedWidth.Json
