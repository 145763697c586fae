import FixedWidth.Json.Tree
import FixedWidth.Proofs.Lexing
import Mathlib.Data.List.Forall2

/-!
# Reading what has been written

A reader reads written tokens as a value if it takes exactly them off the front, whatever comes
after (`Reads`). The relation goes through the readers one by one: a sequence of readers reads the
tokens of its parts, an array those of its elements, an object those of its members. The loops look
one token ahead for a closing bracket or a comma, so an element has to begin with neither of them
(`BeginsElement`), and that first token also pays for the bound of the loop.

The members of an object change what has been read so far one after another (`ReadsMembers`), in
whatever order they stand; what is asked of each is only its own step.

> `read_print`: a text printed from such tokens is read as their value, if every token is closed.
-/

namespace FixedWidth.Json

/-! ## Tokens of layouts -/

namespace Layout

/-- What comes after the first of several parts: each of the others behind a comma. -/
theorem separated_cons (item : List Token) (rest : List (List Token)) :
    separated (item :: rest) = item ++ rest.flatMap (.comma :: ·) := by
  induction rest generalizing item with
  | nil => exact (List.append_nil item).symm
  | cons next rest ih =>
    rw [separated, ih, List.flatMap_cons]
    rfl

/-- Whether every token ends with its own last character. -/
def AllClosed (tokens : List Token) : Prop := ∀ token ∈ tokens, token.IsClosed

theorem AllClosed.nil : AllClosed [] := by
  intro token h
  cases h

theorem AllClosed.cons {token : Token} {tokens : List Token} (h : token.IsClosed)
    (hrest : AllClosed tokens) : AllClosed (token :: tokens) := by
  intro t ht
  rcases List.mem_cons.mp ht with ht | ht
  · exact ht ▸ h
  · exact hrest t ht

theorem AllClosed.append {a b : List Token} (ha : AllClosed a) (hb : AllClosed b) :
    AllClosed (a ++ b) := by
  intro t ht
  rcases List.mem_append.mp ht with ht | ht
  · exact ha t ht
  · exact hb t ht

theorem allClosed_text (content : String) : AllClosed (text content) := .cons trivial .nil

/-- Commas are closed, so lists of closed tokens with commas between them are, too. -/
theorem AllClosed.separated {items : List (List Token)} (h : ∀ item ∈ items, AllClosed item) :
    AllClosed (separated items) := by
  induction items with
  | nil => exact .nil
  | cons item rest ih =>
    have hrest := ih fun i hi => h i (List.mem_cons_of_mem _ hi)
    have hitem := h item (List.mem_cons_self ..)
    cases rest with
    | nil => exact hitem
    | cons next rest => exact hitem.append (.cons trivial hrest)

theorem AllClosed.array {items : List (List Token)} (h : ∀ item ∈ items, AllClosed item) :
    AllClosed (array items) :=
  .cons trivial ((AllClosed.separated h).append (.cons trivial .nil))

theorem AllClosed.member {value : List Token} (key : String) (h : AllClosed value) :
    AllClosed (member key value) := .cons trivial (.cons trivial h)

/-- An object of closed members is closed. -/
theorem AllClosed.object {members : List (List Token)} (h : ∀ m ∈ members, AllClosed m) :
    AllClosed (object members) :=
  .cons trivial ((AllClosed.separated h).append (.cons trivial .nil))

end Layout

/-! ## Readers -/

/-- Whether a reader takes exactly the written tokens off the front, and what value it makes of
them. -/
def Reads {α : Type} (reader : Reader α) (written : List Token) (x : α) : Prop :=
  ∀ rest, reader (written ++ rest) = .ok (x, rest)

namespace Reads

variable {α β σ : Type}

theorem pure (x : α) : Reads (Pure.pure x : Reader α) [] x := by
  intro rest
  rfl

/-- Two readers, one after the other, read what each of them reads. -/
theorem bind {reader : Reader α} {next : α → Reader β} {front back : List Token} {x : α} {y : β}
    (h : Reads reader front x) (hnext : Reads (next x) back y) :
    Reads (reader >>= next) (front ++ back) y := by
  intro rest
  show (reader (front ++ back ++ rest) >>= fun result => next result.1 result.2) = _
  rw [List.append_assoc, h]
  exact hnext rest

/-- A step that takes no tokens. -/
theorem bind_nil {reader : Reader α} {next : α → Reader β} {written : List Token} {x : α} {y : β}
    (h : Reads reader written x) (hnext : Reads (next x) [] y) :
    Reads (reader >>= next) written y := by
  have hboth := h.bind hnext
  rw [List.append_nil] at hboth
  exact hboth

/-- What is made of a value does not change what is taken off. -/
theorem map {reader : Reader α} {written : List Token} {x : α} (f : α → β)
    (h : Reads reader written x) : Reads (f <$> reader) written (f x) := by
  intro rest
  show (reader (written ++ rest) >>= fun result => Pure.pure (f result.1, result.2)) = _
  rw [h]
  rfl

/-- A reader that looks at a token and then goes on with what comes after it. -/
theorem mark {reader inner : Reader α} {token : Token} {written : List Token} {x : α}
    (hcons : ∀ rest, reader (token :: rest) = inner rest) (h : Reads inner written x) :
    Reads reader (token :: written) x := by
  intro rest
  rw [List.cons_append, hcons]
  exact h rest

theorem expect (token : Token) : Reads (Reader.expect token) [token] () := by
  intro rest
  exact if_pos rfl

/-- A bracket that is all that is left of a value already known. -/
theorem closing (token : Token) (x : α) :
    Reads (do Reader.expect token; Pure.pure x) [token] x := (expect token).bind (pure x)

theorem text (content : String) : Reads Reader.text (Layout.text content) content := by
  intro rest
  rfl

theorem named {names : List String} {ofName? : String → Option α} {name : String} {x : α}
    (h : ofName? name = some x) : Reads (Reader.named names ofName? name) [] x := by
  intro rest
  unfold Reader.named
  rw [h]
  rfl

/-- A text that is one of the names is read as what it means. -/
theorem choice {names : List String} {ofName? : String → Option α} {name : String} {x : α}
    (h : ofName? name = some x) : Reads (Reader.choice names ofName?) (Layout.text name) x :=
  .mark (fun _ => rfl) (named h)

/-- A value in a place where `null` may stand, if it does not begin like `null`. -/
theorem optional {reader : Reader α} {content : String} {x : α}
    (h : Reads reader (Layout.text content) x) :
    Reads (Reader.optional reader) (Layout.text content) (some x) := h.map some

/-! ## Arrays -/

/-- Whether tokens begin with one that neither ends an array nor separates its elements. -/
def BeginsElement (written : List Token) : Prop :=
  ∃ token rest, written = token :: rest ∧ token ≠ .closeSquare ∧ token ≠ .comma

theorem BeginsElement.ne_nil {written : List Token} (h : BeginsElement written) :
    written ≠ [] := by
  obtain ⟨token, rest, rfl, -⟩ := h
  exact List.cons_ne_nil token rest

/-- In front of its first element an array is not over. -/
theorem nextElement_first {item : Reader α} {written : List Token} (h : BeginsElement written)
    (rest : List Token) :
    Reader.nextElement true item (written ++ rest) = (some <$> item) (written ++ rest) := by
  obtain ⟨token, tail, rfl, hclose, hcomma⟩ := h
  rw [List.cons_append]
  unfold Reader.nextElement
  split
  next he => cases he
  next he => exact absurd (List.cons.inj he).1 hclose
  next he => exact absurd (List.cons.inj he).1 hcomma
  next => rfl

/-- The elements that come after a first one. -/
theorem elements_later {item : Reader α} {items : List (List Token)} {xs : List α}
    (h : List.Forall₂ (Reads item) items xs) (rest : List Token) {bound : Nat}
    (hbound : items.length < bound) :
    Reader.elements item bound false (items.flatMap (.comma :: ·) ++ .closeSquare :: rest) =
      .ok (xs, .closeSquare :: rest) := by
  induction h generalizing bound with
  | nil =>
    obtain ⟨bound, rfl⟩ := Nat.exists_eq_add_one.mpr hbound
    rfl
  | @cons written x items xs hx _ ih =>
    rw [List.length_cons] at hbound
    obtain ⟨bound, rfl⟩ := Nat.exists_eq_add_one.mpr (Nat.zero_lt_of_lt hbound)
    -- The comma sends the loop to the element, which leaves all that follows it.
    have hlater := ih (Nat.lt_of_succ_lt_succ hbound)
    have hnext := hx.map some (items.flatMap (.comma :: ·) ++ .closeSquare :: rest)
    rw [List.flatMap_cons, List.append_assoc]
    show ((some <$> item) (written ++ _) >>= _) = _
    rw [hnext]
    show (Reader.elements item bound false _ >>= _) = _
    rw [hlater]
    rfl

/-- The loop reads the elements up to the bracket, if its bound is greater than their number. -/
theorem elements {item : Reader α} {items : List (List Token)} {xs : List α}
    (h : List.Forall₂ (Reads item) items xs) (hbegin : ∀ written ∈ items, BeginsElement written)
    (rest : List Token) {bound : Nat} (hbound : items.length < bound) :
    Reader.elements item bound true (Layout.separated items ++ .closeSquare :: rest) =
      .ok (xs, .closeSquare :: rest) := by
  obtain ⟨bound, rfl⟩ := Nat.exists_eq_add_one.mpr (Nat.zero_lt_of_lt hbound)
  cases h with
  | nil => rfl
  | @cons written x items xs hx hxs =>
    have hlater := elements_later hxs rest (Nat.lt_of_succ_lt_succ hbound)
    have hnext := hx.map some (items.flatMap (.comma :: ·) ++ .closeSquare :: rest)
    rw [Layout.separated_cons, List.append_assoc]
    show (Reader.nextElement true item (written ++ _) >>= _) = _
    rw [nextElement_first (hbegin written (List.mem_cons_self ..)), hnext]
    show (Reader.elements item bound false _ >>= _) = _
    rw [hlater]
    rfl

/-- The element in the first place of an array. -/
theorem element_first {item absent : Reader α} {written : List Token} {x : α}
    (h : Reads item written x) (hbegin : BeginsElement written) :
    Reads (Reader.element true item absent) written x := by
  intro rest
  show (Reader.nextElement true item (written ++ rest) >>= _) = _
  rw [nextElement_first hbegin, h.map some]
  rfl

/-- The element in a later place of an array. -/
theorem element_later {item absent : Reader α} {written : List Token} {x : α}
    (h : Reads item written x) :
    Reads (Reader.element false item absent) (.comma :: written) x := by
  intro rest
  show ((some <$> item) (written ++ rest) >>= _) = _
  rw [h.map some]
  rfl

/-- Every part has a token, so there are no more parts than tokens. -/
theorem length_le_length_separated {items : List (List Token)}
    (h : ∀ written ∈ items, written ≠ []) : items.length ≤ (Layout.separated items).length := by
  induction items with
  | nil => exact Nat.le_refl 0
  | cons item rest ih =>
    have hitem := List.length_pos_iff.mpr (h item (List.mem_cons_self ..))
    have hrest := ih fun i hi => h i (List.mem_cons_of_mem _ hi)
    cases rest with
    | nil => exact hitem
    | cons next rest =>
      simp only [Layout.separated, List.length_append, List.length_cons] at hrest ⊢
      omega

/-- An array is read by reading its elements, and the tokens that are left are bound enough. -/
theorem array {item : Reader α} {items : List (List Token)} {xs : List α}
    (h : List.Forall₂ (Reads item) items xs) (hbegin : ∀ written ∈ items, BeginsElement written) :
    Reads (Reader.array item) (Layout.array items) xs := by
  intro rest
  have hlength := length_le_length_separated fun written hmem => (hbegin written hmem).ne_nil
  have hbound : items.length < (Layout.separated items ++ .closeSquare :: rest).length := by
    rw [List.length_append, List.length_cons]
    omega
  have helements := elements h hbegin rest hbound
  show Reader.arrayRest item (Layout.separated items ++ [.closeSquare] ++ rest) = _
  rw [List.append_assoc, List.singleton_append]
  show (Reader.elements item _ true _ >>= _) = _
  rw [helements]
  exact closing .closeSquare xs rest

/-- An array whose elements may be written in several ways. -/
theorem array_forall₂ {item : Reader α} {Spells : List Token → α → Prop}
    (hreads : ∀ {written x}, Spells written x → Reads item written x)
    (hbegin : ∀ {written x}, Spells written x → BeginsElement written)
    {items : List (List Token)} {xs : List α} (h : List.Forall₂ Spells items xs) :
    Reads (Reader.array item) (Layout.array items) xs := by
  refine array (h.imp fun _ _ => hreads) ?_
  clear hreads
  induction h with
  | nil => exact List.forall_mem_nil _
  | cons hx _ ih => exact List.forall_mem_cons.mpr ⟨hbegin hx, ih⟩

theorem forall₂_map {item : Reader α} {write : α → List Token} (h : ∀ x, Reads item (write x) x)
    (xs : List α) : List.Forall₂ (Reads item) (xs.map write) xs :=
  List.forall₂_map_left_iff.mpr (List.forall₂_same.mpr fun x _ => h x)

/-- An array whose elements are all written in one way. -/
theorem array_map {item : Reader α} {write : α → List Token} (h : ∀ x, Reads item (write x) x)
    (hbegin : ∀ x, BeginsElement (write x)) (xs : List α) :
    Reads (Reader.array item) (Layout.array (xs.map write)) xs :=
  array (forall₂_map h xs) (List.forall_mem_map.mpr fun x _ => hbegin x)

/-! ## Objects -/

/-- Whether members, one after another, take what has been read so far from one state to another. A
member is a key and whatever its reader takes after it, the colon included. -/
inductive ReadsMembers (member : σ → String → Reader σ) : σ → List (List Token) → σ → Prop where
  | nil (s : σ) : ReadsMembers member s [] s
  | cons {s t u : σ} {key : String} {written : List Token} {members : List (List Token)}
    (h : Reads (member s key) written t) (hrest : ReadsMembers member t members u) :
    ReadsMembers member s ((.text (some key) :: written) :: members) u

/-- The same where the reader of keys says what a key is: one that is skipped may have no
content. -/
inductive TakesMembers (use : Use) (member : σ → String → Reader σ) :
    σ → List (List Token) → σ → Prop where
  | nil (s : σ) : TakesMembers use member s [] s
  | cons {s t u : σ} {content : Option String} {name : String} {written : List Token}
    {members : List (List Token)} (hkey : Reads (Reader.key use) [.text content] name)
    (h : Reads (member s name) written t) (hrest : TakesMembers use member t members u) :
    TakesMembers use member s ((.text content :: written) :: members) u

theorem key (use : Use) (name : String) : Reads (Reader.key use) [.text (some name)] name := by
  intro rest
  rfl

/-- Keys with content are keys for either use. -/
theorem ReadsMembers.takes (use : Use) {member : σ → String → Reader σ} {s t : σ}
    {written : List (List Token)} (h : ReadsMembers member s written t) :
    TakesMembers use member s written t := by
  induction h with
  | nil s => exact .nil s
  | cons hvalue _ ih => exact .cons (key use _) hvalue ih

theorem TakesMembers.ne_nil {use : Use} {member : σ → String → Reader σ} {s t : σ}
    {written : List (List Token)} (h : TakesMembers use member s written t) :
    ∀ m ∈ written, m ≠ [] := by
  intro m hm
  induction h with
  | nil => cases hm
  | cons _ _ _ ih =>
    rcases List.mem_cons.mp hm with rfl | hm
    · exact List.cons_ne_nil _ _
    · exact ih hm

/-- The members that come after a first one. -/
theorem members_later {use : Use} {member : σ → String → Reader σ} {s t : σ}
    {written : List (List Token)} (h : TakesMembers use member s written t) (rest : List Token)
    {bound : Nat} (hbound : written.length < bound) :
    Reader.members use member bound false s (written.flatMap (.comma :: ·) ++ .closeCurly :: rest) =
      .ok (t, .closeCurly :: rest) := by
  induction h generalizing bound with
  | nil s =>
    obtain ⟨bound, rfl⟩ := Nat.exists_eq_add_one.mpr hbound
    rfl
  | @cons s t u content name value members hkey hvalue _ ih =>
    rw [List.length_cons] at hbound
    obtain ⟨bound, rfl⟩ := Nat.exists_eq_add_one.mpr (Nat.zero_lt_of_lt hbound)
    have hlater := ih (Nat.lt_of_succ_lt_succ hbound)
    have hname := hkey.map some (value ++ (members.flatMap (.comma :: ·) ++ .closeCurly :: rest))
    rw [List.flatMap_cons, List.append_assoc]
    show ((some <$> Reader.key use) ([.text content] ++ (value ++ _)) >>= _) = _
    rw [hname]
    show (member s name (value ++ _) >>= _) = _
    rw [hvalue]
    exact hlater

/-- The loop reads the members up to the bracket, if its bound is greater than their number. -/
theorem members {use : Use} {member : σ → String → Reader σ} {s t : σ}
    {written : List (List Token)} (h : TakesMembers use member s written t) (rest : List Token)
    {bound : Nat} (hbound : written.length < bound) :
    Reader.members use member bound true s (Layout.separated written ++ .closeCurly :: rest) =
      .ok (t, .closeCurly :: rest) := by
  obtain ⟨bound, rfl⟩ := Nat.exists_eq_add_one.mpr (Nat.zero_lt_of_lt hbound)
  cases h with
  | nil => rfl
  | @cons _ t _ content name value members hkey hvalue hmembers =>
    have hlater := members_later hmembers rest (Nat.lt_of_succ_lt_succ hbound)
    have hname := hkey.map some (value ++ (members.flatMap (.comma :: ·) ++ .closeCurly :: rest))
    rw [Layout.separated_cons, List.append_assoc]
    show ((some <$> Reader.key use) ([.text content] ++ (value ++ _)) >>= _) = _
    rw [hname]
    show (member s name (value ++ _) >>= _) = _
    rw [hvalue]
    exact hlater

/-- An object is read by reading its members, and the tokens that are left are bound enough. -/
theorem objectRest_takes {use : Use} {member : σ → String → Reader σ} {s t : σ}
    {written : List (List Token)} (h : TakesMembers use member s written t) :
    Reads (Reader.objectRest use member s) (Layout.separated written ++ [.closeCurly]) t := by
  intro rest
  have hlength := length_le_length_separated h.ne_nil
  have hbound : written.length < (Layout.separated written ++ .closeCurly :: rest).length := by
    rw [List.length_append, List.length_cons]
    omega
  have hmembers := members h rest hbound
  rw [List.append_assoc, List.singleton_append]
  show (Reader.members use member _ true s _ >>= _) = _
  rw [hmembers]
  exact closing .closeCurly t rest

/-- The same for members whose keys have content. -/
theorem objectRest (use : Use) {member : σ → String → Reader σ} {s t : σ}
    {written : List (List Token)} (h : ReadsMembers member s written t) :
    Reads (Reader.objectRest use member s) (Layout.separated written ++ [.closeCurly]) t :=
  objectRest_takes (h.takes use)

end Reads

/-! ## Values of any shape -/

namespace Tree

theorem reads_text (use : Use) (room : Nat) (content : String) :
    Reads (reader use room) (Layout.text content) (.text content) := by
  intro rest
  cases room with
  | zero => rfl
  | succ room => rfl

/-- Members are collected last one first. -/
theorem readsMembers {use : Use} {room : Nat} {written : List (List Token)}
    {members : List (String × Tree)}
    (h : List.Forall₂ (fun tokens member => ∃ value,
      tokens = Layout.member member.1 value ∧ Reads (reader use room) value member.2)
      written members) (soFar : List (String × Tree)) :
    Reads.ReadsMembers (fun members name => do
      Reader.expect .colon
      return (name, ← reader use room) :: members) soFar written (members.reverse ++ soFar) := by
  induction h generalizing soFar with
  | nil => exact .nil soFar
  | @cons tokens member written members hmember _ ih =>
    obtain ⟨value, rfl, hvalue⟩ := hmember
    rw [List.reverse_cons, List.append_assoc]
    exact .cons ((Reads.expect .colon).bind (hvalue.map fun tree => (member.1, tree) :: soFar))
      (ih _)

/-- An object of unknown shape is read with its members in order; it takes one bracket of the room.
-/
theorem reads_object {use : Use} {room : Nat} {written : List (List Token)}
    {members : List (String × Tree)}
    (h : List.Forall₂ (fun tokens member => ∃ value,
      tokens = Layout.member member.1 value ∧ Reads (reader use room) value member.2)
      written members) :
    Reads (reader use (room + 1)) (Layout.object written) (.object members) := by
  have hobject := (Reads.objectRest use (readsMembers h [])).map
    fun members => object members.reverse
  rw [List.append_nil, List.reverse_reverse] at hobject
  exact hobject

end Tree

/-! ## Whole texts -/

namespace Reader

/-- What is read from tokens is read from the text that they print. -/
theorem read_print {α : Type} {value : Reader α} {written : List Token} {x : α}
    (h : Reads value written x) (hclosed : Layout.AllClosed written) :
    value.read (Layout.print written) = .ok x := by
  have hvalue := h []
  rw [List.append_nil] at hvalue
  unfold Reader.read Reader.document
  rw [Lexer.tokens_print hclosed, hvalue]

end Reader

end FixedWidth.Json
