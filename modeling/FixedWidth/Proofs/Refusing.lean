import FixedWidth.Proofs.Reading
import FixedWidth.Proofs.Spelling

/-!
# Refusing what does not fit

A reader refuses written tokens if it fails on them with a certain error, whatever comes after
(`Refuses`). What is refused is the first thing that does not fit: everything in front of it is read
(`Reads`), and nothing after it is looked at. So an array is refused for its first element that is
(`array`), and an object for the first member that is refused after the members in front of it have
been read (`objectRest`).

> `read_of_refuses`: a text that spells refused tokens is refused with their error.
-/

namespace FixedWidth.Json

/-- The parts up to one of them, and the others behind commas. -/
theorem Layout.separated_append (front : List (List Token)) (item : List Token)
    (back : List (List Token)) :
    separated (front ++ item :: back) =
      separated (front ++ [item]) ++ back.flatMap (.comma :: ·) := by
  cases front with
  | nil => exact separated_cons item back
  | cons first front =>
    rw [List.cons_append, List.cons_append, separated_cons, separated_cons, List.flatMap_append,
      List.flatMap_append, List.flatMap_cons, List.flatMap_singleton]
    simp only [List.append_assoc]

/-- Whether a reader fails on the written tokens with an error, whatever comes after them. -/
def Refuses {α : Type} (reader : Reader α) (written : List Token) (e : Error) : Prop :=
  ∀ rest, reader (written ++ rest) = .error e

namespace Refuses

variable {α β σ : Type} {e : Error}

theorem fail (e : Error) (written : List Token) : Refuses (Reader.fail e : Reader α) written e := by
  intro rest
  rfl

/-- Whatever comes after the tokens that are refused belongs to what is refused. -/
theorem append {reader : Reader α} {front : List Token} (h : Refuses reader front e)
    (back : List Token) : Refuses reader (front ++ back) e := by
  intro rest
  rw [List.append_assoc]
  exact h (back ++ rest)

/-- The second of two readers refuses what the first has left. -/
theorem bind {reader : Reader α} {next : α → Reader β} {front back : List Token} {x : α}
    (h : Reads reader front x) (hnext : Refuses (next x) back e) :
    Refuses (reader >>= next) (front ++ back) e := by
  intro rest
  show (reader (front ++ back ++ rest) >>= fun result => next result.1 result.2) = _
  rw [List.append_assoc, h]
  exact hnext rest

/-- A step that takes no tokens refuses what has been read. -/
theorem bind_nil {reader : Reader α} {next : α → Reader β} {written : List Token} {x : α}
    (h : Reads reader written x) (hnext : Refuses (next x) [] e) :
    Refuses (reader >>= next) written e := by
  have hboth := bind h hnext
  rw [List.append_nil] at hboth
  exact hboth

/-- Whatever would have been done next. -/
theorem bind_first {reader : Reader α} {written : List Token} (h : Refuses reader written e)
    (next : α → Reader β) : Refuses (reader >>= next) written e := by
  intro rest
  show (reader (written ++ rest) >>= _) = _
  rw [h]
  rfl

theorem map {reader : Reader α} {written : List Token} (f : α → β)
    (h : Refuses reader written e) : Refuses (f <$> reader) written e := by
  intro rest
  show (reader (written ++ rest) >>= _) = _
  rw [h]
  rfl

/-- A reader that looks at a token and then goes on with what comes after it. -/
theorem mark {reader inner : Reader α} {token : Token} {written : List Token}
    (hcons : ∀ rest, reader (token :: rest) = inner rest) (h : Refuses inner written e) :
    Refuses reader (token :: written) e := by
  intro rest
  rw [List.cons_append, hcons]
  exact h rest

/-! ## Arrays -/

/-- A first element that is refused is refused in its place. -/
theorem nextElement_first {item : Reader α} {written : List Token}
    (hbegin : Reads.BeginsElement written) (h : Refuses item written e) :
    Refuses (Reader.nextElement true item) written e := by
  intro rest
  rw [Reads.nextElement_first hbegin]
  exact h.map some rest

/-- The elements that come after a first one, up to one that is refused. -/
theorem elements_later {item : Reader α} {front : List (List Token)} {xs : List α}
    (hfront : List.Forall₂ (Reads item) front xs) {written : List Token}
    (h : Refuses item written e) {bound : Nat} (hbound : front.length < bound) :
    Refuses (Reader.elements item bound false)
      (front.flatMap (.comma :: ·) ++ .comma :: written) e := by
  induction hfront generalizing bound with
  | nil =>
    obtain ⟨bound, rfl⟩ := Nat.exists_eq_add_one.mpr hbound
    have hnext : Refuses (Reader.nextElement false item) (.comma :: written) e := h.map some
    exact hnext.bind_first _
  | @cons first x front xs hx _ ih =>
    rw [List.length_cons] at hbound
    obtain ⟨bound, rfl⟩ := Nat.exists_eq_add_one.mpr (Nat.zero_lt_of_lt hbound)
    have hnext : Reads (Reader.nextElement false item) (.comma :: first) (some x) := hx.map some
    rw [List.flatMap_cons, List.append_assoc]
    exact bind hnext ((ih (Nat.lt_of_succ_lt_succ hbound)).bind_first _)

/-- The loop is refused at the first element that is, after reading those before it. -/
theorem elements {item : Reader α} {front : List (List Token)} {xs : List α}
    (hfront : List.Forall₂ (Reads item) front xs) {written : List Token}
    (hbegin : ∀ w ∈ front ++ [written], Reads.BeginsElement w)
    (h : Refuses item written e) {bound : Nat} (hbound : front.length < bound) :
    Refuses (Reader.elements item bound true) (Layout.separated (front ++ [written])) e := by
  obtain ⟨bound, rfl⟩ := Nat.exists_eq_add_one.mpr (Nat.zero_lt_of_lt hbound)
  cases hfront with
  | nil => exact (nextElement_first (hbegin written (List.mem_cons_self ..)) h).bind_first _
  | @cons first x front xs hx hxs =>
    have hfirst := hbegin first (List.mem_cons_self ..)
    have hnext : Reads (Reader.nextElement true item) first (some x) := by
      intro rest
      rw [Reads.nextElement_first hfirst]
      exact hx.map some rest
    have hlater := elements_later hxs h (Nat.lt_of_succ_lt_succ hbound)
    rw [List.cons_append, Layout.separated_cons, List.flatMap_append, List.flatMap_singleton]
    exact bind hnext (hlater.bind_first _)

/-- An array is refused for its first element that is. -/
theorem array {item : Reader α} {front back : List (List Token)} {xs : List α}
    (hfront : List.Forall₂ (Reads item) front xs) {written : List Token}
    (hbegin : ∀ w ∈ front ++ [written], Reads.BeginsElement w) (h : Refuses item written e) :
    Refuses (Reader.array item) (Layout.array (front ++ written :: back)) e := by
  refine mark (fun _ => rfl) ?_
  show Refuses (Reader.arrayRest item)
    (Layout.separated (front ++ written :: back) ++ [.closeSquare]) e
  rw [Layout.separated_append, List.append_assoc]
  refine append ?_ _
  intro rest
  -- An element has a token at least, so as many are tried as there are in front of the bad one.
  have hlength := Reads.length_le_length_separated fun w hw => (hbegin w hw).ne_nil
  have hbound : front.length < (Layout.separated (front ++ [written]) ++ rest).length := by
    rw [List.length_append, List.length_singleton] at hlength
    rw [List.length_append]
    omega
  show (Reader.elements item _ true _ >>= _) = _
  rw [elements hfront hbegin h hbound]
  rfl

/-! ## Objects -/

/-- The value under a key is refused. -/
theorem members_here {use : Use} {member : σ → String → Reader σ} {isFirst : Bool} {s : σ}
    {front written : List Token} {name : String}
    (hkey : Reads (Reader.nextKey use isFirst) front (some name))
    (h : Refuses (member s name) written e) (bound : Nat) :
    Refuses (Reader.members use member (bound + 1) isFirst s) (front ++ written) e :=
  bind hkey (h.bind_first _)

/-- The value under a key is read, and what comes after it is refused. -/
theorem members_cons {use : Use} {member : σ → String → Reader σ} {isFirst : Bool} {s t : σ}
    {front value back : List Token} {name : String} {bound : Nat}
    (hkey : Reads (Reader.nextKey use isFirst) front (some name))
    (hvalue : Reads (member s name) value t)
    (h : Refuses (Reader.members use member bound false t) back e) :
    Refuses (Reader.members use member (bound + 1) isFirst s) (front ++ (value ++ back)) e :=
  bind hkey (bind hvalue h)

/-- The members that come after a first one, up to one that is refused. -/
theorem members_later (use : Use) {member : σ → String → Reader σ} {s t : σ}
    {front : List (List Token)} (hfront : Reads.ReadsMembers member s front t) {name : String}
    {written : List Token} (h : Refuses (member t name) written e) {bound : Nat}
    (hbound : front.length < bound) :
    Refuses (Reader.members use member bound false s)
      (front.flatMap (.comma :: ·) ++ .comma :: .text (some name) :: written) e := by
  have hkey : ∀ key, Reads (Reader.nextKey use false) (.comma :: Layout.text key) (some key) :=
    fun _ _ => rfl
  induction hfront generalizing bound with
  | nil s =>
    obtain ⟨bound, rfl⟩ := Nat.exists_eq_add_one.mpr hbound
    exact members_here (hkey name) h bound
  | @cons s u t key value front hvalue _ ih =>
    rw [List.length_cons] at hbound
    obtain ⟨bound, rfl⟩ := Nat.exists_eq_add_one.mpr (Nat.zero_lt_of_lt hbound)
    have hlater := members_cons (hkey key) hvalue (ih h (Nat.lt_of_succ_lt_succ hbound))
    rw [List.flatMap_cons, List.append_assoc]
    exact hlater

/-- The loop is refused at the first member that is, and what counts is how far the members before
it have come. -/
theorem members (use : Use) {member : σ → String → Reader σ} {s t : σ}
    {front : List (List Token)} (hfront : Reads.ReadsMembers member s front t) {name : String}
    {written : List Token} (h : Refuses (member t name) written e) {bound : Nat}
    (hbound : front.length < bound) :
    Refuses (Reader.members use member bound true s)
      (Layout.separated (front ++ [.text (some name) :: written])) e := by
  have hkey : ∀ key, Reads (Reader.nextKey use true) (Layout.text key) (some key) := fun _ _ => rfl
  obtain ⟨bound, rfl⟩ := Nat.exists_eq_add_one.mpr (Nat.zero_lt_of_lt hbound)
  cases hfront with
  | nil => exact members_here (hkey name) h bound
  | @cons _ u _ key value front hvalue hfront =>
    have hlater := members_cons (hkey key) hvalue
      (members_later use hfront h (Nat.lt_of_succ_lt_succ hbound))
    rw [List.cons_append, Layout.separated_cons, List.flatMap_append, List.flatMap_singleton]
    exact hlater

/-- An object is refused for the first member that is, once those in front of it are read. -/
theorem objectRest (use : Use) {member : σ → String → Reader σ} {s t : σ}
    {front back : List (List Token)} (hfront : Reads.ReadsMembers member s front t)
    {name : String} {written : List Token} (h : Refuses (member t name) written e) :
    Refuses (Reader.objectRest use member s)
      (Layout.separated (front ++ (.text (some name) :: written) :: back) ++ [.closeCurly]) e := by
  rw [Layout.separated_append, List.append_assoc]
  refine append ?_ _
  intro rest
  have hne : ∀ w ∈ front ++ [.text (some name) :: written], w ≠ [] := by
    intro w hw
    rcases List.mem_append.mp hw with hw | hw
    · exact (hfront.takes use).ne_nil w hw
    · exact List.mem_singleton.mp hw ▸ List.cons_ne_nil _ _
  have hlength := Reads.length_le_length_separated hne
  rw [List.length_append, List.length_singleton] at hlength
  -- Each member has a token of its own, so the bound on their number is not met.
  have hbound : front.length <
      (Layout.separated (front ++ [.text (some name) :: written]) ++ rest).length := by
    rw [List.length_append]
    omega
  show (Reader.members use member _ true s _ >>= _) = _
  rw [members use hfront h hbound]
  rfl

end Refuses

/-! ## Whole texts -/

namespace Reader

/-- A text is refused if its tokens are, however they are spelled. -/
theorem read_of_refuses {α : Type} {value : Reader α} {written : List Token} {e : Error}
    {text : String} (h : Refuses value written e) (hspells : Spells written text.toList) :
    value.read text = .error e := by
  have hvalue := h []
  rw [List.append_nil] at hvalue
  unfold Reader.read Reader.document
  rw [Lexer.tokens_of_spells hspells, hvalue]

end Reader

end FixedWidth.Json
