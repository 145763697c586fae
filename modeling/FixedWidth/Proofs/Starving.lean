import FixedWidth.Proofs.Cutting

/-!
# Reading what has been cut short

A reader starves on written tokens if it asks for more whenever their end is missing, wherever the
cut is (`Starves`). Like `Reads`, the relation goes through the readers one by one. A sequence of
two readers is cut in the first, which then starves, or in the second, and then the first has read
its part (`Starves.bind`); so what a reader starves on and what it reads are found side by side. The
loops over elements and members run out of bound on a short text earlier than on a whole one, but
that too is the end of the text.

What a member of an object is read to depends on the members before it, and one that is refused
where it stands need not starve. It is enough if it does wherever it is read at all
(`StarvesMembers`).

> `read_cut`: a text that is cut is too short, if its tokens are closed and its reader starves on
> them.
-/

namespace FixedWidth.Json

namespace CutShort

/-- A cut falls into the first part or behind it. -/
theorem of_append {front back short : List Token} (h : CutShort short (front ++ back)) :
    CutShort short front ∨ ∃ later, short = front ++ later ∧ CutShort later back := by
  induction front generalizing short with
  | nil => exact .inr ⟨short, rfl, h⟩
  | cons token front ih =>
    cases h with
    | between => exact .inl (.between token front)
    | inside hwritten hmore => exact .inl (.inside hwritten hmore front)
    | later _ hrest =>
      rcases ih hrest with hfront | ⟨later, rfl, hback⟩
      · exact .inl (.later token hfront)
      · exact .inr ⟨later, rfl, hback⟩

/-- There is no cut inside a token of one character. -/
theorem of_mark {token : Token} {c : Char} {rest short : List Token} (hmark : token.written = [c])
    (h : CutShort short (token :: rest)) :
    short = [] ∨ ∃ later, short = token :: later ∧ CutShort later rest := by
  cases h with
  | between => exact .inl rfl
  | inside hwritten hmore =>
    rw [hmark] at hwritten
    exact absurd (List.cons.inj hwritten).2.symm hmore
  | later _ hrest => exact .inr ⟨_, rfl, hrest⟩

/-- A cut in front of or inside a text leaves nothing of it, or a broken text. -/
theorem of_text {content : String} {rest short : List Token}
    (h : CutShort short (.text (some content) :: rest)) :
    short = [] ∨ short = [.broken '"' .endOfText .endOfText] ∨
      ∃ later, short = .text (some content) :: later ∧ CutShort later rest := by
  cases h with
  | between => exact .inl rfl
  | inside hwritten =>
    obtain ⟨rfl, -⟩ := List.cons.inj hwritten
    exact .inr (.inl rfl)
  | later _ hrest => exact .inr (.inr ⟨_, rfl, hrest⟩)

/-- A cut leaves the beginning of an element as one, if anything of it. -/
theorem beginsElement {written short : List Token} (hbegin : Reads.BeginsElement written)
    (h : CutShort short written) : short = [] ∨ Reads.BeginsElement short := by
  obtain ⟨token, rest, rfl, hclose, hcomma⟩ := hbegin
  cases h with
  | between => exact .inl rfl
  | inside => exact .inr ⟨_, [], rfl, by simp, by simp⟩
  | later _ _ => exact .inr ⟨token, _, rfl, hclose, hcomma⟩

end CutShort

/-- Whether a reader asks for more whenever the written tokens are cut short. -/
def Starves {α : Type} (reader : Reader α) (written : List Token) : Prop :=
  ∀ short, CutShort short written → reader short = .error Reader.endOfText

namespace Starves

variable {α β σ : Type}

/-- A sequence starves if both parts do, provided that the first one reads its tokens when they are
all there. -/
theorem bind {reader : Reader α} {next : α → Reader β} {front back : List Token} {x : α}
    (h : Starves reader front) (hreads : Reads reader front x) (hnext : Starves (next x) back) :
    Starves (reader >>= next) (front ++ back) := by
  intro short hshort
  rcases hshort.of_append with hfront | ⟨later, rfl, hback⟩
  · show (reader short >>= _) = _
    rw [h short hfront]
    rfl
  · show (reader (front ++ later) >>= fun result => next result.1 result.2) = _
    rw [hreads]
    exact hnext later hback

/-- Whatever is done with a value that is not there. -/
theorem bind_nil {reader : Reader α} {written : List Token} (next : α → Reader β)
    (h : Starves reader written) : Starves (reader >>= next) written := by
  intro short hshort
  show (reader short >>= _) = _
  rw [h short hshort]
  rfl

/-- What is made of a value does not matter where it is cut. -/
theorem map {reader : Reader α} {written : List Token} (f : α → β) (h : Starves reader written) :
    Starves (f <$> reader) written := by
  intro short hshort
  show (reader short >>= _) = _
  rw [h short hshort]
  rfl

/-- A reader that looks at a mark and then goes on with what comes after it. -/
theorem mark {reader inner : Reader α} {token : Token} {c : Char} {rest : List Token}
    (hmark : token.written = [c]) (hnil : reader [] = .error Reader.endOfText)
    (hcons : ∀ later, reader (token :: later) = inner later) (h : Starves inner rest) :
    Starves reader (token :: rest) := by
  intro short hshort
  rcases hshort.of_mark hmark with rfl | ⟨later, rfl, hlater⟩
  · exact hnil
  · rw [hcons]
    exact h later hlater

/-- An expected mark cannot be cut inside, so all of it is missing. -/
theorem expect {token : Token} {c : Char} (hmark : token.written = [c]) :
    Starves (Reader.expect token) [token] := by
  intro short hshort
  rcases hshort.of_mark hmark with rfl | ⟨later, rfl, hlater⟩
  · rfl
  · cases hlater

/-- A reader of texts. Of one that is cut there is at most its first quote. -/
theorem of_text {reader : Reader α} {content : String}
    (hnil : reader [] = .error Reader.endOfText)
    (hbroken : reader [.broken '"' .endOfText .endOfText] = .error Reader.endOfText) :
    Starves reader (Layout.text content) := by
  intro short hshort
  rcases hshort.of_text with rfl | rfl | ⟨later, rfl, hlater⟩
  · exact hnil
  · exact hbroken
  · cases hlater

theorem text (content : String) : Starves Reader.text (Layout.text content) := of_text rfl rfl

/-- A name that is cut is too short, and not unknown. -/
theorem choice (names : List String) (ofName? : String → Option α) (name : String) :
    Starves (Reader.choice names ofName?) (Layout.text name) := of_text rfl rfl

/-- A value in a place for `null` starves as it does elsewhere. -/
theorem optional {reader : Reader α} {content : String} (h : Starves reader (Layout.text content)) :
    Starves (Reader.optional reader) (Layout.text content) := by
  have hmap := h.map some
  exact of_text (hmap _ (.between _ _)) (hmap _ (.inside rfl (by simp) _))

/-! ## Arrays -/

theorem nextElement_later {item : Reader α} {written : List Token} (h : Starves item written) :
    Starves (Reader.nextElement false item) (.comma :: written) :=
  .mark rfl rfl (fun _ => rfl) (h.map some)

/-- A first element starves in its place, as nothing that begins it ends the array. -/
theorem nextElement_first {item : Reader α} {written : List Token}
    (hbegin : Reads.BeginsElement written) (h : Starves item written) :
    Starves (Reader.nextElement true item) written := by
  intro short hshort
  rcases hshort.beginsElement hbegin with rfl | hshortBegin
  · rfl
  · have hnext : Reader.nextElement true item (short ++ []) = _ :=
      Reads.nextElement_first hshortBegin []
    rw [List.append_nil] at hnext
    rw [hnext]
    exact h.map some short hshort

/-- The loop waits for the closing bracket. -/
theorem elements_nil (item : Reader α) (isFirst : Bool) (bound : Nat) :
    Starves (Reader.elements item bound isFirst) [.closeSquare] := by
  intro short hshort
  rcases hshort.of_mark rfl with rfl | ⟨later, -, hlater⟩
  · cases bound with
    | zero => rfl
    | succ bound => rfl
  · cases hlater

/-- One turn of the loop: the cut is in the next element, or in what comes after it. -/
theorem elements_cons {item : Reader α} {isFirst : Bool} {front back : List Token} {x : α}
    (h : Starves (Reader.nextElement isFirst item) front)
    (hreads : Reads (Reader.nextElement isFirst item) front (some x))
    (hrest : ∀ bound, Starves (Reader.elements item bound false) back) (bound : Nat) :
    Starves (Reader.elements item bound isFirst) (front ++ back) := by
  cases bound with
  | zero =>
    intro short _
    rfl
  | succ bound => exact h.bind hreads ((hrest bound).bind_nil _)

/-- The elements that come after a first one. -/
theorem elements_later {item : Reader α} {items : List (List Token)} {xs : List α}
    (hreads : List.Forall₂ (Reads item) items xs) (h : ∀ written ∈ items, Starves item written)
    (bound : Nat) :
    Starves (Reader.elements item bound false)
      (items.flatMap (.comma :: ·) ++ [.closeSquare]) := by
  induction hreads generalizing bound with
  | nil => exact elements_nil item false bound
  | @cons written x items xs hx _ ih =>
    obtain ⟨hwritten, hitems⟩ := List.forall_mem_cons.mp h
    have hnext : Reads (Reader.nextElement false item) (.comma :: written) (some x) := hx.map some
    rw [List.flatMap_cons, List.append_assoc]
    exact elements_cons (nextElement_later hwritten) hnext (ih hitems) bound

/-- The loop starves wherever it is cut, whatever its bound. -/
theorem elements {item : Reader α} {items : List (List Token)} {xs : List α}
    (hreads : List.Forall₂ (Reads item) items xs)
    (hbegin : ∀ written ∈ items, Reads.BeginsElement written)
    (h : ∀ written ∈ items, Starves item written) (bound : Nat) :
    Starves (Reader.elements item bound true) (Layout.separated items ++ [.closeSquare]) := by
  cases hreads with
  | nil => exact elements_nil item true bound
  | @cons written x items xs hx hxs =>
    obtain ⟨hwritten, hitems⟩ := List.forall_mem_cons.mp h
    have hfirst := hbegin written (List.mem_cons_self ..)
    have hnext : Reads (Reader.nextElement true item) written (some x) := by
      intro rest
      rw [Reads.nextElement_first hfirst]
      exact hx.map some rest
    rw [Layout.separated_cons, List.append_assoc]
    exact elements_cons (nextElement_first hfirst hwritten) hnext (elements_later hxs hitems) bound

/-- An array starves if its elements do. -/
theorem array {item : Reader α} {items : List (List Token)} {xs : List α}
    (hreads : List.Forall₂ (Reads item) items xs)
    (hbegin : ∀ written ∈ items, Reads.BeginsElement written)
    (h : ∀ written ∈ items, Starves item written) :
    Starves (Reader.array item) (Layout.array items) := by
  refine mark rfl rfl (fun _ => rfl) ?_
  intro short hshort
  -- The bound of the loop is what is left of the text, however little that is.
  show (Reader.elements item short.length true short >>= _) = _
  rw [elements hreads hbegin h short.length short hshort]
  rfl

/-- An array whose elements are all written in one way. -/
theorem array_map {item : Reader α} {write : α → List Token} (hreads : ∀ x, Reads item (write x) x)
    (hbegin : ∀ x, Reads.BeginsElement (write x)) (h : ∀ x, Starves item (write x)) (xs : List α) :
    Starves (Reader.array item) (Layout.array (xs.map write)) :=
  array (Reads.forall₂_map hreads xs) (List.forall_mem_map.mpr fun x _ => hbegin x)
    (List.forall_mem_map.mpr fun x _ => h x)

/-! ## Objects -/

theorem key (use : Use) (name : String) : Starves (Reader.key use) (Layout.text name) := by
  cases use with
  | kept => exact of_text rfl rfl
  | skipped => exact of_text rfl rfl

/-- Behind a comma, a key starves in its place. -/
theorem nextKey_later (use : Use) (name : String) :
    Starves (Reader.nextKey use false) (.comma :: Layout.text name) :=
  .mark rfl rfl (fun _ => rfl) ((key use name).map some)

theorem nextKey_first (use : Use) (name : String) :
    Starves (Reader.nextKey use true) (Layout.text name) := by
  have hkey := (key use name).map some
  exact of_text rfl (hkey _ (.inside rfl (by simp) _))

/-- Whether each of some members starves wherever it is read at all. -/
def StarvesMembers (member : σ → String → Reader σ) (written : List (List Token)) : Prop :=
  ∀ s t key value, .text (some key) :: value ∈ written → Reads (member s key) value t →
    Starves (member s key) value

theorem StarvesMembers.of_cons {member : σ → String → Reader σ} {first : List Token}
    {written : List (List Token)} (h : StarvesMembers member (first :: written)) :
    StarvesMembers member written := by
  intro s t key value hmem
  exact h s t key value (List.mem_cons_of_mem _ hmem)

/-- The loop over members waits for the closing bracket. -/
theorem members_nil (use : Use) (member : σ → String → Reader σ) (isFirst : Bool) (s : σ)
    (bound : Nat) : Starves (Reader.members use member bound isFirst s) [.closeCurly] := by
  intro short hshort
  rcases hshort.of_mark rfl with rfl | ⟨later, -, hlater⟩
  · cases bound with
    | zero => rfl
    | succ bound => rfl
  · cases hlater

/-- One turn of the loop: the cut is in the key, in the value behind it, or in what comes after
that. -/
theorem members_cons {use : Use} {member : σ → String → Reader σ} {isFirst : Bool} {s t : σ}
    {front value back : List Token} {name : String}
    (h : Starves (Reader.nextKey use isFirst) front)
    (hreads : Reads (Reader.nextKey use isFirst) front (some name))
    (hvalue : Starves (member s name) value) (hvalueReads : Reads (member s name) value t)
    (hrest : ∀ bound, Starves (Reader.members use member bound false t) back) (bound : Nat) :
    Starves (Reader.members use member bound isFirst s) (front ++ (value ++ back)) := by
  cases bound with
  | zero =>
    intro short _
    rfl
  | succ bound => exact h.bind hreads (hvalue.bind hvalueReads (hrest bound))

/-- The loop starves behind its first member, by induction on the members. -/
theorem members_later (use : Use) {member : σ → String → Reader σ} {s t : σ}
    {written : List (List Token)} (hreads : Reads.ReadsMembers member s written t)
    (h : StarvesMembers member written) (bound : Nat) :
    Starves (Reader.members use member bound false s)
      (written.flatMap (.comma :: ·) ++ [.closeCurly]) := by
  induction hreads generalizing bound with
  | nil s => exact members_nil use member false s bound
  | @cons s t u name value members hvalue _ ih =>
    have hkey : Reads (Reader.nextKey use false) (.comma :: Layout.text name) (some name) :=
      fun _ => rfl
    rw [List.flatMap_cons, List.append_assoc]
    exact members_cons (nextKey_later use name) hkey
      (h s t name value (List.mem_cons_self ..) hvalue) hvalue (ih h.of_cons) bound

/-- The loop starves from its first member on. -/
theorem members (use : Use) {member : σ → String → Reader σ} {s t : σ}
    {written : List (List Token)} (hreads : Reads.ReadsMembers member s written t)
    (h : StarvesMembers member written) (bound : Nat) :
    Starves (Reader.members use member bound true s)
      (Layout.separated written ++ [.closeCurly]) := by
  cases hreads with
  | nil => exact members_nil use member true s bound
  | @cons _ t _ name value members hvalue hmembers =>
    have hkey : Reads (Reader.nextKey use true) (Layout.text name) (some name) := fun _ => rfl
    rw [Layout.separated_cons, List.append_assoc]
    exact members_cons (nextKey_first use name) hkey
      (h s t name value (List.mem_cons_self ..) hvalue) hvalue
      (members_later use hmembers h.of_cons) bound

/-- An object starves if its members do. -/
theorem objectRest (use : Use) {member : σ → String → Reader σ} {s t : σ}
    {written : List (List Token)} (hreads : Reads.ReadsMembers member s written t)
    (h : StarvesMembers member written) :
    Starves (Reader.objectRest use member s) (Layout.separated written ++ [.closeCurly]) := by
  intro short hshort
  show (Reader.members use member short.length true s short >>= _) = _
  rw [members use hreads h short.length short hshort]
  rfl

end Starves

/-! ## Values of any shape -/

namespace Tree

theorem starves_text (use : Use) (room : Nat) (content : String) :
    Starves (reader use room) (Layout.text content) := by
  cases use with
  | kept =>
    cases room with
    | zero => exact .of_text rfl rfl
    | succ room => exact .of_text rfl rfl
  | skipped =>
    cases room with
    | zero => exact .of_text rfl rfl
    | succ room => exact .of_text rfl rfl

/-- An object of unknown shape starves if its members do. -/
theorem starves_object {use : Use} {room : Nat} {written : List (List Token)}
    {members : List (String × Tree)}
    (hreads : List.Forall₂ (fun tokens member => ∃ value,
      tokens = Layout.member member.1 value ∧ Reads (reader use room) value member.2)
      written members)
    (h : ∀ tokens ∈ written, ∃ key value,
      tokens = Layout.member key value ∧ Starves (reader use room) value) :
    Starves (reader use (room + 1)) (Layout.object written) := by
  refine .mark rfl rfl (fun _ => rfl) (.map _ (.objectRest use (readsMembers hreads []) ?_))
  intro soFar _ name tokens hmem _
  obtain ⟨key, value, hmember, hvalue⟩ := h _ hmem
  obtain ⟨-, rfl⟩ := List.cons.inj hmember
  exact (Starves.expect rfl).bind (Reads.expect .colon) (hvalue.bind_nil _)

end Tree

/-! ## Whole texts -/

namespace Reader

variable {α : Type} {value : Reader α} {written : List Token}

/-- What starves on tokens complains of the end of the text wherever that is cut. -/
theorem read_cut (h : Starves value written) (hclosed : Layout.AllClosed written)
    {front back : String} (hprint : Layout.print written = front ++ back) (hback : back ≠ "") :
    value.read front = .error endOfText := by
  have hchars : written.flatMap Token.written = front.toList ++ back.toList := by
    rw [← String.toList_append, ← hprint, Layout.print, String.toList_ofList]
  have hmissing : back.toList ≠ [] := by
    intro hnil
    exact hback (String.toList_inj.mp hnil)
  have hvalue := h _ (Lexer.cutShort_tokens hclosed hchars hmissing)
  unfold Reader.read document
  rw [hvalue]

/-- Behind a printed value only blanks may stand; anything else is malformed, whatever it is. -/
theorem read_print_append {x : α} (h : Reads value written x) (hclosed : Layout.AllClosed written)
    (text : String) :
    value.read (Layout.print written ++ text) =
      if text.toList.all Lexer.isBlank then .ok x else .error malformed := by
  have hvalue := h (Lexer.tokens text.toList)
  rw [← Lexer.tokens_print_append hclosed, ← String.toList_append] at hvalue
  unfold Reader.read document
  rw [hvalue]
  by_cases hblank : text.toList.all Lexer.isBlank = true
  · rw [if_pos hblank, (Lexer.tokens_eq_nil_iff _).mpr hblank]
  · obtain ⟨token, rest, htokens⟩ := List.exists_cons_of_ne_nil
      fun hnil => hblank ((Lexer.tokens_eq_nil_iff _).mp hnil)
    rw [if_neg hblank, htokens]

end Reader

end FixedWidth.Json
