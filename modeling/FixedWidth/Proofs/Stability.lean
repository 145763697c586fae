import FixedWidth.Proofs.Reading

/-!
# What comes after a value does not matter

A reader that has taken a value off the front takes the same value when there is more to follow
(`Stable`). So a value that is accepted by itself is accepted wherever it stands (`Stable.reads`).
Of the readers of parts only those that look ahead need a word: the loops over elements and members
are bounded by the number of tokens that are left, and a wider bound changes nothing of what has
been read within a narrower one.
-/

namespace FixedWidth.Json

/-- Whether what a reader takes off the front does not depend on what follows. -/
def Stable {α : Type} (reader : Reader α) : Prop :=
  ∀ tokens x rest, reader tokens = .ok (x, rest) →
    ∀ more, reader (tokens ++ more) = .ok (x, rest ++ more)

/-- A sequence of two readers that succeeds does so in two steps. -/
theorem Reader.bind_eq_ok {α β : Type} {reader : Reader α} {next : α → Reader β}
    {tokens rest : List Token} {y : β} (h : (reader >>= next) tokens = .ok (y, rest)) :
    ∃ x later, reader tokens = .ok (x, later) ∧ next x later = .ok (y, rest) := by
  change (reader tokens >>= fun result => next result.1 result.2) = _ at h
  cases hfirst : reader tokens with
  | error e =>
    rw [hfirst] at h
    cases h
  | ok result =>
    rw [hfirst] at h
    exact ⟨result.1, result.2, rfl, h⟩

/-- After a success, a sequence goes on with what is left. -/
theorem Reader.bind_of_ok {α β : Type} {reader : Reader α} {next : α → Reader β}
    {tokens later : List Token} {x : α} (h : reader tokens = .ok (x, later)) :
    (reader >>= next) tokens = next x later := by
  show (reader tokens >>= fun result => next result.1 result.2) = _
  rw [h]
  rfl

namespace Stable

variable {α β σ : Type}

/-- A value that is accepted by itself is accepted wherever it stands. -/
theorem reads {reader : Reader α} {written : List Token} {x : α} (h : Stable reader)
    (hread : reader written = .ok (x, [])) : Reads reader written x := by
  intro rest
  exact h written x [] hread rest

theorem pure (x : α) : Stable (Pure.pure x : Reader α) := by
  intro tokens y rest h more
  cases h
  rfl

theorem fail (e : Error) : Stable (Reader.fail e : Reader α) := by
  intro tokens x rest h
  cases h

/-- A sequence is stable if its parts are; the second one meets what follows behind what the first
has left. -/
theorem bind {reader : Reader α} {next : α → Reader β} (h : Stable reader)
    (hnext : ∀ x, Stable (next x)) : Stable (reader >>= next) := by
  intro tokens y rest hread more
  obtain ⟨x, later, hx, hy⟩ := Reader.bind_eq_ok hread
  rw [Reader.bind_of_ok (h tokens x later hx more)]
  exact hnext x later y rest hy more

/-- What is made of a value does not change what is taken. -/
theorem map {reader : Reader α} (f : α → β) (h : Stable reader) : Stable (f <$> reader) := by
  show Stable (reader >>= fun x => Pure.pure (f x))
  exact h.bind fun x => pure (f x)

/-- A reader that needs a token, and goes on from there according to which one it is. -/
theorem of_cons {reader : Reader α} {e : Error} (hnil : reader [] = .error e)
    {inner : Token → Reader α} (hcons : ∀ token rest, reader (token :: rest) = inner token rest)
    (h : ∀ token, Stable (inner token)) : Stable reader := by
  intro tokens x rest hread more
  cases tokens with
  | nil =>
    rw [hnil] at hread
    cases hread
  | cons token tokens =>
    rw [List.cons_append, hcons]
    rw [hcons] at hread
    exact h token tokens x rest hread more

/-- A token in front is out of the way once it has been looked at. -/
theorem after {reader : Reader α} (h : Stable reader) (token : Token) :
    Stable fun rest => reader (token :: rest) := by
  intro tokens x rest hread more
  exact h (token :: tokens) x rest hread more

theorem of_error {reader : Reader α} (h : ∀ tokens, ∃ e, reader tokens = .error e) :
    Stable reader := by
  intro tokens x rest hread
  obtain ⟨e, he⟩ := h tokens
  rw [he] at hread
  cases hread

/-- One token is taken on its own. -/
theorem expect (token : Token) : Stable (Reader.expect token) := by
  have hcons : ∀ found rest, Reader.expect token (found :: rest) =
      (if found = token then Pure.pure () else Reader.fail Reader.malformed : Reader Unit) rest := by
    intro found rest
    by_cases h : found = token
    · rw [if_pos h]
      exact if_pos h
    · rw [if_neg h]
      exact if_neg h
  refine of_cons rfl hcons ?_
  intro found
  by_cases h : found = token
  · rw [if_pos h]
    exact pure ()
  · rw [if_neg h]
    exact fail _

/-- A text is one token. -/
theorem text : Stable Reader.text := by
  refine of_cons rfl (fun _ _ => rfl) ?_
  intro token
  cases token with
  | text content =>
    cases content with
    | some content => exact pure content
    | none => exact fail _
  | _ => exact fail _

theorem unit : Stable Reader.unit := by
  refine of_cons rfl (fun _ _ => rfl) ?_
  intro token
  cases token with
  | null => exact pure ()
  | _ => exact fail _

theorem named (names : List String) (ofName? : String → Option α) (name : String) :
    Stable (Reader.named names ofName? name) := by
  unfold Reader.named
  cases ofName? name with
  | none => exact fail _
  | some x => exact pure x

theorem key (use : Use) : Stable (Reader.key use) := by
  refine of_cons rfl (fun _ _ => rfl) ?_
  intro token
  cases token with
  | text content =>
    cases content with
    | some content => exact pure content
    | none =>
      cases use with
      | kept => exact fail _
      | skipped => exact pure ""
  | broken first needed skipped =>
    refine of_error fun rest => ?_
    by_cases hquote : first = '"'
    · exact hquote ▸ ⟨_, rfl⟩
    · simp [Reader.key, hquote]
  | _ => exact fail _

/-- A name is one token, or an object that is read to its closing bracket. -/
theorem choice (names : List String) (ofName? : String → Option α) :
    Stable (Reader.choice names ofName?) := by
  refine of_cons rfl (fun _ _ => rfl) ?_
  intro token
  cases token with
  | text content =>
    cases content with
    | some name => exact named names ofName? name
    | none => exact fail _
  | openCurly =>
    exact (key .kept).bind fun name => (named names ofName? name).bind fun x =>
      (expect .colon).bind fun _ => unit.bind fun _ => (expect .closeCurly).bind fun _ => pure x
  | broken first needed skipped =>
    refine of_error fun rest => ?_
    by_cases hquote : first = '"'
    · exact hquote ▸ ⟨_, rfl⟩
    · simp [Reader.choice, hquote]
  | _ => exact fail _

/-- Something has to stand in the place of `null`. -/
theorem optional {item : Reader α} {e : Error} (hnil : item [] = .error e) (h : Stable item) :
    Stable (Reader.optional item) := by
  have hoptional : Reader.optional item [] = .error e := by
    show (item [] >>= _) = _
    rw [hnil]
    rfl
  refine of_cons hoptional (fun _ _ => rfl) ?_
  intro token
  cases token with
  | null => exact pure none
  | broken first needed skipped =>
    -- A word that begins like `null` is not left to the reader of items.
    by_cases hletter : first = 'n'
    · exact of_error fun rest => hletter ▸ ⟨_, rfl⟩
    · have hitem : (fun rest => Reader.optional item (.broken first needed skipped :: rest)) =
          fun rest => (some <$> item) (.broken first needed skipped :: rest) := by
        funext rest
        simp [Reader.optional, hletter]
      rw [hitem]
      exact (h.map some).after _
  | _ => exact (h.map some).after _

/-! ## Arrays -/

/-- A token that is left standing. -/
theorem leave (x : α) (token : Token) :
    Stable (fun rest => .ok (x, token :: rest) : Reader α) := by
  intro tokens y rest h more
  cases h
  rfl

/-- A look at the next element goes no further than the element. -/
theorem nextElement (isFirst : Bool) {item : Reader α} (h : Stable item) :
    Stable (Reader.nextElement isFirst item) := by
  refine of_cons rfl (fun _ _ => rfl) ?_
  intro token
  cases token with
  | closeSquare => exact leave none .closeSquare
  | comma =>
    cases isFirst with
    | true => exact fail _
    | false => exact h.map some
  | _ =>
    cases isFirst with
    | true => exact (h.map some).after _
    | false => exact fail _

/-- Neither more tokens nor a wider bound change what has been read. -/
theorem elements {item : Reader α} (h : Stable item) {bound : Nat} {isFirst : Bool}
    {tokens rest : List Token} {xs : List α}
    (hread : Reader.elements item bound isFirst tokens = .ok (xs, rest)) {wider : Nat}
    (hwider : bound ≤ wider) (more : List Token) :
    Reader.elements item wider isFirst (tokens ++ more) = .ok (xs, rest ++ more) := by
  -- Both bounds are spent one by one, and the narrower one has lasted.
  induction bound generalizing isFirst tokens xs rest wider with
  | zero => cases hread
  | succ bound ih =>
    obtain ⟨wider, rfl⟩ : ∃ smaller, wider = smaller + 1 := ⟨wider - 1, by omega⟩
    obtain ⟨next, later, hnext, hrest⟩ := Reader.bind_eq_ok hread
    show (Reader.nextElement isFirst item >>= _) (tokens ++ more) = _
    rw [Reader.bind_of_ok (h.nextElement isFirst _ _ _ hnext more)]
    cases next with
    | none => exact pure _ _ _ _ hrest more
    | some x =>
      obtain ⟨xs, last, hxs, hlast⟩ := Reader.bind_eq_ok hrest
      show (Reader.elements item wider false >>= _) (later ++ more) = _
      rw [Reader.bind_of_ok (ih hxs (Nat.le_of_succ_le_succ hwider))]
      exact pure _ _ _ _ hlast more

/-- The bound of the loop is the number of the tokens that are left. -/
theorem arrayRest_eq (item : Reader α) (tokens : List Token) :
    Reader.arrayRest item tokens = (Reader.elements item tokens.length true >>= fun xs => do
      Reader.expect .closeSquare
      Pure.pure xs : Reader (List α)) tokens := rfl

/-- The bound of the loop depends on what follows, but a wider one changes nothing. -/
theorem arrayRest {item : Reader α} (h : Stable item) : Stable (Reader.arrayRest item) := by
  intro tokens xs rest hread more
  rw [arrayRest_eq] at hread ⊢
  obtain ⟨ys, later, hys, hrest⟩ := Reader.bind_eq_ok hread
  have hwider : tokens.length ≤ (tokens ++ more).length := by
    rw [List.length_append]
    exact Nat.le_add_right _ _
  rw [Reader.bind_of_ok (h.elements hys hwider more)]
  exact ((expect .closeSquare).bind fun _ => pure ys) later xs rest hrest more

/-- An array is read to its closing bracket and no further. -/
theorem array {item : Reader α} (h : Stable item) : Stable (Reader.array item) := by
  refine of_cons rfl (fun _ _ => rfl) ?_
  intro token
  cases token with
  | openSquare => exact h.arrayRest
  | _ => exact fail _

/-! ## Objects -/

/-- A look at the next key goes no further than the key. -/
theorem nextKey (use : Use) (isFirst : Bool) : Stable (Reader.nextKey use isFirst) := by
  refine of_cons rfl (fun _ _ => rfl) ?_
  intro token
  cases token with
  | closeCurly => exact leave none .closeCurly
  | comma =>
    cases isFirst with
    | true => exact fail _
    | false => exact (key use).map some
  | _ =>
    cases isFirst with
    | true => exact ((key use).map some).after _
    | false => exact fail _

/-- The loop over members takes the same members with more tokens and a wider bound, by induction on
the bound. -/
theorem members (use : Use) {member : σ → String → Reader σ} (h : ∀ s key, Stable (member s key))
    {bound : Nat} {isFirst : Bool} {s t : σ} {tokens rest : List Token}
    (hread : Reader.members use member bound isFirst s tokens = .ok (t, rest)) {wider : Nat}
    (hwider : bound ≤ wider) (more : List Token) :
    Reader.members use member wider isFirst s (tokens ++ more) = .ok (t, rest ++ more) := by
  induction bound generalizing isFirst s tokens wider with
  | zero => cases hread
  | succ bound ih =>
    obtain ⟨wider, rfl⟩ : ∃ smaller, wider = smaller + 1 := ⟨wider - 1, by omega⟩
    obtain ⟨next, later, hnext, hrest⟩ := Reader.bind_eq_ok hread
    show (Reader.nextKey use isFirst >>= _) (tokens ++ more) = _
    rw [Reader.bind_of_ok (nextKey use isFirst _ _ _ hnext more)]
    cases next with
    | none => exact pure _ _ _ _ hrest more
    | some name =>
      obtain ⟨u, last, hu, hlast⟩ := Reader.bind_eq_ok hrest
      show (member s name >>= _) (later ++ more) = _
      rw [Reader.bind_of_ok (h s name _ _ _ hu more)]
      exact ih hlast (Nat.le_of_succ_le_succ hwider)

theorem objectRest_eq (use : Use) (member : σ → String → Reader σ) (start : σ)
    (tokens : List Token) :
    Reader.objectRest use member start tokens =
      (Reader.members use member tokens.length true start >>= fun result => do
        Reader.expect .closeCurly
        Pure.pure result : Reader σ) tokens := rfl

/-- An object is read to its closing bracket and no further. -/
theorem objectRest (use : Use) {member : σ → String → Reader σ}
    (h : ∀ s key, Stable (member s key)) (start : σ) :
    Stable (Reader.objectRest use member start) := by
  intro tokens t rest hread more
  rw [objectRest_eq] at hread ⊢
  obtain ⟨u, later, hu, hrest⟩ := Reader.bind_eq_ok hread
  have hwider : tokens.length ≤ (tokens ++ more).length := by
    rw [List.length_append]
    exact Nat.le_add_right _ _
  rw [Reader.bind_of_ok (members use h hu hwider more)]
  exact ((expect .closeCurly).bind fun _ => pure u) later t rest hrest more

end Stable

/-! ## Values of any shape -/

theorem Tree.stable_ofToken (use : Use) (token : Token) :
    Stable (fun rest => (Tree.ofToken use token).map (·, rest)) := by
  intro tokens x rest hread more
  cases h : Tree.ofToken use token with
  | error e =>
    rw [h] at hread
    cases hread
  | ok tree =>
    rw [h] at hread
    cases hread
    rfl

/-- A value of unknown shape is stable, by induction on the brackets that may still be opened. -/
theorem Tree.stable (use : Use) (room : Nat) : Stable (Tree.reader use room) := by
  -- A bracket is the only token that asks for room.
  induction room with
  | zero =>
    refine .of_cons rfl (fun _ _ => rfl) ?_
    intro token
    cases token with
    | openSquare => exact .fail _
    | openCurly => exact .fail _
    | _ => exact stable_ofToken use _
  | succ room ih =>
    refine .of_cons rfl (fun _ _ => rfl) ?_
    intro token
    cases token with
    | openSquare => exact ih.arrayRest.map Tree.array
    | openCurly =>
      refine (Stable.objectRest use ?_ []).map fun members => Tree.object members.reverse
      intro members name
      exact (Stable.expect .colon).bind fun _ => ih.map fun tree => (name, tree) :: members
    | _ => exact stable_ofToken use _

end FixedWidth.Json
