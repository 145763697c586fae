import FixedWidth.Proofs.Reading

/-!
# Printed texts that are cut short or go on

What the lexer makes of a printed text without its end, and of one with more behind it. A cut falls
between two tokens or inside one. The tokens before it are those that were written; one that has
only begun is broken by the end of the text, at whatever character it was cut (`CutShort`).

> `cutShort_tokens`: the tokens of a proper beginning of a printed list are the list, cut short.

What comes behind a printed text is read as if it stood alone, and it has no tokens just if it is
blank (`tokens_eq_nil_iff`).
-/

namespace FixedWidth.Json

namespace Lexer

/-! ## Cuts inside a token -/

/-- A word that lacks letters at its end. -/
theorem tokensFrom_word {first : Char} {token : Token} {front back : List Char} (hback : back ≠ []) :
    tokensFrom (.word first (front ++ back) token) front =
      [.broken first .endOfText .endOfText] := by
  induction front with
  | nil => rfl
  | cons c front ih =>
    -- The letter is not the last one, as those of `back` are still to come.
    have hstep : step (.word first (c :: (front ++ back)) token) c =
        ([], .word first (front ++ back) token) := by
      cases hrest : front ++ back with
      | nil => exact absurd (List.append_eq_nil_iff.mp hrest).2 hback
      | cons next more => exact if_pos rfl
    rw [List.cons_append, tokensFrom, hstep]
    exact ih

/-- A text that has lost its content does not get it back by a character. -/
theorem content_of_push {soFar : TextSoFar} {c : Char} (h : (soFar.push c).content.isSome) :
    soFar.content.isSome := by
  unfold TextSoFar.push at h
  split at h
  · cases h
  · rwa [Option.isSome_map] at h

theorem content_of_pushUnit {soFar : TextSoFar} {unit : Nat}
    (h : (soFar.pushUnit unit).content.isSome) : soFar.content.isSome := by
  unfold TextSoFar.pushUnit at h
  simp only at h
  split at h
  · split at h
    · rwa [Option.isSome_map] at h
    · cases h
  · split at h
    · exact h
    · split at h
      · cases h
      · exact content_of_push h

/-- A character of a text finishes a token, or else it leaves the lexer inside the text; and a text
that has no content any more does not get it back. -/
theorem step_text (phase : TextPhase) (soFar : TextSoFar) (c : Char) :
    (step (.text phase soFar) c).1 ≠ [] ∨
      ∃ phase' soFar', step (.text phase soFar) c = ([], .text phase' soFar') ∧
        (soFar'.content.isSome → soFar.content.isSome) := by
  show (textStep phase soFar c).1 ≠ [] ∨ ∃ phase' soFar', textStep phase soFar c = _ ∧ _
  cases phase with
  | plain =>
    unfold textStep
    simp only
    split
    · exact .inl (List.cons_ne_nil _ _)
    · split
      · exact .inr ⟨_, _, rfl, id⟩
      · split
        · exact .inl (List.cons_ne_nil _ _)
        · exact .inr ⟨_, _, rfl, content_of_push⟩
  | escape =>
    unfold textStep
    simp only
    split
    · exact .inr ⟨_, _, rfl, id⟩
    · split
      · exact .inr ⟨_, _, rfl, content_of_push⟩
      · exact .inl (List.cons_ne_nil _ _)
  | numbered bytes code =>
    unfold textStep
    simp only
    split
    · exact .inr ⟨_, _, rfl, id⟩
    · split
      · exact .inr ⟨_, _, rfl, content_of_pushUnit⟩
      · exact .inl (List.cons_ne_nil _ _)

/-- As long as no token is finished, the automaton stays inside the text. -/
theorem feed_text {phase : TextPhase} {soFar : TextSoFar} {cs : List Char}
    (h : (feed (.text phase soFar) cs).1 = []) :
    ∃ phase' soFar', feed (.text phase soFar) cs = ([], .text phase' soFar') ∧
      (soFar'.content.isSome → soFar.content.isSome) := by
  induction cs generalizing phase soFar with
  | nil => exact ⟨phase, soFar, rfl, id⟩
  | cons c cs ih =>
    obtain ⟨hstep, hrest⟩ := List.append_eq_nil_iff.mp h
    rcases step_text phase soFar c with hne | ⟨phase', soFar', hnext, hcontent⟩
    · exact absurd hstep hne
    · rw [hnext] at hrest
      obtain ⟨phase'', soFar'', hfeed, hcontent'⟩ := ih hrest
      refine ⟨phase'', soFar'', ?_, fun hsome => hcontent (hcontent' hsome)⟩
      rw [feed, hnext, hfeed]
      rfl

/-- A text that lacks characters at its end. Its content is sound as far as it has come, since it
would be in the end. -/
theorem tokensFrom_text {content front back : List Char}
    (h : content.flatMap Token.escaped = front ++ back) :
    tokensFrom (inText []) front = [.broken '"' .endOfText .endOfText] := by
  have hwhole := feed_flatMap_escaped content []
  rw [h, feed_append] at hwhole
  obtain ⟨htokens, hlast⟩ := Prod.mk.inj hwhole
  -- The whole makes no token, hence neither part does.
  obtain ⟨hfront, hback⟩ := List.append_eq_nil_iff.mp htokens
  obtain ⟨phase, soFar, hcut, -⟩ := feed_text hfront
  change feed (inText []) front = _ at hcut
  rw [hcut] at hback hlast
  obtain ⟨phase', soFar', hend, hcontent⟩ := feed_text hback
  rw [hend] at hlast
  -- Content that is lost does not come back, and in the end it is there.
  have hsome : soFar.content.isSome := by
    refine hcontent ?_
    obtain ⟨-, rfl⟩ := State.text.inj hlast
    rfl
  have hfinish : tokensFrom (inText []) front = finish (.text phase soFar) := by
    have hsplit := tokensFrom_append (inText []) front []
    rw [List.append_nil] at hsplit
    rw [hsplit, hcut]
    rfl
  rw [hfinish, finish, Option.isNone_eq_false_iff.mpr hsome]
  rfl

/-- A token of which more than nothing and less than everything is there. -/
theorem tokens_begun {token : Token} (hclosed : token.IsClosed) {first : Char}
    {front back : List Char} (h : token.written = first :: (front ++ back)) (hback : back ≠ []) :
    tokens (first :: front) = [.broken first .endOfText .endOfText] := by
  have hrest : front ++ back ≠ [] := List.append_ne_nil_of_right_ne_nil front hback
  cases token with
  | null =>
    obtain ⟨rfl, hletters⟩ := List.cons.inj h
    show tokensFrom (.word 'n' ['u', 'l', 'l'] .null) front = _
    rw [hletters]
    exact tokensFrom_word hback
  | bool value =>
    cases value with
    | true =>
      obtain ⟨rfl, hletters⟩ := List.cons.inj h
      show tokensFrom (.word 't' ['r', 'u', 'e'] (.bool true)) front = _
      rw [hletters]
      exact tokensFrom_word hback
    | false =>
      obtain ⟨rfl, hletters⟩ := List.cons.inj h
      show tokensFrom (.word 'f' ['a', 'l', 's', 'e'] (.bool false)) front = _
      rw [hletters]
      exact tokensFrom_word hback
  | text content =>
    cases content with
    | none => exact absurd hclosed id
    | some content =>
      obtain ⟨rfl, hbody⟩ := List.cons.inj h
      -- The closing quote is missing, so the cut falls into what stands between the two.
      rcases List.eq_nil_or_concat' back with hnil | ⟨missing, quote, rfl⟩
      · exact absurd hnil hback
      · change content.toList.flatMap Token.escaped ++ ['"'] = _ at hbody
        rw [← List.append_assoc] at hbody
        exact tokensFrom_text (List.append_inj' hbody rfl).1
  | number value => exact absurd hclosed id
  | broken first needed skipped => exact absurd hclosed id
  | _ => exact absurd (List.cons.inj h).2.symm hrest

end Lexer

/-! ## Cuts of a list of tokens -/

/-- What is left of a list of tokens when the text that it prints is cut. Of the token in which the
cut falls there is nothing left, or a broken token, which begins with the same character. -/
inductive CutShort : List Token → List Token → Prop where
  | between (token : Token) (rest : List Token) : CutShort [] (token :: rest)
  | inside {token : Token} {first : Char} {more : List Char}
    (h : token.written = first :: more) (hmore : more ≠ []) (rest : List Token) :
    CutShort [.broken first .endOfText .endOfText] (token :: rest)
  | later (token : Token) {short rest : List Token} (h : CutShort short rest) :
    CutShort (token :: short) (token :: rest)

namespace Lexer

/-- A text that ends inside of its first token leaves nothing of it, or a broken token. -/
theorem cutShort_token {token : Token} (hclosed : token.IsClosed) {front back : List Char}
    (h : token.written = front ++ back) (hback : back ≠ []) (rest : List Token) :
    CutShort (tokens front) (token :: rest) := by
  cases front with
  | nil => exact .between token rest
  | cons first front =>
    rw [tokens_begun hclosed h hback]
    exact .inside h (List.append_ne_nil_of_right_ne_nil front hback) rest

/-- A text that ends before all of its tokens do leaves them cut short. The induction is on the
tokens; the cut falls into the first one or behind it. -/
theorem cutShort_tokens {written : List Token} (hclosed : Layout.AllClosed written)
    {front back : List Char} (h : written.flatMap Token.written = front ++ back)
    (hback : back ≠ []) : CutShort (tokens front) written := by
  induction written generalizing front with
  | nil => exact absurd (List.append_eq_nil_iff.mp h.symm).2 hback
  | cons token rest ih =>
    have htoken : token.IsClosed := hclosed token (List.mem_cons_self ..)
    have hrest : Layout.AllClosed rest := fun t ht => hclosed t (List.mem_cons_of_mem _ ht)
    -- The token may be there as a whole, even if nothing else is.
    have hwhole : ∀ more, front = token.written ++ more →
        rest.flatMap Token.written = more ++ back → CutShort (tokens front) (token :: rest) := by
      intro more hfront hmore
      have htokens : tokens front = token :: tokens more := by
        rw [hfront, tokens, tokensFrom_append, feed_written htoken]
        rfl
      rw [htokens]
      exact .later token (ih hrest hmore)
    rw [List.flatMap_cons] at h
    rcases List.append_eq_append_iff.mp h with ⟨more, hfront, hmore⟩ | ⟨missing, htaken, hlater⟩
    · exact hwhole more hfront hmore
    · by_cases hmissing : missing = []
      · rw [hmissing, List.append_nil] at htaken
        rw [hmissing, List.nil_append] at hlater
        exact hwhole [] (by rw [htaken, List.append_nil]) hlater.symm
      · exact cutShort_token htoken htaken hmissing rest

/-! ## More text behind -/

/-- Whether a token has begun and is not finished. -/
def State.IsBusy : State → Prop
  | .word .. | .numeral .. | .text .. => True
  | .between | .stopped => False

/-- Any character but a blank gives a token or begins one. -/
theorem begin_of_not_isBlank {c : Char} (h : isBlank c = false) :
    (begin c).1 ≠ [] ∨ (begin c).2.IsBusy := by
  unfold begin
  rw [h, if_neg Bool.false_ne_true]
  split
  -- Only a digit and what begins nothing are told apart by a second look.
  all_goals try split
  all_goals first
    | exact .inl (List.cons_ne_nil _ _)
    | exact .inr trivial

/-- A token that has begun ends in a token, or goes on. -/
theorem step_of_isBusy {state : State} (h : state.IsBusy) (c : Char) :
    (step state c).1 ≠ [] ∨ (step state c).2.IsBusy := by
  cases state with
  | between => exact absurd h id
  | stopped => exact absurd h id
  | word first rest token =>
    -- The last letter of a word finishes it, and the wrong one breaks it.
    rcases rest with _ | ⟨letter, _ | ⟨next, rest⟩⟩
    · exact .inl (List.cons_ne_nil _ _)
    · by_cases hc : c = letter
      · exact .inl (by simp [step, hc])
      · exact .inl (by simp [step, hc, malformed])
    · by_cases hc : c = letter
      · exact .inr (by simp [step, hc, State.IsBusy])
      · exact .inl (by simp [step, hc, malformed])
  | numeral phase parts =>
    cases hnext : numeralStep phase parts c with
    | some next => exact .inr (by simp [step, hnext, State.IsBusy])
    | none =>
      refine .inl ?_
      simp only [step, hnext]
      split
      · exact List.cons_ne_nil _ _
      · exact List.cons_ne_nil _ _
  | text phase soFar =>
    rcases step_text phase soFar c with hne | ⟨phase', soFar', hnext, -⟩
    · exact .inl hne
    · rw [hnext]
      exact .inr trivial

/-- At the end of the text, a token that has begun is reported, finished or broken. -/
theorem finish_ne_nil {state : State} (h : state.IsBusy) : finish state ≠ [] := by
  cases state with
  | between => exact absurd h id
  | stopped => exact absurd h id
  | word first rest token => exact List.cons_ne_nil _ _
  | numeral phase parts =>
    simp only [finish]
    split
    · exact List.cons_ne_nil _ _
    · exact List.cons_ne_nil _ _
  | text phase soFar => exact List.cons_ne_nil _ _

/-- A token that has begun is finished or broken, if only by the end. -/
theorem tokensFrom_ne_nil {state : State} (h : state.IsBusy) (cs : List Char) :
    tokensFrom state cs ≠ [] := by
  induction cs generalizing state with
  | nil => exact finish_ne_nil h
  | cons c cs ih =>
    rw [tokensFrom]
    rcases step_of_isBusy h c with hne | hbusy
    · exact List.append_ne_nil_of_left_ne_nil hne _
    · exact List.append_ne_nil_of_right_ne_nil _ (ih hbusy)

/-- Only a text of blanks has no tokens. -/
theorem tokens_eq_nil_iff (cs : List Char) : tokens cs = [] ↔ cs.all isBlank = true := by
  induction cs with
  | nil => exact iff_of_true rfl rfl
  | cons c cs ih =>
    rw [List.all_cons, Bool.and_eq_true, ← ih]
    cases hblank : isBlank c with
    | true =>
      have hstep : step .between c = ([], .between) := if_pos hblank
      rw [tokens, tokensFrom, hstep]
      exact (and_iff_right rfl).symm
    | false =>
      refine iff_of_false ?_ fun h => Bool.false_ne_true h.1
      show (begin c).1 ++ tokensFrom (begin c).2 cs ≠ []
      rcases begin_of_not_isBlank hblank with hne | hbusy
      · exact List.append_ne_nil_of_left_ne_nil hne _
      · exact List.append_ne_nil_of_right_ne_nil _ (tokensFrom_ne_nil hbusy cs)

end Lexer

end FixedWidth.Json
