import FixedWidth.Command.Perform

/-!
# Output on a sink that fills up

A command writes in many small steps, and each of them may find the sink full. `Yields` says of a
computation what it has to write and what it ends with where there is room for all of it; on any
sink it then writes as much of that as fits, and ends with its own result exactly if all of it does.

- `Sink.after_append` and `Sink.hasRoom_append`: a sink does not see how its input is cut;
- `Yields.bind`: so the outputs of two steps make one output;
- `value_forM_emit`: a text can be written in any number of steps.
-/

namespace FixedWidth

/-- The bytes of texts that are put together are those of the texts. -/
theorem Text.bytes_join (texts : List String) :
    bytes (String.join texts) = texts.flatMap bytes := by
  induction texts with
  | nil => rfl
  | cons text rest ih => rw [String.join_cons, bytes_append, ih, List.flatMap_cons]

/-- Lines that are each ended by a line break are the text of the lines with one more at its end. -/
theorem Text.bytes_lines {lines : List String} (h : lines ≠ []) :
    lines.flatMap (fun line => bytes (line ++ "\n")) = bytes ("\n".intercalate lines ++ "\n") := by
  induction lines with
  | nil => exact absurd rfl h
  | cons line rest ih =>
    cases rest with
    | nil => rw [List.flatMap_singleton, String.intercalate_singleton]
    | cons next rest =>
      rw [List.flatMap_cons, ih (List.cons_ne_nil next rest), String.intercalate_cons_cons,
        String.append_assoc, bytes_append (line ++ "\n")]

/-! ## Sinks -/

namespace Sink

/-- Whether the sink has room for all of some bytes. -/
def HasRoom (sink : Sink) (bytes : List UInt8) : Prop :=
  (sink.fitting bytes).length = bytes.length

instance (sink : Sink) (bytes : List UInt8) : Decidable (sink.HasRoom bytes) :=
  inferInstanceAs (Decidable (_ = _))

/-- The sink after as many of some bytes as it has room for. -/
def after (sink : Sink) (bytes : List UInt8) : Sink :=
  { sink with taken := sink.taken ++ sink.fitting bytes }

theorem fitting_of_unlimited {sink : Sink} (h : sink.limit = none) (bytes : List UInt8) :
    sink.fitting bytes = bytes := by
  unfold fitting
  rw [h]

/-- A sink with a limit has room for a prefix. -/
theorem fitting_of_limited {sink : Sink} {limit : Nat} (h : sink.limit = some limit)
    (bytes : List UInt8) : sink.fitting bytes = bytes.take (limit - sink.taken.length) := by
  unfold fitting
  rw [h]

/-- What fits of two pieces is what fits of the first one, and then of the second. -/
theorem fitting_append (sink : Sink) (a b : List UInt8) :
    sink.fitting (a ++ b) = sink.fitting a ++ (sink.after a).fitting b := by
  cases hlimit : sink.limit with
  | none =>
    have hafter : (sink.after a).limit = none := hlimit
    rw [fitting_of_unlimited hlimit, fitting_of_unlimited hlimit, fitting_of_unlimited hafter]
  | some limit =>
    have hafter : (sink.after a).limit = some limit := hlimit
    -- Whether or not `a` fits, the room behind it is what the limit leaves.
    have hroom : limit - (sink.after a).taken.length = limit - sink.taken.length - a.length := by
      show limit - (sink.taken ++ sink.fitting a).length = _
      rw [fitting_of_limited hlimit, List.length_append, List.length_take]
      omega
    rw [fitting_of_limited hlimit, fitting_of_limited hlimit, fitting_of_limited hafter,
      List.take_append, hroom]

theorem length_fitting_le (sink : Sink) (bytes : List UInt8) :
    (sink.fitting bytes).length ≤ bytes.length := by
  unfold fitting
  split
  · exact Nat.le_refl _
  · exact List.length_take_le' _ _

/-- Bytes in two portions leave a sink as they do in one. -/
theorem after_append (sink : Sink) (a b : List UInt8) :
    sink.after (a ++ b) = (sink.after a).after b := by
  unfold after
  rw [fitting_append, ← List.append_assoc]
  rfl

/-- There is room for two portions if there is room for the second one after the first. -/
theorem hasRoom_append (sink : Sink) (a b : List UInt8) :
    sink.HasRoom (a ++ b) ↔ sink.HasRoom a ∧ (sink.after a).HasRoom b := by
  have ha := sink.length_fitting_le a
  have hb := (sink.after a).length_fitting_le b
  unfold HasRoom
  rw [fitting_append, List.length_append, List.length_append]
  omega

/-- What does not fit leaves no room for more. -/
theorem after_append_of_not_hasRoom {sink : Sink} {a : List UInt8} (h : ¬ sink.HasRoom a)
    (b : List UInt8) : sink.after (a ++ b) = sink.after a := by
  cases hlimit : sink.limit with
  | none => exact absurd (congrArg List.length (fitting_of_unlimited hlimit a)) h
  | some limit =>
    have hshort : limit - sink.taken.length ≤ a.length := by
      unfold HasRoom at h
      rw [fitting_of_limited hlimit, List.length_take] at h
      omega
    unfold after
    rw [fitting_of_limited hlimit, fitting_of_limited hlimit, List.take_append_of_le_length hshort]

theorem hasRoom_nil (sink : Sink) : sink.HasRoom [] :=
  Nat.le_zero.mp (sink.length_fitting_le [])

theorem after_nil (sink : Sink) : sink.after [] = sink := by
  have hnil : sink.fitting [] = [] := List.eq_nil_of_length_eq_zero sink.hasRoom_nil
  unfold after
  rw [hnil, List.append_nil]

/-- What writing does, in the words of this module. -/
theorem write_eq (sink : Sink) (bytes : List UInt8) :
    sink.write bytes =
      (if sink.HasRoom bytes then .ok () else .error .full, sink.after bytes) := by
  have hle := sink.length_fitting_le bytes
  show (if (sink.fitting bytes).length < bytes.length then _ else _, sink.after bytes) = _
  by_cases h : sink.HasRoom bytes
  · rw [if_pos h, if_neg (Nat.not_lt.mpr (Nat.le_of_eq h.symm))]
  · rw [if_neg h, if_pos (Nat.lt_of_le_of_ne hle h)]

theorem hasRoom_unlimited (bytes : List UInt8) : HasRoom {} bytes := rfl

/-- An empty sink with a limit has room for what is no longer than the limit. -/
theorem ite_hasRoom_limited {γ : Type} (limit : Nat) (bytes : List UInt8) (a b : γ) :
    (if HasRoom { limit := some limit } bytes then a else b) =
      if limit < bytes.length then b else a := by
  have hiff : HasRoom { limit := some limit } bytes ↔ ¬ limit < bytes.length := by
    show (bytes.take limit).length = bytes.length ↔ _
    rw [List.length_take]
    omega
  simp only [hiff, ite_not]

end Sink

theorem Value.writeImmediate_unlimited (v : Value) :
    v.writeImmediate {} = (.ok (), { taken := v.immediate }) := by
  unfold writeImmediate
  rw [Sink.write_eq, if_pos (Sink.hasRoom_unlimited _)]
  rfl

/-- With a limit, as many bytes of a value are taken as the limit says, and the sink is full if that
is not all of them. -/
theorem Value.writeImmediate_limited (v : Value) (limit : Nat) :
    v.writeImmediate { limit := some limit } =
      (if limit < v.immediate.length then .error .full else .ok (),
        { limit := some limit, taken := v.immediate.take limit }) := by
  unfold writeImmediate
  rw [Sink.write_eq, Sink.ite_hasRoom_limited]
  rfl

/-! ## Computations -/

namespace CommandM

variable {α β : Type} {x : CommandM α} {f : α → CommandM β}

/-- What a computation writes and ends with, on any sink: as much of `bytes` as there is room for,
and then `result`, or the error of the sink if there was not enough room. -/
def Yields (x : CommandM α) (bytes : List UInt8) (result : Except CommandError α) : Prop :=
  ∀ sink, (x sink).value =
    (if sink.HasRoom bytes then result else .error (.writing .full), sink.after bytes)

/-- A sequence goes on with the sink as its first part leaves it, or ends with the error of that. -/
theorem value_bind (x : CommandM α) (f : α → CommandM β) (sink : Sink) :
    ((x >>= f) sink).value =
      match (x sink).value with
      | (.ok a, sink) => (f a sink).value
      | (.error e, sink) => (.error e, sink) := by
  show ((x sink >>= fun p => ExceptT.bindCont f p.1 p.2) : Logged _).value = _
  rw [Logged.value_bind]
  rcases (x sink).value with ⟨_ | _, _⟩ <;> rfl

/-- A computation that leaves every sink alone yields its result without a byte. -/
theorem yields_silent {result : Except CommandError α}
    (h : ∀ sink, (x sink).value = (result, sink)) : Yields x [] result := by
  intro sink
  rw [h, if_pos sink.hasRoom_nil, sink.after_nil]

theorem yields_pure (a : α) : Yields (pure a) [] (.ok a) := yields_silent fun _ => rfl

theorem yields_tell (event : Event) : Yields (tell event) [] (.ok ()) := yields_silent fun _ => rfl

theorem yields_logged (l : Logged α) : Yields (logged l) [] (.ok l.value) :=
  yields_silent fun _ => rfl

theorem yields_ofExcept_ok {ε : Type} (error : ε → CommandError) (a : α) :
    Yields (ofExcept error (.ok a)) [] (.ok a) := yields_silent fun _ => rfl

theorem yields_ofExcept_error {ε : Type} (error : ε → CommandError) (e : ε) :
    Yields (ofExcept error (.error e) : CommandM α) [] (.error (error e)) :=
  yields_silent fun _ => rfl

theorem yields_emit (text : String) : Yields (emit text) (Text.bytes text) (.ok ()) := by
  intro sink
  unfold emit
  rw [Sink.write_eq]
  by_cases h : sink.HasRoom (Text.bytes text)
  · rw [if_pos h, if_pos h]
    rfl
  · rw [if_neg h, if_neg h]
    rfl

/-- After a step that succeeds, the output goes on with that of the next one. -/
theorem Yields.bind {a : α} {bytes more : List UInt8} {result : Except CommandError β}
    (hx : Yields x bytes (.ok a)) (hf : Yields (f a) more result) :
    Yields (x >>= f) (bytes ++ more) result := by
  intro sink
  rw [value_bind, hx sink]
  by_cases hroom : sink.HasRoom bytes
  · have hiff : sink.HasRoom (bytes ++ more) ↔ (sink.after bytes).HasRoom more := by
      rw [sink.hasRoom_append, and_iff_right hroom]
    rw [if_pos hroom, sink.after_append]
    simp only [hf (sink.after bytes), hiff]
  · -- The sink is full in the middle of the first step, and the second one is not begun.
    have hnot : ¬ sink.HasRoom (bytes ++ more) := fun h => hroom ((sink.hasRoom_append ..).mp h).1
    rw [if_neg hroom, if_neg hnot, Sink.after_append_of_not_hasRoom hroom]

/-- A step that fails is the last one. -/
theorem Yields.bind_error {e : CommandError} {bytes : List UInt8} (hx : Yields x bytes (.error e)) :
    Yields (x >>= f) bytes (.error e) := by
  intro sink
  rw [value_bind, hx sink]
  by_cases hroom : sink.HasRoom bytes
  · rw [if_pos hroom, if_pos hroom]
  · rw [if_neg hroom, if_neg hroom]

/-- What comes after a silent part yields what it would yield alone. -/
theorem Yields.bind_silent {a : α} {more : List UInt8} {result : Except CommandError β}
    (hx : Yields x [] (.ok a)) (hf : Yields (f a) more result) : Yields (x >>= f) more result :=
  hx.bind hf

/-- Ending with a value writes nothing more. -/
theorem Yields.endWith {x : CommandM Unit} {bytes : List UInt8} (hx : Yields x bytes (.ok ()))
    (b : β) : Yields (x >>= fun _ => pure b) bytes (.ok b) := by
  have h := hx.bind (f := fun _ => pure b) (yields_pure b)
  rw [List.append_nil] at h
  exact h

/-- A line may be written in two pieces; it yields the bytes of the whole. -/
theorem yields_emitLine (text : String) :
    Yields (emitLine text) (Text.bytes (text ++ "\n")) (.ok ()) := by
  rw [Text.bytes_append]
  exact (yields_emit text).bind (yields_emit "\n")

/-- Steps that always succeed yield their bytes one after another, by induction on the items. -/
theorem yields_forM {ι : Type} {step : ι → CommandM Unit} {bytes : ι → List UInt8}
    (h : ∀ i, Yields (step i) (bytes i) (.ok ())) (items : List ι) :
    Yields (items.forM step) (items.flatMap bytes) (.ok ()) := by
  induction items with
  | nil => exact yields_pure ()
  | cons i rest ih => exact (h i).bind ih

/-- A row yields its cells without anything between them. -/
theorem yields_emitRow (cells : List String) :
    Yields (emitRow cells) (cells.flatMap Text.bytes ++ Text.bytes "\n") (.ok ()) :=
  (yields_forM yields_emit cells).bind (yields_emit "\n")

/-- It does not matter in how many steps a text is written. -/
theorem value_forM_emit (pieces : List String) (sink : Sink) :
    (pieces.forM emit sink).value = (emit (String.join pieces) sink).value := by
  rw [yields_forM yields_emit pieces sink, yields_emit _ sink, Text.bytes_join]

/-- Whether a computation writes only when nothing but the sink can stop it any more. -/
inductive WritesLast (x : CommandM α) : Prop where
  | done {bytes : List UInt8} {a : α} (h : Yields x bytes (.ok a))
  | failed {e : CommandError} (h : Yields x [] (.error e)) (hcause : ∀ cause, e ≠ .writing cause)

/-- What writes last yields certain bytes, and none at all where it ends in an error of its own. -/
theorem WritesLast.exists_yields (h : WritesLast x) :
    ∃ bytes result, Yields x bytes result ∧
      ∀ e, result = .error e → bytes = [] ∧ ∀ cause, e ≠ .writing cause := by
  cases h with
  | @done bytes a h =>
    refine ⟨bytes, .ok a, h, ?_⟩
    intro e he
    cases he
  | @failed e h hcause =>
    refine ⟨[], .error e, h, ?_⟩
    intro e' he
    cases he
    exact ⟨rfl, hcause⟩

/-- A silent part may stand in front of what writes last. -/
theorem WritesLast.bind_silent {a : α} (hx : Yields x [] (.ok a)) (hf : WritesLast (f a)) :
    WritesLast (x >>= f) := by
  cases hf with
  | done h => exact .done (hx.bind_silent h)
  | failed h hcause => exact .failed (hx.bind_silent h) hcause

end CommandM

end FixedWidth
