import FixedWidth.Command.Perform
import Mathlib.Data.List.Forall2

/-!
# Options among operands

The arguments after the operator come in pieces: an operand, the option `--bytes`, or the option
`--into` with the type after it. What a list of pieces asks for is told by its operands in their
order, by the last of its types, and by whether `--bytes` is among them; where the options stand
says nothing (`extend_written`). Any argument list is a list of such pieces up to the first argument
that is wrong, if there is one (`scanned`), and that one is the error (`ofArguments_of_offends`).

> `invoke_eval_arguments`
-/

namespace FixedWidth

/-- Either all of a list can be done, or there is a first that cannot. -/
theorem forall₂_or_first {α β ε : Type} (f : α → Except ε β) (xs : List α) :
    (∃ ys, List.Forall₂ (fun x y => f x = .ok y) xs ys) ∨
    ∃ front x back ys e, xs = front ++ x :: back ∧
      List.Forall₂ (fun x y => f x = .ok y) front ys ∧ f x = .error e := by
  induction xs with
  | nil => exact .inl ⟨[], .nil⟩
  | cons x xs ih =>
    cases hx : f x with
    | error e => exact .inr ⟨[], x, xs, [], e, rfl, .nil, hx⟩
    | ok y =>
      rcases ih with ⟨ys, hys⟩ | ⟨front, failing, back, ys, e, rfl, hys, hfail⟩
      · exact .inl ⟨y :: ys, .cons hx hys⟩
      · exact .inr ⟨x :: front, failing, back, y :: ys, e, rfl, .cons hx hys, hfail⟩

/-- A text is refused as a type only if it is the name of none. -/
theorem IntType.ofName?_eq_none_iff {name : String} :
    ofName? name = none ↔ ∀ t, name ≠ IntType.name t := by
  unfold ofName?
  rw [List.find?_eq_none]
  constructor
  · intro h t heq
    exact h t t.mem_all (beq_iff_eq.mpr heq.symm)
  · intro h t _ heq
    exact h t (beq_iff_eq.mp heq).symm

theorem Operator.ofName?_eq_none_iff {name : String} :
    ofName? name = none ↔ ∀ op, name ≠ Operator.name op := by
  unfold ofName?
  rw [List.find?_eq_none]
  constructor
  · intro h op heq
    exact h op op.mem_all (beq_iff_eq.mpr heq.symm)
  · intro h op _ heq
    exact h op (beq_iff_eq.mp heq).symm

/-- Whether texts are literals of some values, one to one. -/
def Literals (texts : List String) (operands : List Value) : Prop :=
  List.Forall₂ (fun text v => Literal.read text = .ok v) texts operands

/-- Either all texts are literals, or there is a first one that is not. -/
theorem literals_cases (texts : List String) :
    (∃ operands, Literals texts operands) ∨
    ∃ front text back operands cause, texts = front ++ text :: back ∧ Literals front operands ∧
      Literal.read text = .error cause :=
  forall₂_or_first Literal.read texts

namespace Request

/-! ## Pieces -/

/-- Whether an argument is neither of the options, and so stands for an operand. -/
def IsOperand (text : String) : Prop := text ≠ "--bytes" ∧ text ≠ "--into"

instance (text : String) : Decidable (IsOperand text) := inferInstanceAs (Decidable (_ ∧ _))

/-- What stands together among the arguments of an evaluation. -/
inductive Piece where
  | operand (text : String)
  | bytes
  | into (type : IntType)
  deriving DecidableEq, Repr

namespace Piece

/-- The arguments of a piece. -/
def arguments : Piece → List String
  | operand text => [text]
  | bytes => ["--bytes"]
  | into type => ["--into", type.name]

/-- The text of an operand. -/
def text? : Piece → Option String
  | operand text => some text
  | _ => none

/-- The type after `--into`. -/
def type? : Piece → Option IntType
  | into type => some type
  | _ => none

/-- The arguments of pieces, one piece after another. -/
def written (pieces : List Piece) : List String := pieces.flatMap arguments

/-- The operands among pieces, in their order. -/
def texts (pieces : List Piece) : List String := pieces.filterMap text?

/-- The last type among pieces. -/
def target (pieces : List Piece) : Option IntType := (pieces.filterMap type?).getLast?

/-- The same pieces with the operands first, then the last type if there is one, then `--bytes` if
it was among them. -/
def inOrder (pieces : List Piece) : List Piece :=
  (texts pieces).map operand ++ (target pieces).toList.map into ++
    if bytes ∈ pieces then [bytes] else []

/-- Whether every operand among pieces is a literal, and what the literals stand for. -/
def Sound (pieces : List Piece) (operands : List Value) : Prop := Literals (texts pieces) operands

variable {pieces : List Piece} {operands : List Value}

/-- A type counts only where no other one comes after it. -/
theorem target_into_cons (type : IntType) (pieces : List Piece) :
    target (into type :: pieces) = (target pieces).or (some type) := by
  show (type :: pieces.filterMap type?).getLast? = (pieces.filterMap type?).getLast?.or (some type)
  rw [List.getLast?_cons]
  cases (pieces.filterMap type?).getLast? <;> rfl

/-! ### Operands with a type behind them, if there is one -/

theorem written_operands (operands : List String) (type : Option IntType) :
    written (operands.map operand ++ type.toList.map into) =
      operands ++ written (type.toList.map into) := by
  unfold written
  simp [List.flatMap_append, List.flatMap_map, arguments]

theorem texts_operands (operands : List String) (type : Option IntType) :
    texts (operands.map operand ++ type.toList.map into) = operands := by
  unfold texts
  simp [List.filterMap_append, Function.comp_def, text?]

theorem target_operands (operands : List String) (type : Option IntType) :
    target (operands.map operand ++ type.toList.map into) = type := by
  unfold target
  cases type <;> simp [List.filterMap_append, Function.comp_def, type?]

/-- Literals are sound operands, with a destination behind them or without. -/
theorem sound_literals {texts : List String} (h : Literals texts operands)
    (type : Option IntType) : Sound (texts.map operand ++ type.toList.map into) operands := by
  unfold Sound
  rw [texts_operands]
  exact h

/-- Putting pieces in order leaves the operands as they are. -/
theorem texts_inOrder (pieces : List Piece) : texts (inOrder pieces) = texts pieces := by
  have hbytes : (if bytes ∈ pieces then [bytes] else []).filterMap text? = [] := by
    split <;> rfl
  have htexts := texts_operands (texts pieces) (target pieces)
  unfold inOrder
  unfold texts at htexts ⊢
  rw [List.filterMap_append, hbytes, List.append_nil, htexts]

theorem target_inOrder (pieces : List Piece) : target (inOrder pieces) = target pieces := by
  have hbytes : (if bytes ∈ pieces then [bytes] else []).filterMap type? = [] := by
    split <;> rfl
  have htarget := target_operands (texts pieces) (target pieces)
  unfold inOrder
  unfold target at htarget ⊢
  rw [List.filterMap_append, hbytes, List.append_nil, htarget]

/-- Putting pieces in order keeps `--bytes` if it was there, however often. -/
theorem bytes_mem_inOrder : bytes ∈ inOrder pieces ↔ bytes ∈ pieces := by
  unfold inOrder
  simp

end Piece

open Piece

variable {pieces : List Piece} {operands : List Value} {rest : List String}

/-! ## One piece -/

theorem extend_bytes (request : Request) (rest : List String) :
    request.extend ("--bytes" :: rest) = { request with bytes := true }.extend rest := by
  rw [extend]

/-- Reading goes past `--into` and the type after it, which takes the place of any earlier one. -/
theorem extend_into (request : Request) (type : IntType) (rest : List String) :
    request.extend ("--into" :: type.name :: rest) =
      { request with target := some type }.extend rest := by
  rw [extend, IntType.ofName?_name]

/-- What is no option is read as a literal, and ends the reading if it is none. -/
theorem extend_operand {text : String} (h : IsOperand text) (request : Request)
    (rest : List String) :
    request.extend (text :: rest) =
      match Literal.read text with
      | .error cause => .error (.evaluation (.invalidLiteral cause))
      | .ok v => { request with operands := request.operands ++ [v] }.extend rest := by
  obtain ⟨hbytes, hinto⟩ := h
  -- The last equation of `extend` holds of what is no option, at the end or in front of others.
  exact extend.eq_5 request text rest hbytes (fun h _ => hinto h) (fun _ _ h _ => hinto h)

/-! ## All pieces -/

/-- What a request becomes by some pieces whose operands have been read. -/
def gather (request : Request) (pieces : List Piece) (operands : List Value) : Request where
  op := request.op
  operands := request.operands ++ operands
  target := (Piece.target pieces).or request.target
  bytes := request.bytes || decide (Piece.bytes ∈ pieces)

theorem gather_nil (request : Request) : request.gather [] [] = request := by
  simp [gather, Piece.target]

theorem gather_operand (request : Request) (text : String) (v : Value) :
    { request with operands := request.operands ++ [v] }.gather pieces operands =
      request.gather (operand text :: pieces) (v :: operands) := by
  simp [gather, Piece.target, type?]

theorem gather_bytes (request : Request) :
    { request with bytes := true }.gather pieces operands =
      request.gather (Piece.bytes :: pieces) operands := by
  simp [gather, Piece.target, type?]

theorem gather_into (request : Request) (type : IntType) :
    { request with target := some type }.gather pieces operands =
      request.gather (into type :: pieces) operands := by
  simp [gather, target_into_cons]

/-- The pieces are taken one after another, and the first operand that is no literal ends that. What
is gathered does not tell where the options stood. -/
theorem extend_written (h : ∀ text ∈ texts pieces, IsOperand text) (request : Request)
    (rest : List String) :
    request.extend (written pieces ++ rest) =
      match (texts pieces).mapM Literal.read with
      | .error cause => .error (.evaluation (.invalidLiteral cause))
      | .ok operands => (request.gather pieces operands).extend rest := by
  -- Each piece leaves another request for the rest to go on with, and only an operand can fail.
  induction pieces generalizing request with
  | nil => exact congrArg (extend · rest) request.gather_nil.symm
  | cons piece pieces ih =>
    cases piece with
    | operand text =>
      obtain ⟨htext, hrest⟩ := List.forall_mem_cons.mp h
      show request.extend (text :: (written pieces ++ rest)) =
        match (text :: texts pieces).mapM Literal.read with
        | .error cause => _
        | .ok operands => _
      rw [extend_operand htext, List.mapM_cons]
      cases hread : Literal.read text with
      | error cause => rfl
      | ok v =>
        simp only [ih hrest]
        cases hreads : (texts pieces).mapM Literal.read with
        | error cause => rfl
        | ok operands => exact congrArg (extend · rest) (gather_operand request text v)
    | bytes =>
      show request.extend ("--bytes" :: (written pieces ++ rest)) = _
      rw [extend_bytes, ih h]
      simp only [gather_bytes]
      rfl
    | into type =>
      show request.extend ("--into" :: type.name :: (written pieces ++ rest)) = _
      rw [extend_into, ih h]
      simp only [gather_into]
      rfl

/-- Where the options stand makes no difference, also where an operand is no literal. -/
theorem extend_inOrder (h : ∀ text ∈ texts pieces, IsOperand text) (request : Request) :
    request.extend (written pieces) = request.extend (written (inOrder pieces)) := by
  have hordered : ∀ text ∈ texts (inOrder pieces), IsOperand text := by
    rw [texts_inOrder]
    exact h
  have hgather : ∀ operands, request.gather (inOrder pieces) operands =
      request.gather pieces operands := by
    intro operands
    simp only [gather, target_inOrder, bytes_mem_inOrder]
  rw [← List.append_nil (written pieces), ← List.append_nil (written (inOrder pieces)),
    extend_written h, extend_written hordered, texts_inOrder]
  simp only [hgather]

/-! ## The first wrong argument -/

/-- A literal is no option. -/
theorem isOperand_of_read {text : String} {v : Value} (h : Literal.read text = .ok v) :
    IsOperand text := by
  have hbytes : Literal.read "--bytes" = .error (.noColon "--bytes") := rfl
  have hinto : Literal.read "--into" = .error (.noColon "--into") := rfl
  constructor
  · rintro rfl
    rw [hbytes] at h
    cases h
  · rintro rfl
    rw [hinto] at h
    cases h

theorem mapM_read {texts : List String} (h : Literals texts operands) :
    texts.mapM Literal.read = .ok operands := by
  induction h with
  | nil => rfl
  | cons hread _ ih =>
    rw [List.mapM_cons, hread, ih]
    rfl

/-- No option is a literal, so a literal is never taken for one. -/
theorem isOperand_of_literals {texts : List String} (h : Literals texts operands) :
    ∀ text ∈ texts, IsOperand text := by
  induction h with
  | nil => exact List.forall_mem_nil _
  | cons hread _ ih => exact List.forall_mem_cons.mpr ⟨isOperand_of_read hread, ih⟩

/-- Sound pieces are read one after another, and what they come to is gathered. The induction is on
the pieces; the request that has been read so far is what changes. -/
theorem extend_of_sound (h : Sound pieces operands) (request : Request) (rest : List String) :
    request.extend (written pieces ++ rest) = (request.gather pieces operands).extend rest := by
  rw [extend_written (isOperand_of_literals h), mapM_read h]

/-- The error of arguments that begin with a wrong one. `--into` takes the argument after it
whatever that looks like. -/
inductive Offends : List String → CommandError → Prop where
  | noType : Offends ["--into"] (.usage .missingType)
  | badType {name : String} {rest : List String} (hname : ∀ t, name ≠ IntType.name t) :
    Offends ("--into" :: name :: rest) (.usage (.unknownType name))
  | badOperand {text : String} {rest : List String} {cause : LiteralError}
    (htext : IsOperand text) (hread : Literal.read text = .error cause) :
    Offends (text :: rest) (.evaluation (.invalidLiteral cause))

/-- Reading stops at a wrong argument with its error, whatever was read before it. -/
theorem extend_of_offends {arguments : List String} {e : CommandError} (h : Offends arguments e)
    (request : Request) : request.extend arguments = .error e := by
  cases h with
  | noType => rw [extend]
  | badType hname => rw [extend, IntType.ofName?_eq_none_iff.mpr hname]
  | badOperand htext hread => rw [extend_operand htext, hread]

/-- Whether arguments are sound pieces, up to the first wrong one if there is one. -/
def Scanned (arguments : List String) : Prop :=
  ∃ pieces operands tail, Sound pieces operands ∧ arguments = written pieces ++ tail ∧
    (tail = [] ∨ ∃ e, Offends tail e)

/-- Sound pieces in front of scanned arguments leave them scanned. -/
theorem Scanned.of_append (pieces : List Piece) (hpieces : Sound pieces operands)
    {rest : List String} (hrest : Scanned rest) : Scanned (written pieces ++ rest) := by
  obtain ⟨later, operands', tail, hlater, rfl, htail⟩ := hrest
  refine ⟨pieces ++ later, operands ++ operands', tail, ?_, ?_, htail⟩
  · unfold Sound texts
    rw [List.filterMap_append]
    exact List.rel_append hpieces hlater
  · unfold written
    rw [List.flatMap_append, List.append_assoc]

theorem Scanned.of_offends {arguments : List String} {e : CommandError}
    (h : Offends arguments e) : Scanned arguments :=
  ⟨[], [], arguments, .nil, rfl, .inr ⟨e, h⟩⟩

/-- The induction is that of reading a request, one piece in front of the rest. -/
theorem scanned (request : Request) (arguments : List String) : Scanned arguments := by
  fun_induction extend request arguments with
  | case1 request => exact ⟨[], [], [], .nil, rfl, .inl rfl⟩
  | case2 request rest ih => exact .of_append [.bytes] .nil ih
  | case3 request => exact .of_offends .noType
  | case4 request name rest hname =>
    exact .of_offends (.badType (IntType.ofName?_eq_none_iff.mp hname))
  | case5 request name rest type hname ih =>
    rw [← IntType.name_of_ofName? hname]
    exact .of_append [into type] .nil ih
  | case6 request text rest hbytes hlast hinto cause hread =>
    -- Both options have been looked for by the cases above, so this text is an operand.
    have hne : text ≠ "--into" := by
      intro heq
      cases rest with
      | nil => exact hlast heq rfl
      | cons name rest => exact hinto name rest heq rfl
    exact .of_offends (.badOperand ⟨hbytes, hne⟩ hread)
  | case7 request text rest hbytes hnone hinto v hread ih =>
    exact .of_append [operand text] (.cons hread .nil) ih

end Request

/-! ## The command -/

namespace Command

open CommandM Request Piece

variable {files : Files} {arguments : List String} {pieces : List Piece} {operands : List Value}

/-- Whether arguments are an error before anything has been evaluated or told to the log, and before
anything has been written to any sink. -/
def FailsAtOnce (files : Files) (arguments : List String) (e : CommandError) : Prop :=
  ∀ sink, invoke files arguments sink = pure (.error e, sink)

/-- Arguments that make no command end everything before it begins. -/
theorem failsAtOnce_of_ofArguments {e : CommandError} (h : ofArguments arguments = .error e) :
    FailsAtOnce files arguments e := by
  intro sink
  unfold invoke
  rw [h]
  rfl

theorem invoke_of_ofArguments {request : Request} (h : ofArguments arguments = .ok (.eval request)) :
    invoke files arguments = performEval request := by
  unfold invoke
  rw [h]
  rfl

theorem ofArguments_eval (op : Operator) (arguments : List String) :
    ofArguments ("eval" :: op.name :: arguments) =
      (Request.extend ⟨op, [], none, false⟩ arguments).map eval := by
  show (Request.ofArguments (op.name :: arguments)).map eval = _
  rw [Request.ofArguments, Operator.ofName?_name]

/-- Sound pieces make a request, in whatever order they stand. -/
theorem ofArguments_of_sound (h : Sound pieces operands) (op : Operator) :
    ofArguments ("eval" :: op.name :: written pieces) =
      .ok (.eval ⟨op, operands, Piece.target pieces, decide (Piece.bytes ∈ pieces)⟩) := by
  rw [ofArguments_eval, ← List.append_nil (written pieces), extend_of_sound h]
  simp only [gather, List.nil_append, Option.or_none, Bool.false_or]
  rfl

/-- Behind sound pieces the first wrong argument is the error. -/
theorem ofArguments_of_offends (h : Sound pieces operands) {tail : List String} {e : CommandError}
    (he : Offends tail e) (op : Operator) :
    ofArguments ("eval" :: op.name :: (written pieces ++ tail)) = .error e := by
  rw [ofArguments_eval, extend_of_sound h, extend_of_offends he]
  rfl

/-- Literals are the operands of a request, with a destination behind them if there is one. -/
theorem ofArguments_literals {texts : List String} (h : Literals texts operands) (op : Operator)
    (target : Option IntType) :
    ofArguments ("eval" :: op.name :: (texts ++ written (target.toList.map into))) =
      .ok (.eval ⟨op, operands, target, false⟩) := by
  have hmake := ofArguments_of_sound (sound_literals h target) op
  rw [written_operands, target_operands, decide_eq_false (by simp)] at hmake
  exact hmake

/-- An evaluation without a known operator is refused by the operator, whatever comes behind it. -/
theorem ofArguments_eval_unknown {name : String} (h : ∀ op, name ≠ Operator.name op)
    (arguments : List String) :
    ofArguments ("eval" :: name :: arguments) = .error (.usage (.unknownOperator name)) := by
  show (Request.ofArguments (name :: arguments)).map eval = _
  rw [Request.ofArguments, Operator.ofName?_eq_none_iff.mpr h]
  rfl

/-- **Options may stand anywhere among the operands, and the first wrong argument is the error.**
The first part holds of every name and of operands that are no literals, too. After the name of an
operator any arguments are sound pieces up to the first wrong one, and without a wrong one they are
evaluated. -/
theorem invoke_eval_arguments (files : Files) :
    (∀ (name : String) (pieces : List Piece), (∀ text ∈ texts pieces, IsOperand text) →
      invoke files ("eval" :: name :: written pieces) =
        invoke files ("eval" :: name :: written (inOrder pieces))) ∧
    (∀ (name : String) (arguments : List String), (∀ op, name ≠ Operator.name op) →
      FailsAtOnce files ("eval" :: name :: arguments) (.usage (.unknownOperator name))) ∧
    (∀ (op : Operator) (pieces : List Piece) (operands : List Value), Sound pieces operands →
      invoke files ("eval" :: op.name :: written pieces) =
        performEval ⟨op, operands, Piece.target pieces, decide (Piece.bytes ∈ pieces)⟩ ∧
      ∀ tail e, Offends tail e →
        FailsAtOnce files ("eval" :: op.name :: (written pieces ++ tail)) e) ∧
    ∀ arguments, Scanned arguments := by
  refine ⟨?_, ?_, ?_, scanned ⟨.add, [], none, false⟩⟩
  · intro name pieces h
    have hsame : ofArguments ("eval" :: name :: written pieces) =
        ofArguments ("eval" :: name :: written (inOrder pieces)) := by
      by_cases hname : ∀ op, name ≠ Operator.name op
      · rw [ofArguments_eval_unknown hname, ofArguments_eval_unknown hname]
      · obtain ⟨op, hop⟩ := not_forall.mp hname
        rw [not_not.mp hop, ofArguments_eval, ofArguments_eval, extend_inOrder h]
    unfold invoke
    rw [hsame]
  · intro name arguments hname
    exact failsAtOnce_of_ofArguments (ofArguments_eval_unknown hname arguments)
  · intro op pieces operands hsound
    refine ⟨invoke_of_ofArguments (ofArguments_of_sound hsound op), ?_⟩
    intro tail e he
    exact failsAtOnce_of_ofArguments (ofArguments_of_offends hsound he op)

/-- Options in front of and between two operands, and `--into` with an option for its type, after a
destination that is right. -/
theorem invoke_eval_arguments_mixed :
    invoke (fun _ => .error .notFound)
        ["eval", "add", "--into", "u64", "u32:1", "--bytes", "--into", "i64", "u32:2"] =
      invoke (fun _ => .error .notFound)
        ["eval", "add", "u32:1", "u32:2", "--into", "i64", "--bytes"] ∧
    FailsAtOnce (fun _ => .error .notFound) ["eval", "plus", "--into"]
      (.usage (.unknownOperator "plus")) ∧
    FailsAtOnce (fun _ => .error .notFound)
      ["eval", "add", "--into", "u64", "u32:1", "--into", "--bytes", "x"]
      (.usage (.unknownType "--bytes")) := by
  obtain ⟨hmoved, hunknown, hscan, -⟩ := invoke_eval_arguments fun _ => .error .notFound
  have hliteral : Literal.read "u32:1" = .ok ⟨.u32, 1⟩ := by rfl
  have hsound : Sound [into .u64, operand "u32:1"] [⟨.u32, 1⟩] := .cons hliteral .nil
  have htype : ∀ t, "--bytes" ≠ IntType.name t := by
    intro t
    cases t <;> decide
  have hplus : ∀ op, "plus" ≠ Operator.name op := by
    intro op
    cases op <;> decide
  exact ⟨hmoved "add" [into .u64, operand "u32:1", .bytes, into .i64, operand "u32:2"] (by decide),
    hunknown "plus" ["--into"] hplus, (hscan .add _ _ hsound).2 _ _ (.badType htype)⟩

end Command

end FixedWidth
