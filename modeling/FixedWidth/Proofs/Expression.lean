import FixedWidth.Proofs.Arithmetic

/-!
# Expressions

Trees of operators over values, evaluated from the leaves up, beside the integer that the same tree
has when nothing wraps. Evaluation brings operands to a common type, truncates and re-tags at every
node; the whole of it is one reduction at the root, provided that the nodes agree on a width:

> `evaluate_reduces_exact`: where every inner node has a result of width `w`, the value of the tree
> is the one integer in the range of its type that is congruent to the exact integer modulo `2 ^ w`.

The leaves may be narrower, since promotion extends a narrow operand by its own sign and so keeps
its integer. The induction carries congruence alone (`evaluate_modEq`): a leaf has no width to
share with the nodes above it.
-/

namespace FixedWidth

/-- A tree of operators that agree with integers modulo a power of two. The distance of a shift is
the pattern of an `i32`. -/
inductive Expression where
  | leaf (v : Value)
  | add (left right : Expression)
  | sub (left right : Expression)
  | neg (operand : Expression)
  | not (operand : Expression)
  | shl (operand : Expression) (distance : BitVec 32)

namespace Expression

/-- The value of an operator on the values of its operands. -/
def apply (op : Operator) (operands : List Value) : Except EvalError Value :=
  (FixedWidth.evaluate op operands).map Evaluated.value

/-- The value of the tree, or the first error below its root. -/
def evaluate : Expression → Except EvalError Value
  | leaf v => .ok v
  | add left right => do apply .add [← left.evaluate, ← right.evaluate]
  | sub left right => do apply .sub [← left.evaluate, ← right.evaluate]
  | neg operand => do apply .neg [← operand.evaluate]
  | not operand => do apply .not [← operand.evaluate]
  | shl operand distance => do apply .shl [← operand.evaluate, ⟨.i32, distance⟩]

/-- The integer of the tree where nothing wraps. A shift multiplies by a power of two, whose
exponent is the distance modulo the width, from zero up also where the distance is negative. -/
def exact (w : Nat) : Expression → Int
  | leaf v => v.toInt
  | add left right => left.exact w + right.exact w
  | sub left right => left.exact w - right.exact w
  | neg operand => -operand.exact w
  | not operand => -1 - operand.exact w
  | shl operand distance => operand.exact w * 2 ^ (distance.toInt % w).toNat

/-- The subtrees that are not leaves. -/
def inner : Expression → List Expression
  | leaf _ => []
  | add left right => add left right :: (left.inner ++ right.inner)
  | sub left right => sub left right :: (left.inner ++ right.inner)
  | neg operand => neg operand :: operand.inner
  | not operand => not operand :: operand.inner
  | shl operand distance => shl operand distance :: operand.inner

/-- Whether every inner node of the tree has a value of width `w`. -/
def HasWidth (w : Nat) (e : Expression) : Prop :=
  ∀ node ∈ e.inner, ∃ v, node.evaluate = .ok v ∧ v.type.width = w

/-! ## One node -/

/-- Whatever type the promotion chooses, the result is congruent at its width. -/
theorem modEq_of_map_ofInt {promoted : Except EvalError IntType} {n : Int} {v : Value}
    (h : (promoted.map fun t => Value.ofInt t n) = .ok v) :
    v.toInt ≡ n [ZMOD 2 ^ v.type.width] := by
  cases promoted with
  | error e => exact absurd h (by simp [Except.map])
  | ok t =>
    obtain rfl : Value.ofInt t n = v := Except.ok.inj h
    exact Value.toInt_ofInt_modEq t n

theorem apply_binary {op : Operator} {left right v : Value}
    (h : apply op [left, right] = .ok v) : evaluateBinary op left right = .ok v := by
  unfold apply FixedWidth.evaluate at h
  cases hb : evaluateBinary op left right with
  | error e => simp [hb, Except.map] at h
  | ok result => simpa [hb, Except.map] using h

theorem apply_unary {op : Operator} {operand v : Value}
    (h : apply op [operand] = .ok v) : evaluateUnary op operand = .ok v := by
  unfold apply FixedWidth.evaluate at h
  cases hu : evaluateUnary op operand with
  | error e => simp [hu, Except.map] at h
  | ok result => simpa [hu, Except.map] using h

/-- A sum agrees with the sum of the integers modulo its width. -/
theorem apply_add {left right v : Value} (h : apply .add [left, right] = .ok v) :
    v.toInt ≡ left.toInt + right.toInt [ZMOD 2 ^ v.type.width] := by
  have hadd : left.add right = .ok v := apply_binary h
  rw [Value.add_eq] at hadd
  exact modEq_of_map_ofInt hadd

/-- A difference agrees with the difference of the integers. -/
theorem apply_sub {left right v : Value} (h : apply .sub [left, right] = .ok v) :
    v.toInt ≡ left.toInt - right.toInt [ZMOD 2 ^ v.type.width] := by
  have hsub : left.sub right = .ok v := apply_binary h
  rw [Value.sub_eq] at hsub
  exact modEq_of_map_ofInt hsub

/-- A negation agrees with the negative of the integer. -/
theorem apply_neg {operand v : Value} (h : apply .neg [operand] = .ok v) :
    v.toInt ≡ -operand.toInt [ZMOD 2 ^ v.type.width] := by
  have hneg : operand.neg = .ok v := apply_unary h
  rw [Value.neg_eq] at hneg
  exact modEq_of_map_ofInt hneg

/-- A complement agrees with `-1` minus the integer. -/
theorem apply_not {operand v : Value} (h : apply .not [operand] = .ok v) :
    v.toInt ≡ -1 - operand.toInt [ZMOD 2 ^ v.type.width] := by
  have hnot : operand.not = .ok v := apply_unary h
  rw [Value.not_eq] at hnot
  obtain rfl : Value.ofInt operand.type (-1 - operand.toInt) = v := Except.ok.inj hnot
  exact Value.toInt_ofInt_modEq operand.type (-1 - operand.toInt)

/-- The distance is reduced at the width of the shifted value, which is that of the result. -/
theorem apply_shl {operand v : Value} {distance : BitVec 32}
    (h : apply .shl [operand, ⟨.i32, distance⟩] = .ok v) :
    v.toInt ≡ operand.toInt * 2 ^ (distance.toInt % v.type.width).toNat
      [ZMOD 2 ^ v.type.width] := by
  have hshl : operand.shl ⟨.i32, distance⟩ = .ok v := apply_binary h
  rw [Value.shl_eq] at hshl
  cases hresult : Promotion.binaryResult .shl operand.type .i32 with
  | error e => exact absurd hshl (by simp [hresult, Except.map])
  | ok t =>
    rw [hresult, Value.shiftCount_eq_emod rfl] at hshl
    obtain rfl := Except.ok.inj hshl
    exact Value.toInt_ofInt_modEq operand.type _

/-! ## Whole trees -/

/-- What holds of all inner nodes holds of those of a subtree. -/
theorem HasWidth.of_inner_subset {w : Nat} {e sub : Expression} (h : e.HasWidth w)
    (hsub : sub.inner ⊆ e.inner) : sub.HasWidth w := by
  intro node hn
  exact h node (hsub hn)

/-- The value of a tree is congruent to its exact integer; the width is that of the inner nodes, if
there are any. -/
theorem evaluate_modEq {w : Nat} {e : Expression} (h : e.HasWidth w) :
    ∃ v, e.evaluate = .ok v ∧ (e.inner ≠ [] → v.type.width = w) ∧
      v.toInt ≡ e.exact w [ZMOD 2 ^ w] := by
  -- A leaf carries no width, so the induction is on congruence; each node brings its own width.
  induction e with
  | leaf v =>
    refine ⟨v, rfl, ?_, Int.ModEq.rfl⟩
    intro hne
    exact absurd rfl hne
  | add left right ihl ihr =>
    obtain ⟨v, hv, hw⟩ := h _ (List.mem_cons_self ..)
    obtain ⟨a, ha, -, hamod⟩ := ihl (h.of_inner_subset (by simp [inner]))
    obtain ⟨b, hb, -, hbmod⟩ := ihr (h.of_inner_subset (by simp [inner]))
    have happly : apply .add [a, b] = .ok v := by
      rw [evaluate, ha, hb] at hv
      exact hv
    have hnode := apply_add happly
    rw [hw] at hnode
    exact ⟨v, hv, fun _ => hw, hnode.trans (hamod.add hbmod)⟩
  | sub left right ihl ihr =>
    obtain ⟨v, hv, hw⟩ := h _ (List.mem_cons_self ..)
    obtain ⟨a, ha, -, hamod⟩ := ihl (h.of_inner_subset (by simp [inner]))
    obtain ⟨b, hb, -, hbmod⟩ := ihr (h.of_inner_subset (by simp [inner]))
    have happly : apply .sub [a, b] = .ok v := by
      rw [evaluate, ha, hb] at hv
      exact hv
    have hnode := apply_sub happly
    rw [hw] at hnode
    exact ⟨v, hv, fun _ => hw, hnode.trans (hamod.sub hbmod)⟩
  | neg operand ih =>
    obtain ⟨v, hv, hw⟩ := h _ (List.mem_cons_self ..)
    obtain ⟨a, ha, -, hamod⟩ := ih (h.of_inner_subset (by simp [inner]))
    have happly : apply .neg [a] = .ok v := by
      rw [evaluate, ha] at hv
      exact hv
    have hnode := apply_neg happly
    rw [hw] at hnode
    exact ⟨v, hv, fun _ => hw, hnode.trans hamod.neg⟩
  | not operand ih =>
    obtain ⟨v, hv, hw⟩ := h _ (List.mem_cons_self ..)
    obtain ⟨a, ha, -, hamod⟩ := ih (h.of_inner_subset (by simp [inner]))
    have happly : apply .not [a] = .ok v := by
      rw [evaluate, ha] at hv
      exact hv
    have hnode := apply_not happly
    rw [hw] at hnode
    exact ⟨v, hv, fun _ => hw, hnode.trans (Int.ModEq.rfl.sub hamod)⟩
  | shl operand distance ih =>
    obtain ⟨v, hv, hw⟩ := h _ (List.mem_cons_self ..)
    obtain ⟨a, ha, -, hamod⟩ := ih (h.of_inner_subset (by simp [inner]))
    have happly : apply .shl [a, ⟨.i32, distance⟩] = .ok v := by
      rw [evaluate, ha] at hv
      exact hv
    have hnode := apply_shl happly
    rw [hw] at hnode
    exact ⟨v, hv, fun _ => hw, hnode.trans (hamod.mul_right _)⟩

/-- **The value of a tree is its exact integer, reduced once at the root.** -/
theorem evaluate_reduces_exact {w : Nat} {e : Expression} (hinner : e.inner ≠ []) (h : e.HasWidth w) :
    ∃ v, e.evaluate = .ok v ∧ v.type.width = w ∧
      v.type.InRange v.toInt ∧ v.toInt ≡ e.exact w [ZMOD 2 ^ w] ∧
      ∀ n, v.type.InRange n → n ≡ e.exact w [ZMOD 2 ^ w] → n = v.toInt := by
  obtain ⟨v, hv, hwidth, hmod⟩ := evaluate_modEq h
  have hw : v.type.width = w := hwidth hinner
  refine ⟨v, hv, hw, v.toInt_inRange, hmod, ?_⟩
  intro n hn hnmod
  refine hn.eq_of_modEq v.toInt_inRange ?_
  rw [hw]
  exact hnmod.trans hmod.symm

/-- The difference of a negative `i32` and a `u64`, shifted by a negative distance. -/
def mixed : Expression := shl (sub (leaf ⟨.i32, 0xffffffff⟩) (leaf ⟨.u64, 4⟩)) 0xffffffff

theorem evaluate_reduces_exact_mixed :
    (mixed.inner ≠ [] ∧ mixed.HasWidth 64) ∧
      ∃ v, mixed.evaluate = .ok v ∧ v.type.width = 64 ∧
        v.type.InRange v.toInt ∧ v.toInt ≡ -5 * 2 ^ 63 [ZMOD 2 ^ 64] ∧
        ∀ n, v.type.InRange n → n ≡ -5 * 2 ^ 63 [ZMOD 2 ^ 64] → n = v.toInt := by
  have hinner : mixed.inner ≠ [] := List.cons_ne_nil _ _
  have hwidth : mixed.HasWidth 64 := by
    intro node hn
    rcases List.mem_cons.mp hn with rfl | hn
    · exact ⟨⟨.u64, 0x8000000000000000⟩, by rfl, rfl⟩
    · obtain rfl := List.mem_singleton.mp hn
      exact ⟨⟨.u64, 0xfffffffffffffffb⟩, by rfl, rfl⟩
  have hexact : mixed.exact 64 = -5 * 2 ^ 63 := by decide
  rw [← hexact]
  exact ⟨⟨hinner, hwidth⟩, evaluate_reduces_exact hinner hwidth⟩

end Expression

end FixedWidth
