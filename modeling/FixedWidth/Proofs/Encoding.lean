import FixedWidth.Proofs.Canonical
import FixedWidth.Proofs.Delivery

/-!
# Encodings of a pattern

A value is written in three ways for a machine: as the pattern itself, as bytes with the least
significant one first, and in hexadecimal digits with the most significant one first. The three are
one number in three notations, each with as many places as the width asks for, so nothing is lost
and no sign is added.

- `ofDigits_littleEndian`: the bytes, read from the least significant one on, denote the number;
- `hex_two_mul`: two digits at a time, the digits are the bytes from last to first.

> `encodings_agree`
-/

namespace FixedWidth

/-! ## Digits and bytes -/

namespace Numeral

/-- Whether a text writes a number in exactly `count` hexadecimal digits, letters in lower case. -/
structure IsHex (count n : Nat) (text : List Char) : Prop where
  length_eq : text.length = count
  lower : ∀ c ∈ text, c ∈ lowerDigits
  denotes : Denotes 16 text n

theorem digitChar_mem_lowerDigits {d : Nat} (h : d < 16) : digitChar d ∈ lowerDigits := by
  have hall : ∀ d < 16, digitChar d ∈ lowerDigits := by decide
  exact hall d h

theorem mem_lowerDigits_of_mem_hex {count n : Nat} {c : Char} (hc : c ∈ hex count n) :
    c ∈ lowerDigits := by
  induction count generalizing n with
  | zero => cases hc
  | succ count ih =>
    rw [hex, List.mem_append, List.mem_singleton] at hc
    rcases hc with hc | rfl
    · exact ih hc
    · exact digitChar_mem_lowerDigits (Nat.mod_lt n (by decide))

/-- The hexadecimal form of a number that has enough places writes it. -/
theorem isHex_hex {count n : Nat} (hcount : 0 < count) (h : n < 16 ^ count) :
    IsHex count n (hex count n) :=
  ⟨length_hex count n, fun _ hc => mem_lowerDigits_of_mem_hex hc, denotes_hex hcount h⟩

/-- Whether a text writes bytes one after the other, each in two hexadecimal digits. -/
def WritesBytes (bytes : List UInt8) (text : List Char) : Prop :=
  ∃ pairs, text = pairs.flatten ∧
    List.Forall₂ (fun (byte : UInt8) pair => IsHex 2 byte.toNat pair) bytes pairs

/-- Two digits for each byte write the bytes. -/
theorem writesBytes_flatMap (bytes : List UInt8) :
    WritesBytes bytes (bytes.flatMap fun byte => hex 2 byte.toNat) := by
  refine ⟨bytes.map fun byte => hex 2 byte.toNat, rfl, ?_⟩
  refine List.forall₂_map_right_iff.mpr (List.forall₂_same.mpr ?_)
  intro byte _
  exact isHex_hex (by decide) byte.toNat_lt

end Numeral

namespace Value

theorem length_littleEndian (count n : Nat) : (littleEndian count n).length = count := by
  induction count generalizing n with
  | zero => rfl
  | succ count ih => rw [littleEndian, List.length_cons, ih]

/-- As many bytes as a number needs, zeros at the end included, denote all of it. -/
theorem ofDigits_littleEndian {count n : Nat} (h : n < 256 ^ count) :
    Nat.ofDigits 256 ((littleEndian count n).map UInt8.toNat) = n := by
  induction count generalizing n with
  | zero =>
    have hn : n = 0 := by omega
    exact hn.symm
  | succ count ih =>
    have hrest : n / 256 < 256 ^ count := Nat.div_lt_of_lt_mul (by rwa [← Nat.pow_succ'])
    rw [littleEndian, List.map_cons, Nat.ofDigits_cons, ih hrest, UInt8.toNat_ofNat']
    exact Nat.mod_add_div n 256

end Value

namespace Numeral

theorem hex_two (n : Nat) : hex 2 n = [digitChar (n / 16 % 16), digitChar (n % 16)] := rfl

/-- The last two digits of a number are those of its last byte. -/
theorem hex_two_ofNat (n : Nat) : hex 2 (UInt8.ofNat n).toNat = hex 2 n := by
  have hhigh : n % 256 / 16 % 16 = n / 16 % 16 := by omega
  have hlow : n % 256 % 16 = n % 16 := by omega
  rw [UInt8.toNat_ofNat', hex_two, hex_two]
  show [digitChar (n % 256 / 16 % 16), digitChar (n % 256 % 16)] = _
  rw [hhigh, hlow]

/-- The last two digits are those of the last byte. -/
theorem hex_add_two (count n : Nat) : hex (count + 2) n = hex count (n / 256) ++ hex 2 n := by
  show hex count (n / 16 / 16) ++ [_] ++ [_] = _
  rw [Nat.div_div_eq_div_mul, List.append_assoc]
  rfl

/-- The digits are the bytes, from the last one to the first. -/
theorem hex_two_mul (count n : Nat) :
    hex (2 * count) n =
      (Value.littleEndian count n).reverse.flatMap fun byte => hex 2 byte.toNat := by
  induction count generalizing n with
  | zero => rfl
  | succ count ih =>
    rw [Nat.mul_succ, hex_add_two, ih, Value.littleEndian, List.reverse_cons, List.flatMap_append,
      List.flatMap_singleton, hex_two_ofNat]

end Numeral

namespace Value

/-! ## The encodings of a value -/

variable {u v : Value}

/-- The bytes of a type have room for every pattern of it. -/
theorem pattern_lt_immediate (v : Value) : v.pattern < 256 ^ v.type.byteCount := by
  have hpow : 2 ^ v.type.width = 256 ^ v.type.byteCount := by cases v.type <;> rfl
  exact hpow ▸ v.bits.isLt

/-- The bytes of an immediate are the digits of its pattern to the base 256, last one first. -/
theorem ofDigits_immediate (v : Value) :
    Nat.ofDigits 256 (v.immediate.map UInt8.toNat) = v.pattern :=
  ofDigits_littleEndian v.pattern_lt_immediate

/-- The digits of the pattern write the bytes of the immediate from the last to the first. -/
theorem writesBytes_immediate (v : Value) :
    Numeral.WritesBytes v.immediate.reverse (Numeral.hex (v.type.width / 4) v.pattern) := by
  have hcount : v.type.width / 4 = 2 * v.type.byteCount := by cases v.type <;> rfl
  rw [hcount, Numeral.hex_two_mul]
  exact Numeral.writesBytes_flatMap _

/-- The low bits of a word are what is left of it modulo two to their number. -/
theorem pattern_ofBits (t : IntType) (n : BitVec 64) :
    (ofBits t n).pattern = n.toNat % 2 ^ t.width :=
  BitVec.toNat_setWidth t.width n

theorem ofBits_pattern (v : Value) : ofBits v.type (BitVec.ofNat 64 v.pattern) = v := by
  refine congrArg (Value.mk v.type) ?_
  rw [pattern, BitVec.ofNat_toNat, BitVec.setWidth_setWidth_of_le _ v.type.width_le_64,
    BitVec.setWidth_eq]

theorem ext_pattern (ht : u.type = v.type) (h : u.pattern = v.pattern) : u = v := by
  rw [← ofInt_pattern u, ht, h, ofInt_pattern]

/-- Values of one type are told apart by their bytes. -/
theorem ext_immediate (ht : u.type = v.type) (h : u.immediate = v.immediate) : u = v := by
  refine ext_pattern ht ?_
  rw [← ofDigits_immediate, h, ofDigits_immediate]

/-- Behind the name of a type, hexadecimal digits are read as the value that they write. -/
theorem ext_hex (ht : u.type = v.type) (h : u.hex = v.hex) : u = v := by
  have hread := Literal.read_of_respells (Literal.respells_hex u)
  rw [ht, h, Literal.read_of_respells (Literal.respells_hex v)] at hread
  exact (Except.ok.inj hread).symm

end Value

/-! ## Emitting -/

/-- What a sink has room for it takes as it is. -/
theorem Sink.fitting_of_hasRoom {sink : Sink} {bytes : List UInt8} (h : sink.HasRoom bytes) :
    sink.fitting bytes = bytes := by
  cases hlimit : sink.limit with
  | none => exact fitting_of_unlimited hlimit bytes
  | some limit =>
    unfold HasRoom at h
    rw [fitting_of_limited hlimit] at h ⊢
    rw [List.length_take] at h
    exact List.take_of_length_le (by omega)

namespace Value

/-- A sink that takes the immediate takes all of it and nothing else, and an unlimited one does. -/
theorem writeImmediate_ok (v : Value) (sink : Sink) :
    (sink.limit = none → (v.writeImmediate sink).1 = .ok ()) ∧
    ((v.writeImmediate sink).1 = .ok () →
      (v.writeImmediate sink).2 = { sink with taken := sink.taken ++ v.immediate }) := by
  unfold writeImmediate
  rw [Sink.write_eq]
  refine ⟨?_, ?_⟩
  · intro hlimit
    exact if_pos (congrArg List.length (Sink.fitting_of_unlimited hlimit v.immediate))
  · intro hok
    -- Success is having room, and then nothing is cut off.
    by_cases hroom : sink.HasRoom v.immediate
    · show sink.after v.immediate = _
      rw [Sink.after, Sink.fitting_of_hasRoom hroom]
    · rw [if_neg hroom] at hok
      cases hok

/-- **The three encodings of a value are one number of its width.** -/
theorem encodings_agree :
    (∀ v : Value, v.pattern < 2 ^ v.type.width ∧ ofBits v.type (BitVec.ofNat 64 v.pattern) = v) ∧
    (∀ (t : IntType) (n : BitVec 64), (ofBits t n).pattern = n.toNat % 2 ^ t.width) ∧
    (∀ (v : Value) (sink : Sink),
      (sink.limit = none → (v.writeImmediate sink).1 = .ok ()) ∧
      ((v.writeImmediate sink).1 = .ok () →
        (v.writeImmediate sink).2 = { sink with taken := sink.taken ++ v.immediate })) ∧
    (∀ v : Value, v.immediate.length = v.type.width / 8 ∧
      Nat.ofDigits 256 (v.immediate.map UInt8.toNat) = v.pattern) ∧
    (∀ v : Value, ∃ digits, v.hex.toList = '0' :: 'x' :: digits ∧
      Numeral.IsHex (v.type.width / 4) v.pattern digits ∧
      Numeral.WritesBytes v.immediate.reverse digits) ∧
    ∀ u v : Value, u.type = v.type →
      u.immediate = v.immediate ∨ u.hex = v.hex ∨ u.pattern = v.pattern → u = v := by
  refine ⟨?_, pattern_ofBits, writeImmediate_ok, ?_, ?_, ?_⟩
  · intro v
    exact ⟨v.bits.isLt, v.ofBits_pattern⟩
  · intro v
    exact ⟨length_littleEndian v.type.byteCount v.pattern, v.ofDigits_immediate⟩
  · intro v
    obtain ⟨hcount, hlt⟩ := v.pattern_lt_hex
    exact ⟨_, v.toList_hex, Numeral.isHex_hex hcount hlt, v.writesBytes_immediate⟩
  · intro u v ht h
    rcases h with himmediate | hhex | hpattern
    · exact ext_immediate ht himmediate
    · exact ext_hex ht hhex
    · exact ext_pattern ht hpattern

/-- A negative `i32` on a sink with just enough room behind what is there, and one that is made in
another way and has the same digits. -/
theorem encodings_agree_negative :
    ((Value.writeImmediate ⟨.i32, 0xfffffffe⟩ { limit := some 5, taken := [0] }).1 = .ok () ∧
      (Value.writeImmediate ⟨.i32, 0xfffffffe⟩ { limit := some 5, taken := [0] }).2 =
        { limit := some 5, taken := [0, 0xfe, 0xff, 0xff, 0xff] }) ∧
    ((ofInt .i32 (-2)).type = .i32 ∧ (ofInt .i32 (-2)).hex = (⟨.i32, 0xfffffffe⟩ : Value).hex ∧
      ofInt .i32 (-2) = ⟨.i32, 0xfffffffe⟩) := by
  obtain ⟨-, -, hemit, -, -, hequal⟩ := encodings_agree
  exact ⟨⟨rfl, (hemit ⟨.i32, 0xfffffffe⟩ { limit := some 5, taken := [0] }).2 rfl⟩, rfl, rfl,
    hequal (ofInt .i32 (-2)) ⟨.i32, 0xfffffffe⟩ rfl (.inr (.inl rfl))⟩

end Value

end FixedWidth
