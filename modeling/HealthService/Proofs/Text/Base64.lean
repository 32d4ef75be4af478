import HealthService.Text.Base64

/-!
# Base64 is read back

A group of four characters stands for three bytes, and the last group of a text may stand for fewer.
Reading follows the groups in which the text was written.

* `value?_char` — a character of the alphabet stands for its value.
* `triple_sextets` — three bytes are put together again from the four values into which they were split.
* `decode_encode` — **what is written is read back**, for all bytes.
* `decode_eq_some_iff` — **only what is written is read**: every text has at most one form, because the
  bits that mean nothing have to be zero and the last group has to be filled up.
* `visible_of_mem_encode` — what is written are visible ASCII characters.
-/

namespace HealthService.Base64

/-! ## Characters -/

/-- A character of the alphabet stands for its value. -/
theorem value?_char {v : Nat} (h : v < 64) : value? (char v) = some v := by
  have hall : ∀ v < 64, value? (char v) = some v := by decide
  exact hall v h

/-- The sign that fills up is not in the alphabet. -/
theorem char_ne_pad {v : Nat} (h : v < 64) : char v ≠ pad := by
  intro hpad
  have hvalue := value?_char h
  rw [hpad] at hvalue
  cases hvalue

theorem visible_char (v : Nat) : 0x20 < (char v).toNat ∧ (char v).toNat < 0x7F := by
  by_cases h : v < 64
  · have hall : ∀ v < 64, 0x20 < (char v).toNat ∧ (char v).toNat < 0x7F := by decide
    exact hall v h
  · have hlast : char v = 47 := by
      unfold char
      rw [if_neg (by omega), if_neg (by omega), if_neg (by omega), if_neg (by omega)]
      rfl
    rw [hlast]
    decide

/-! ## Groups -/

/-- Three bytes are put together again. -/
theorem triple_sextets (a b c : UInt8) :
    triple (a.toNat / 4) (a.toNat % 4 * 16 + b.toNat / 16) (b.toNat % 16 * 4 + c.toNat / 64)
      (c.toNat % 64) = [a, b, c] := by
  have ha := a.toNat_lt
  have hb := b.toNat_lt
  have hc := c.toNat_lt
  have hfirst : a.toNat / 4 * 4 + (a.toNat % 4 * 16 + b.toNat / 16) / 16 = a.toNat := by omega
  have hsecond : (a.toNat % 4 * 16 + b.toNat / 16) % 16 * 16 +
      (b.toNat % 16 * 4 + c.toNat / 64) / 4 = b.toNat := by omega
  have hthird : (b.toNat % 16 * 4 + c.toNat / 64) % 4 * 64 + c.toNat % 64 = c.toNat := by omega
  simp only [triple, hfirst, hsecond, hthird, UInt8.ofNat_toNat]

/-- One byte that is left over is read back. -/
theorem decodeLast_one (a : UInt8) :
    decodeLast (char (a.toNat / 4)) (char (a.toNat % 4 * 16)) pad pad = some [a] := by
  have ha := a.toNat_lt
  have htriple := triple_sextets a 0 0
  have hzero : (0 : UInt8).toNat = 0 := rfl
  simp only [hzero, Nat.zero_div, Nat.zero_mod, Nat.zero_mul, Nat.add_zero] at htriple
  unfold decodeLast
  rw [value?_char (by omega), value?_char (by omega)]
  simp only [Option.bind_eq_bind, Option.bind_some, and_self, if_true]
  rw [if_pos (by omega), htriple]
  rfl

/-- Two bytes that are left over are read back. -/
theorem decodeLast_two (a b : UInt8) :
    decodeLast (char (a.toNat / 4)) (char (a.toNat % 4 * 16 + b.toNat / 16))
      (char (b.toNat % 16 * 4)) pad = some [a, b] := by
  have ha := a.toNat_lt
  have hb := b.toNat_lt
  have htriple := triple_sextets a b 0
  have hzero : (0 : UInt8).toNat = 0 := rfl
  simp only [hzero, Nat.zero_div, Nat.zero_mod, Nat.add_zero] at htriple
  have hpad : char (b.toNat % 16 * 4) ≠ pad := char_ne_pad (by omega)
  unfold decodeLast
  rw [value?_char (by omega), value?_char (by omega), value?_char (by omega)]
  simp only [Option.bind_eq_bind, Option.bind_some, hpad, false_and, if_false, if_true]
  rw [if_pos (by omega), htriple]
  rfl

/-- A full group at the end is read back. -/
theorem decodeLast_three (a b c : UInt8) :
    decodeLast (char (a.toNat / 4)) (char (a.toNat % 4 * 16 + b.toNat / 16))
      (char (b.toNat % 16 * 4 + c.toNat / 64)) (char (c.toNat % 64)) = some [a, b, c] := by
  have ha := a.toNat_lt
  have hb := b.toNat_lt
  have hc := c.toNat_lt
  have hthird : char (b.toNat % 16 * 4 + c.toNat / 64) ≠ pad := char_ne_pad (by omega)
  have hfourth : char (c.toNat % 64) ≠ pad := char_ne_pad (by omega)
  unfold decodeLast
  rw [value?_char (by omega), value?_char (by omega), value?_char (by omega),
    value?_char (by omega)]
  simp only [Option.bind_eq_bind, Option.bind_some, hthird, hfourth, false_and, if_false]
  rw [triple_sextets]

/-! ## Texts -/

theorem encode_ne_nil {bs : Bytes} (h : bs ≠ []) : encode bs ≠ [] := by
  cases bs using encode.fun_cases <;> simp_all [encode]

/-- **What is written is read back.**  The induction is on the groups. -/
theorem decode_encode (bs : Bytes) : decode (encode bs) = some bs := by
  induction bs using encode.induct with
  | case1 => rfl
  | case2 a => exact decodeLast_one a
  | case3 a b => exact decodeLast_two a b
  | case4 a b c rest ih =>
    have ha := a.toNat_lt
    have hb := b.toNat_lt
    have hc := c.toNat_lt
    by_cases hrest : rest = []
    · subst hrest
      exact decodeLast_three a b c
    · -- More characters follow, so the group is not the last one.
      have hmore : encode rest ≠ [] := encode_ne_nil hrest
      rw [encode, decode]
      · rw [value?_char (by omega), value?_char (by omega), value?_char (by omega),
          value?_char (by omega), ih]
        simp only [Option.bind_eq_bind, Option.bind_some, triple_sextets]
        rfl
      · exact hmore

/-! ## What is read was written -/

/-- A value belongs to one character. -/
theorem char_of_value? {b : UInt8} {v : Nat} (h : value? b = some v) : v < 64 ∧ char v = b := by
  have hall : ∀ n < 256, (value? (UInt8.ofNat n)).all
      (fun v => decide (v < 64 ∧ char v = UInt8.ofNat n)) = true := by
    decide +kernel
  have hb := hall b.toNat b.toNat_lt
  rw [UInt8.ofNat_toNat, h, Option.all_some, decide_eq_true_iff] at hb
  exact hb

section Values

variable {w x y z : Nat}

/-- Four values are split again into themselves. -/
theorem encode_triple (hw : w < 64) (hx : x < 64) (hy : y < 64) (hz : z < 64) (rest : Bytes) :
    encode (triple w x y z ++ rest) = char w :: char x :: char y :: char z :: encode rest := by
  have hfirst := Utf8.toNat_ofNat_of_lt (n := w * 4 + x / 16) (by omega)
  have hsecond := Utf8.toNat_ofNat_of_lt (n := x % 16 * 16 + y / 4) (by omega)
  have hthird := Utf8.toNat_ofNat_of_lt (n := y % 4 * 64 + z) (by omega)
  have ew : (w * 4 + x / 16) / 4 = w := by omega
  have ex : (w * 4 + x / 16) % 4 * 16 + (x % 16 * 16 + y / 4) / 16 = x := by omega
  have ey : (x % 16 * 16 + y / 4) % 16 * 4 + (y % 4 * 64 + z) / 64 = y := by omega
  have ez : (y % 4 * 64 + z) % 64 = z := by omega
  simp only [triple, List.cons_append, List.nil_append, encode, hfirst, hsecond, hthird, ew, ex, ey, ez]

/-- Two values of which the second has only bits that mean something are split again. -/
theorem encode_take_one (hw : w < 64) (hx : x < 64) (hbits : x % 16 = 0) :
    encode ((triple w x 0 0).take 1) = [char w, char x, pad, pad] := by
  have hfirst := Utf8.toNat_ofNat_of_lt (n := w * 4 + x / 16) (by omega)
  have ew : (w * 4 + x / 16) / 4 = w := by omega
  have ex : (w * 4 + x / 16) % 4 * 16 = x := by omega
  simp only [triple, List.take_succ_cons, List.take_zero, encode, hfirst, ew, ex]

/-- The same of three values. -/
theorem encode_take_two (hw : w < 64) (hx : x < 64) (hy : y < 64) (hbits : y % 4 = 0) :
    encode ((triple w x y 0).take 2) = [char w, char x, char y, pad] := by
  have hfirst := Utf8.toNat_ofNat_of_lt (n := w * 4 + x / 16) (by omega)
  have hsecond := Utf8.toNat_ofNat_of_lt (n := x % 16 * 16 + y / 4) (by omega)
  have ew : (w * 4 + x / 16) / 4 = w := by omega
  have ex : (w * 4 + x / 16) % 4 * 16 + (x % 16 * 16 + y / 4) / 16 = x := by omega
  have ey : (x % 16 * 16 + y / 4) % 16 * 4 = y := by omega
  simp only [triple, List.take_succ_cons, List.take_zero, encode, hfirst, hsecond, ew, ex, ey]

end Values

/-- The last group that is read was written so. -/
theorem encode_of_decodeLast {a b c d : UInt8} {bs : Bytes} (h : decodeLast a b c d = some bs) :
    encode bs = [a, b, c, d] := by
  unfold decodeLast at h
  simp only [Option.bind_eq_bind, Option.bind_eq_some_iff] at h
  obtain ⟨w, hw, x, hx, h⟩ := h
  obtain ⟨hwlt, rfl⟩ := char_of_value? hw
  obtain ⟨hxlt, rfl⟩ := char_of_value? hx
  split at h
  · rename_i hpads
    obtain ⟨rfl, rfl⟩ := hpads
    split at h
    · rename_i hbits
      obtain rfl := Option.some.inj h
      exact encode_take_one hwlt hxlt hbits
    · cases h
  · obtain ⟨y, hy, hthird⟩ := Option.bind_eq_some_iff.1 h
    obtain ⟨hylt, rfl⟩ := char_of_value? hy
    split at hthird
    · rename_i hpad
      obtain rfl := hpad
      split at hthird
      · rename_i hbits
        obtain rfl := Option.some.inj hthird
        exact encode_take_two hwlt hxlt hylt hbits
      · cases hthird
    · obtain ⟨z, hz, hfourth⟩ := Option.bind_eq_some_iff.1 hthird
      obtain ⟨hzlt, rfl⟩ := char_of_value? hz
      obtain rfl := Option.some.inj hfourth
      have hgroup := encode_triple hwlt hxlt hylt hzlt []
      rwa [List.append_nil] at hgroup

/-- What is read was written.  The induction is on the groups. -/
theorem encode_of_decode {text bs : Bytes} (h : decode text = some bs) : encode bs = text := by
  induction text using decode.induct generalizing bs with
  | case1 =>
    obtain rfl := Option.some.inj h
    rfl
  | case2 a b c d => exact encode_of_decodeLast h
  | case3 a b c d rest hrest ih =>
    rw [decode] at h
    · simp only [Option.bind_eq_bind, Option.bind_eq_some_iff] at h
      obtain ⟨w, hw, x, hx, y, hy, z, hz, more, hmore, h⟩ := h
      obtain rfl := Option.some.inj h
      obtain ⟨hwlt, rfl⟩ := char_of_value? hw
      obtain ⟨hxlt, rfl⟩ := char_of_value? hx
      obtain ⟨hylt, rfl⟩ := char_of_value? hy
      obtain ⟨hzlt, rfl⟩ := char_of_value? hz
      rw [encode_triple hwlt hxlt hylt hzlt, ih hmore]
    · exact hrest
  | case4 text hnil hlast hgroup =>
    rw [decode] at h
    · cases h
    all_goals assumption

/-- **A text stands for some bytes just if it is how they are written.** -/
theorem decode_eq_some_iff {text bs : Bytes} : decode text = some bs ↔ text = encode bs := by
  constructor
  · exact fun h => (encode_of_decode h).symm
  · rintro rfl
    exact decode_encode bs

/-! ## The characters of a text -/

/-- What is written can be seen. -/
theorem visible_of_mem_encode {bs : Bytes} {x : UInt8} (h : x ∈ encode bs) :
    0x20 < x.toNat ∧ x.toNat < 0x7F := by
  have hpad : 0x20 < pad.toNat ∧ pad.toNat < 0x7F := by decide
  induction bs using encode.induct with
  | case1 => cases h
  | case2 a =>
    simp only [encode, List.mem_cons, List.not_mem_nil, or_false] at h
    rcases h with rfl | rfl | rfl | rfl
    · exact visible_char _
    · exact visible_char _
    · exact hpad
    · exact hpad
  | case3 a b =>
    simp only [encode, List.mem_cons, List.not_mem_nil, or_false] at h
    rcases h with rfl | rfl | rfl | rfl
    · exact visible_char _
    · exact visible_char _
    · exact visible_char _
    · exact hpad
  | case4 a b c rest ih =>
    simp only [encode, List.mem_cons] at h
    rcases h with rfl | rfl | rfl | rfl | h
    · exact visible_char _
    · exact visible_char _
    · exact visible_char _
    · exact visible_char _
    · exact ih h

end HealthService.Base64
