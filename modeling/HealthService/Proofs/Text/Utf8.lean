import HealthService.Text.Utf8

/-!
# UTF-8, byte by byte

The bytes of a character beyond ASCII are beyond ASCII.  So a statement about ASCII characters is one about
bytes (`all_encode_iff`).

Every character has one form.  The bounds on the second byte of a character see to that: they keep out
the overlong forms, the surrogates and what lies beyond the last character.

* `encodeChar_of_head` — **a character that is read stands there in its own form.**
* `decode?_eq_some_iff` — **bytes stand for a text just if they are its bytes.**
-/

namespace HealthService.Utf8

/-! ## Writing -/

theorem encode_append (s t : List Char) : encode (s ++ t) = encode s ++ encode t :=
  List.flatMap_append

theorem ofString_ofList (cs : List Char) : ofString (String.ofList cs) = encode cs := by
  rw [ofString, String.toList_ofList]

theorem encode_cons (c : Char) (s : List Char) : encode (c :: s) = encodeChar c ++ encode s := rfl

theorem encodeChar_of_lt {c : Char} (h : c.toNat < 0x80) : encodeChar c = [UInt8.ofNat c.toNat] := by
  rw [encodeChar, if_pos h]

/-- The bytes of a character beyond ASCII are beyond ASCII. -/
theorem le_of_mem_encodeChar {c : Char} (h : 0x80 ≤ c.toNat) {b : UInt8} (hb : b ∈ encodeChar c) :
    0x80 ≤ b.toNat := by
  have hv := char_valid c
  unfold encodeChar at hb
  dsimp only at hb
  rw [if_neg (by omega)] at hb
  split at hb <;> (try split at hb) <;>
    simp only [List.mem_cons, List.not_mem_nil, or_false] at hb
  · rcases hb with rfl | rfl <;> rw [toNat_ofNat_of_lt] <;> omega
  · rcases hb with rfl | rfl | rfl <;> rw [toNat_ofNat_of_lt] <;> omega
  · rcases hb with rfl | rfl | rfl | rfl <;> rw [toNat_ofNat_of_lt] <;> omega

/-- A statement about the bytes of a character is one about the character, if it holds of no byte
beyond ASCII and of no character beyond it. -/
theorem all_encodeChar_iff {p : UInt8 → Prop} {q : Char → Prop} (hbyte : ∀ b, 0x80 ≤ b.toNat → ¬ p b)
    (hchar : ∀ c, 0x80 ≤ c.toNat → ¬ q c)
    (hascii : ∀ n < 0x80, p (UInt8.ofNat n) ↔ q (Char.ofNat n)) (c : Char) :
    (∀ b ∈ encodeChar c, p b) ↔ q c := by
  by_cases h : c.toNat < 0x80
  · have hc := hascii c.toNat h
    rw [Char.ofNat_toNat] at hc
    simpa [encodeChar_of_lt h] using hc
  · obtain ⟨b, hb⟩ := List.exists_mem_of_ne_nil _ (encodeChar_ne_nil c)
    have hge : 0x80 ≤ c.toNat := Nat.le_of_not_lt h
    exact iff_of_false (fun hall => hbyte b (le_of_mem_encodeChar hge hb) (hall b hb)) (hchar c hge)

/-- The same of a text. -/
theorem all_encode_iff {p : UInt8 → Prop} {q : Char → Prop} (hbyte : ∀ b, 0x80 ≤ b.toNat → ¬ p b)
    (hchar : ∀ c, 0x80 ≤ c.toNat → ¬ q c)
    (hascii : ∀ n < 0x80, p (UInt8.ofNat n) ↔ q (Char.ofNat n)) (cs : List Char) :
    (∀ b ∈ encode cs, p b) ↔ ∀ c ∈ cs, q c := by
  induction cs with
  | nil => simp [encode]
  | cons c cs ih =>
    rw [encode_cons, List.forall_mem_append, List.forall_mem_cons, ih,
      all_encodeChar_iff hbyte hchar hascii]

/-! ## The forms of a character -/

variable {a b c d : UInt8}

theorem isTail_iff : isTail b = true ↔ 0x80 ≤ b.toNat ∧ b.toNat ≤ 0xBF := by simp [isTail]

theorem toNat_charOfNat {n : Nat} (h : n < 0xD800 ∨ (0xDFFF < n ∧ n < 0x110000)) :
    (Char.ofNat n).toNat = n := by
  rw [Char.ofNat, dif_pos h]
  rfl

/-- The form of a character below U+0080. -/
theorem encodeChar_one (ha : a.toNat < 0x80) : encodeChar (Char.ofNat a.toNat) = [a] := by
  have hn := toNat_charOfNat (n := a.toNat) (by omega)
  simp only [encodeChar, hn]
  rw [if_pos ha, UInt8.ofNat_toNat]

/-- The form of a character below U+0800. -/
theorem encodeChar_two (ha : 0xC2 ≤ a.toNat ∧ a.toNat ≤ 0xDF) (hb : isTail b = true) :
    encodeChar (Char.ofNat ((a.toNat - 0xC0) * 64 + (b.toNat - 0x80))) = [a, b] := by
  rw [isTail_iff] at hb
  generalize hvalue : (a.toNat - 0xC0) * 64 + (b.toNat - 0x80) = n
  have hn := toNat_charOfNat (n := n) (by omega)
  have hfirst : 0xC0 + n / 64 = a.toNat := by omega
  have hsecond : 0x80 + n % 64 = b.toNat := by omega
  simp only [encodeChar, hn]
  rw [if_neg (by omega), if_pos (by omega), hfirst, hsecond, UInt8.ofNat_toNat, UInt8.ofNat_toNat]

/-- The second byte excludes what could be written with two bytes, and surrogates. -/
theorem bounds_of_isSecondOfThree (hb : isSecondOfThree a b = true) : 0x80 ≤ b.toNat ∧ b.toNat ≤ 0xBF ∧
      (a.toNat = 0xE0 → 0xA0 ≤ b.toNat) ∧ (a.toNat = 0xED → b.toNat ≤ 0x9F) := by
  unfold isSecondOfThree at hb
  split at hb
  · simp only [Bool.and_eq_true, decide_eq_true_eq] at hb
    omega
  · split at hb
    · simp only [Bool.and_eq_true, decide_eq_true_eq] at hb
      omega
    · rw [isTail_iff] at hb
      omega

/-- The form of a character below U+10000. -/
theorem encodeChar_three (ha : 0xE0 ≤ a.toNat ∧ a.toNat ≤ 0xEF) (hb : isSecondOfThree a b = true)
    (hc : isTail c = true) :
    encodeChar (Char.ofNat ((a.toNat - 0xE0) * 4096 + (b.toNat - 0x80) * 64 + (c.toNat - 0x80))) =
      [a, b, c] := by
  have hbounds := bounds_of_isSecondOfThree hb
  rw [isTail_iff] at hc
  generalize hvalue : (a.toNat - 0xE0) * 4096 + (b.toNat - 0x80) * 64 + (c.toNat - 0x80) = n
  have hn := toNat_charOfNat (n := n) (by omega)
  have hfirst : 0xE0 + n / 4096 = a.toNat := by omega
  have hsecond : 0x80 + n / 64 % 64 = b.toNat := by omega
  have hthird : 0x80 + n % 64 = c.toNat := by omega
  simp only [encodeChar, hn]
  rw [if_neg (by omega), if_neg (by omega), if_pos (by omega), hfirst, hsecond, hthird]
  simp only [UInt8.ofNat_toNat]

/-- The second byte excludes what could be written with three bytes, and what is no character. -/
theorem bounds_of_isSecondOfFour (hb : isSecondOfFour a b = true) : 0x80 ≤ b.toNat ∧ b.toNat ≤ 0xBF ∧
      (a.toNat = 0xF0 → 0x90 ≤ b.toNat) ∧ (a.toNat = 0xF4 → b.toNat ≤ 0x8F) := by
  unfold isSecondOfFour at hb
  split at hb
  · simp only [Bool.and_eq_true, decide_eq_true_eq] at hb
    omega
  · split at hb
    · simp only [Bool.and_eq_true, decide_eq_true_eq] at hb
      omega
    · rw [isTail_iff] at hb
      omega

/-- The form of a character from U+10000 on. -/
theorem encodeChar_four (ha : 0xF0 ≤ a.toNat ∧ a.toNat ≤ 0xF4) (hb : isSecondOfFour a b = true)
    (hc : isTail c = true) (hd : isTail d = true) :
    encodeChar (Char.ofNat ((a.toNat - 0xF0) * 262144 + (b.toNat - 0x80) * 4096 +
      (c.toNat - 0x80) * 64 + (d.toNat - 0x80))) = [a, b, c, d] := by
  have hbounds := bounds_of_isSecondOfFour hb
  rw [isTail_iff] at hc hd
  generalize hvalue : (a.toNat - 0xF0) * 262144 + (b.toNat - 0x80) * 4096 +
    (c.toNat - 0x80) * 64 + (d.toNat - 0x80) = n
  have hn := toNat_charOfNat (n := n) (by omega)
  have hfirst : 0xF0 + n / 262144 = a.toNat := by omega
  have hsecond : 0x80 + n / 4096 % 64 = b.toNat := by omega
  have hthird : 0x80 + n / 64 % 64 = c.toNat := by omega
  have hfourth : 0x80 + n % 64 = d.toNat := by omega
  simp only [encodeChar, hn]
  rw [if_neg (by omega), if_neg (by omega), if_neg (by omega), hfirst, hsecond, hthird, hfourth]
  simp only [UInt8.ofNat_toNat]

/-- **A character that is read stands there in its own form.** -/
theorem encodeChar_of_head {rest after : Bytes} {x : Char} (h : head a rest = .char x after) :
    a :: rest = encodeChar x ++ after := by
  revert h
  fun_cases head a rest
  case case1 ha =>
    intro h
    obtain ⟨rfl, rfl⟩ := Head.char.inj h
    exact congrArg (· ++ rest) (encodeChar_one ha).symm
  case case2 ha b rest hb =>
    intro h
    obtain ⟨rfl, rfl⟩ := Head.char.inj h
    exact congrArg (· ++ rest) (encodeChar_two ha hb).symm
  case case5 ha b hb c rest hc =>
    intro h
    obtain ⟨rfl, rfl⟩ := Head.char.inj h
    exact congrArg (· ++ rest) (encodeChar_three ha hb hc).symm
  case case10 ha b hb c hc d rest hd =>
    intro h
    obtain ⟨rfl, rfl⟩ := Head.char.inj h
    exact congrArg (· ++ rest) (encodeChar_four ha hb hc hd).symm
  -- In all other cases the piece at the head is ill-formed.
  all_goals nofun

/-! ## Texts -/

/-- What is read in the end begins with what was read so far, and goes on with what the bytes stand for. -/
theorem encode_of_decodeAux {n : Nat} {acc s : List Char} {bs : Bytes}
    (h : decodeAux n acc bs = some s) : ∃ t, s = acc.reverse ++ t ∧ bs = encode t := by
  induction n generalizing acc bs with
  | zero =>
    cases bs with
    | nil => exact ⟨[], by simpa [decodeAux] using h.symm, rfl⟩
    | cons b bs => cases h
  | succ n ih =>
    cases bs with
    | nil => exact ⟨[], by simpa [decodeAux] using h.symm, rfl⟩
    | cons b bs =>
      rw [decodeAux] at h
      split at h
      · rename_i x rest hhead
        obtain ⟨t, hs, ht⟩ := ih h
        refine ⟨x :: t, by rw [hs]; simp, ?_⟩
        rw [encodeChar_of_head hhead, ht]
        rfl
      · cases h

/-- **Bytes stand for a text just if they are its bytes.** -/
theorem decode?_eq_some_iff {bs : Bytes} {s : List Char} : decode? bs = some s ↔ bs = encode s := by
  constructor
  · intro h
    obtain ⟨t, hs, ht⟩ := encode_of_decodeAux h
    rw [hs, ht]
    rfl
  · rintro rfl
    exact decode?_encode s

/-- The bytes of a text determine it, because it can be read back. -/
theorem encode_injective {s t : List Char} (h : encode s = encode t) : s = t := by
  have hread := decode?_eq_some_iff.2 h
  rw [decode?_encode] at hread
  exact Option.some.inj hread

end HealthService.Utf8
