/-!
# UTF-8

Texts are lists of characters and wire data are lists of bytes; this file holds the two directions
between them.

* `encode` writes a text as bytes.
* `decode?` reads it back and refuses ill-formed bytes; `decode?_encode` says that it reads what
  `encode` writes.
* `decodeLossy` never refuses: each maximal ill-formed piece becomes one U+FFFD.
* `validLength` counts the bytes before the first ill-formed one.
-/

namespace HealthService

/-- Data as it stands on the wire or in a file. -/
abbrev Bytes := List UInt8

namespace Utf8

/-! ## Writing -/

/-- The one to four bytes of a character. -/
def encodeChar (c : Char) : Bytes :=
  let n := c.toNat
  if n < 0x80 then [UInt8.ofNat n]
  else if n < 0x800 then [UInt8.ofNat (0xC0 + n / 64), UInt8.ofNat (0x80 + n % 64)]
  else if n < 0x10000 then
    [UInt8.ofNat (0xE0 + n / 4096), UInt8.ofNat (0x80 + n / 64 % 64), UInt8.ofNat (0x80 + n % 64)]
  else
    [UInt8.ofNat (0xF0 + n / 262144), UInt8.ofNat (0x80 + n / 4096 % 64),
      UInt8.ofNat (0x80 + n / 64 % 64), UInt8.ofNat (0x80 + n % 64)]

/-- The bytes of a text. -/
def encode (s : List Char) : Bytes := s.flatMap encodeChar

/-- The bytes of a string. -/
def ofString (s : String) : Bytes := encode s.toList

/-! ## Reading -/

/-- Continuation bytes lie in `80`–`BF`. -/
def isTail (b : UInt8) : Bool := 0x80 ≤ b.toNat && b.toNat ≤ 0xBF

/-- Which second bytes may follow a first byte of a three-byte character: no overlong forms after
`E0`, no surrogates after `ED`. -/
def isSecondOfThree (a b : UInt8) : Bool :=
  if a.toNat = 0xE0 then 0xA0 ≤ b.toNat && b.toNat ≤ 0xBF
  else if a.toNat = 0xED then 0x80 ≤ b.toNat && b.toNat ≤ 0x9F
  else isTail b

/-- Which second bytes may follow a first byte of a four-byte character: no overlong forms after
`F0`, nothing beyond U+10FFFF after `F4`. -/
def isSecondOfFour (a b : UInt8) : Bool :=
  if a.toNat = 0xF0 then 0x90 ≤ b.toNat && b.toNat ≤ 0xBF
  else if a.toNat = 0xF4 then 0x80 ≤ b.toNat && b.toNat ≤ 0x8F
  else isTail b

/-- What stands at the head of a byte sequence. -/
inductive Head where
  /-- A well-formed character, and the bytes after it. -/
  | char (c : Char) (rest : Bytes)
  /-- An ill-formed piece, and the bytes after it. -/
  | illFormed (rest : Bytes)
  deriving DecidableEq, Repr

/-- Reads one character after its first byte `a`. An ill-formed piece ends before the first byte
that cannot continue it. -/
def head (a : UInt8) (rest : Bytes) : Head :=
  let x := a.toNat
  if x < 0x80 then .char (Char.ofNat x) rest
  else if 0xC2 ≤ x ∧ x ≤ 0xDF then
    match rest with
    | b :: r =>
      if isTail b then .char (Char.ofNat ((x - 0xC0) * 64 + (b.toNat - 0x80))) r
      else .illFormed rest
    | [] => .illFormed []
  else if 0xE0 ≤ x ∧ x ≤ 0xEF then
    match rest with
    | b :: r =>
      if isSecondOfThree a b then
        match r with
        | c :: r' =>
          if isTail c then
            .char (Char.ofNat
              ((x - 0xE0) * 4096 + (b.toNat - 0x80) * 64 + (c.toNat - 0x80))) r'
          else .illFormed r
        | [] => .illFormed []
      else .illFormed rest
    | [] => .illFormed []
  else if 0xF0 ≤ x ∧ x ≤ 0xF4 then
    match rest with
    | b :: r =>
      if isSecondOfFour a b then
        match r with
        | c :: r' =>
          if isTail c then
            match r' with
            | d :: r'' =>
              if isTail d then
                .char (Char.ofNat ((x - 0xF0) * 262144 + (b.toNat - 0x80) * 4096
                  + (c.toNat - 0x80) * 64 + (d.toNat - 0x80))) r''
              else .illFormed r'
            | [] => .illFormed []
          else .illFormed r
        | [] => .illFormed []
      else .illFormed rest
    | [] => .illFormed []
  else .illFormed rest

/-- `decode?` with what was read so far, newest first; the number bounds the characters to come. -/
def decodeAux : Nat → List Char → Bytes → Option (List Char)
  | _, acc, [] => some acc.reverse
  | 0, _, _ :: _ => none
  | n + 1, acc, b :: bs =>
    match head b bs with
    | .char c rest => decodeAux n (c :: acc) rest
    | .illFormed _ => none

/-- The text that well-formed bytes stand for. -/
def decode? (b : Bytes) : Option (List Char) := decodeAux b.length [] b

/-- The string that well-formed bytes stand for. -/
def toString? (b : Bytes) : Option String := (decode? b).map String.ofList

/-- `decodeLossy` with what was read so far, newest first. -/
def decodeLossyAux : Nat → List Char → Bytes → List Char
  | _, acc, [] => acc.reverse
  | 0, acc, _ :: _ => acc.reverse
  | n + 1, acc, b :: bs =>
    match head b bs with
    | .char c rest => decodeLossyAux n (c :: acc) rest
    | .illFormed rest => decodeLossyAux n ('\uFFFD' :: acc) rest

/-- The text with U+FFFD in place of each ill-formed piece. -/
def decodeLossy (b : Bytes) : List Char := decodeLossyAux b.length [] b

/-- `validLength` with the bytes counted so far. -/
def validLengthAux : Nat → Nat → Bytes → Nat
  | _, k, [] => k
  | 0, k, _ :: _ => k
  | n + 1, k, b :: bs =>
    match head b bs with
    | .char _ rest => validLengthAux n (k + (bs.length + 1 - rest.length)) rest
    | .illFormed _ => k

/-- How many bytes stand before the first ill-formed one. -/
def validLength (b : Bytes) : Nat := validLengthAux b.length 0 b

/-! ## Reading what was written -/

theorem char_valid (c : Char) : c.toNat < 0xD800 ∨ (0xDFFF < c.toNat ∧ c.toNat < 0x110000) := by
  have h := c.valid
  simp only [UInt32.isValidChar, Nat.isValidChar] at h
  exact h

theorem toNat_ofNat_of_lt {n : Nat} (h : n < 256) : (UInt8.ofNat n).toNat = n := by
  simp [Nat.mod_eq_of_lt h]

theorem encodeChar_ne_nil (c : Char) : encodeChar c ≠ [] := by
  unfold encodeChar
  dsimp only
  split <;> (try split) <;> (try split) <;> simp

/-- A written character is read back, whatever follows it. -/
theorem head_encodeChar (c : Char) (rest : Bytes) :
    ∃ b bs, encodeChar c ++ rest = b :: bs ∧ head b bs = .char c rest := by
  have hv := char_valid c
  have hc : Char.ofNat c.toNat = c := Char.ofNat_toNat c
  unfold encodeChar
  dsimp only
  split
  · rename_i h1
    refine ⟨_, _, List.cons_append, ?_⟩
    have e := toNat_ofNat_of_lt (n := c.toNat) (by omega)
    simp only [head, e, if_pos h1, hc, List.nil_append]
  · split
    · rename_i h1 h2
      refine ⟨_, _, List.cons_append, ?_⟩
      have e1 := toNat_ofNat_of_lt (n := 0xC0 + c.toNat / 64) (by omega)
      have e2 := toNat_ofNat_of_lt (n := 0x80 + c.toNat % 64) (by omega)
      have g : (0xC0 + c.toNat / 64 - 0xC0) * 64 + (0x80 + c.toNat % 64 - 0x80) = c.toNat := by
        omega
      simp only [head, List.cons_append, List.nil_append, isTail, e1, e2, g, hc]
      rw [if_neg (by omega), if_pos (by omega), if_pos (by simp; omega)]
    · split
      · rename_i h1 h2 h3
        refine ⟨_, _, List.cons_append, ?_⟩
        have e1 := toNat_ofNat_of_lt (n := 0xE0 + c.toNat / 4096) (by omega)
        have e2 := toNat_ofNat_of_lt (n := 0x80 + c.toNat / 64 % 64) (by omega)
        have e3 := toNat_ofNat_of_lt (n := 0x80 + c.toNat % 64) (by omega)
        have g : (0xE0 + c.toNat / 4096 - 0xE0) * 4096 + (0x80 + c.toNat / 64 % 64 - 0x80) * 64
            + (0x80 + c.toNat % 64 - 0x80) = c.toNat := by omega
        have s : isSecondOfThree (UInt8.ofNat (0xE0 + c.toNat / 4096))
            (UInt8.ofNat (0x80 + c.toNat / 64 % 64)) = true := by
          simp only [isSecondOfThree, isTail, e1, e2]
          split
          · simp; omega
          · split <;> simp <;> omega
        simp only [head, List.cons_append, List.nil_append, isTail, e1, e2, e3, g, hc, s]
        rw [if_neg (by omega), if_neg (by omega), if_pos (by omega), if_pos trivial,
          if_pos (by simp; omega)]
      · rename_i h1 h2 h3
        refine ⟨_, _, List.cons_append, ?_⟩
        have e1 := toNat_ofNat_of_lt (n := 0xF0 + c.toNat / 262144) (by omega)
        have e2 := toNat_ofNat_of_lt (n := 0x80 + c.toNat / 4096 % 64) (by omega)
        have e3 := toNat_ofNat_of_lt (n := 0x80 + c.toNat / 64 % 64) (by omega)
        have e4 := toNat_ofNat_of_lt (n := 0x80 + c.toNat % 64) (by omega)
        have g : (0xF0 + c.toNat / 262144 - 0xF0) * 262144
            + (0x80 + c.toNat / 4096 % 64 - 0x80) * 4096
            + (0x80 + c.toNat / 64 % 64 - 0x80) * 64
            + (0x80 + c.toNat % 64 - 0x80) = c.toNat := by omega
        have s : isSecondOfFour (UInt8.ofNat (0xF0 + c.toNat / 262144))
            (UInt8.ofNat (0x80 + c.toNat / 4096 % 64)) = true := by
          simp only [isSecondOfFour, isTail, e1, e2]
          split
          · simp; omega
          · split <;> simp <;> omega
        simp only [head, List.cons_append, List.nil_append, isTail, e1, e2, e3, e4, g, hc, s]
        rw [if_neg (by omega), if_neg (by omega), if_neg (by omega), if_pos (by omega),
          if_pos trivial, if_pos (by simp; omega), if_pos (by simp; omega)]

theorem length_encodeChar_pos (c : Char) : 0 < (encodeChar c).length :=
  List.length_pos_iff.mpr (encodeChar_ne_nil c)

theorem decodeAux_encode (s : List Char) :
    ∀ (n : Nat) (acc : List Char), (encode s).length ≤ n →
      decodeAux n acc (encode s) = some (acc.reverse ++ s) := by
  induction s with
  | nil => intro n acc _; cases n <;> simp [encode, decodeAux]
  | cons c s ih =>
    intro n acc hn
    have hlen : (encodeChar c).length + (encode s).length ≤ n := by
      simpa [encode] using hn
    have hpos := length_encodeChar_pos c
    obtain ⟨m, rfl⟩ : ∃ m, n = m + 1 := ⟨n - 1, by omega⟩
    obtain ⟨b, bs, hb, hh⟩ := head_encodeChar c (encode s)
    have : encode (c :: s) = b :: bs := by rw [← hb]; simp [encode]
    rw [this, decodeAux, hh]
    simp only
    rw [ih m (c :: acc) (by omega)]
    simp

/-- Reading recovers the text that was written. -/
theorem decode?_encode (s : List Char) : decode? (encode s) = some s := by
  simpa [decode?] using decodeAux_encode s (encode s).length [] (Nat.le_refl _)

theorem toString?_ofString (s : String) : toString? (ofString s) = some s := by
  simp [toString?, ofString, decode?_encode]

end Utf8

end HealthService
