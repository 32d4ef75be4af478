import HealthService.Json.Reader
import HealthService.Proofs.Text.Utf8
import Mathlib.Tactic.IntervalCases

/-!
# Texts and numbers are read back

A reader gets bytes of which only the beginning was written by the printer; what follows is the
business of others.  A text ends with its quote, whatever follows; a number ends where something
stands that cannot go on with it (`Json.Stops`).

* `collectText_escapeChar` — one character inside a literal: its escape is resolved.
* `readText_quote` — **a literal is read back**, for every string.
* `absorb_digits` — digits are taken into the significand as long as it is a word.
* `readNumber_print` — **an integer is read back**, for all integers that are words.
-/

namespace HealthService

namespace Json

/-! ## Texts -/

/-- A character stands for itself in a literal, or for it stands an escape, which is read as it. -/
theorem escapeChar_cases (c : Char) :
    (escapeChar c = [c] ∧ c ≠ '"' ∧ c ≠ '\\' ∧ 0x20 ≤ c.toNat) ∨
    ∃ e, Utf8.encode (escapeChar c) = 0x5C :: e ∧ ∀ rest, readEscape (e ++ rest) = .ok (c, rest) := by
  by_cases hquote : c = '"'
  · subst hquote
    exact Or.inr ⟨[0x22], rfl, fun rest => rfl⟩
  by_cases hback : c = '\\'
  · subst hback
    exact Or.inr ⟨[0x5C], rfl, fun rest => rfl⟩
  by_cases hcontrol : c.toNat < 0x20
  · right
    have hall : ∀ n < 0x20, ∃ e, Utf8.encode (escapeChar (Char.ofNat n)) = 0x5C :: e ∧
        ∀ rest, readEscape (e ++ rest) = .ok (Char.ofNat n, rest) := by
      intro n hn
      interval_cases n <;> exact ⟨_, rfl, fun rest => rfl⟩
    have := hall c.toNat hcontrol
    rwa [Char.ofNat_toNat] at this
  · left
    refine ⟨?_, hquote, hback, by omega⟩
    rw [escapeChar, if_neg hquote, if_neg hback, if_neg hcontrol]

/-- Bytes that are neither quotes nor backslashes nor controls stand for themselves. -/
theorem collectText_plain {bs : Bytes} (h : ∀ b ∈ bs, b ≠ 0x22 ∧ b ≠ 0x5C ∧ 0x20 ≤ b.toNat)
    {bound acc rest : Bytes} (hbound : bs.length ≤ bound.length) :
    collectText bound acc (bs ++ rest) =
      collectText (bound.drop bs.length) (bs.reverse ++ acc) rest := by
  induction bs generalizing bound acc with
  | nil => rfl
  | cons b bs ih =>
    obtain ⟨⟨hquote, hback, hcontrol⟩, hbs⟩ := List.forall_mem_cons.1 h
    obtain ⟨x, bound, rfl⟩ : ∃ x bound', bound = x :: bound' := by
      cases bound with
      | nil => simp at hbound
      | cons x bound => exact ⟨x, bound, rfl⟩
    rw [List.cons_append, collectText, if_neg hquote, if_neg hback, if_neg (by omega),
      ih hbs (by simpa using hbound)]
    simp

/-- **One character inside a literal**: it is added as it was before it was escaped. -/
theorem collectText_escapeChar (c : Char) {bound : Bytes} (acc rest : Bytes)
    (hbound : (Utf8.encode (escapeChar c)).length ≤ bound.length) :
    ∃ bound' : Bytes, bound.length ≤ bound'.length + (Utf8.encode (escapeChar c)).length ∧
      collectText bound acc (Utf8.encode (escapeChar c) ++ rest) =
        collectText bound' ((Utf8.encodeChar c).reverse ++ acc) rest := by
  rcases escapeChar_cases c with ⟨hself, hquote, hback, hcontrol⟩ | ⟨e, he, hread⟩
  · have hbytes : Utf8.encode (escapeChar c) = Utf8.encodeChar c := by
      rw [hself, Utf8.encode_cons]
      exact List.append_nil _
    rw [hbytes] at hbound ⊢
    refine ⟨bound.drop (Utf8.encodeChar c).length, ?_, collectText_plain (fun b hb => ?_) hbound⟩
    · rw [List.length_drop]
      omega
    · by_cases hascii : c.toNat < 0x80
      · rw [Utf8.encodeChar_of_lt hascii, List.mem_singleton] at hb
        have hb : b.toNat = c.toNat := by rw [hb, Utf8.toNat_ofNat_of_lt (by omega)]
        refine ⟨fun h => hquote ?_, fun h => hback ?_, by omega⟩ <;>
          exact Char.toNat_inj.1 (by rw [← hb, h]; rfl)
      · have hb := Utf8.le_of_mem_encodeChar (by omega) hb
        refine ⟨?_, ?_, by omega⟩ <;> rintro rfl <;> exact absurd hb (by decide)
  · rw [he] at hbound ⊢
    obtain ⟨x, bound, rfl⟩ : ∃ x bound', bound = x :: bound' := by
      cases bound with
      | nil => simp at hbound
      | cons x bound => exact ⟨x, bound, rfl⟩
    refine ⟨bound, by simp, ?_⟩
    rw [List.cons_append, collectText, if_neg (by decide), if_pos rfl, hread]

theorem collectText_escape (s : List Char) {bound acc rest : Bytes}
    (hbound : (Utf8.encode (escape s)).length < bound.length) :
    collectText bound acc (Utf8.encode (escape s) ++ 0x22 :: rest) =
      .ok (acc.reverse ++ Utf8.encode s, rest) := by
  induction s generalizing bound acc with
  | nil =>
    obtain ⟨x, bound, rfl⟩ : ∃ x bound', bound = x :: bound' := by
      cases bound with
      | nil => simp at hbound
      | cons x bound => exact ⟨x, bound, rfl⟩
    simp [escape, Utf8.encode, collectText]
  | cons c s ih =>
    have hsplit : Utf8.encode (escape (c :: s)) =
        Utf8.encode (escapeChar c) ++ Utf8.encode (escape s) := Utf8.encode_append _ _
    rw [hsplit, List.length_append] at hbound
    obtain ⟨bound', hlen, heq⟩ := collectText_escapeChar c acc
      (Utf8.encode (escape s) ++ 0x22 :: rest) (show _ ≤ bound.length by omega)
    rw [hsplit, List.append_assoc, heq, ih (by omega), Utf8.encode_cons]
    simp

/-- The bytes of a literal. -/
theorem encode_quote (s : String) :
    Utf8.encode (quote s) = 0x22 :: (Utf8.encode (escape s.toList) ++ [0x22]) := by
  rw [quote, Utf8.encode_cons, Utf8.encode_append]
  rfl

/-- **A literal is read back**, whatever follows it. -/
theorem readText_quote (s : String) (rest : Bytes) :
    readText (Utf8.encode (escape s.toList) ++ 0x22 :: rest) = .ok (s, rest) := by
  unfold readText
  rw [collectText_escape s.toList (by simp)]
  simp only [bind, Except.bind, List.reverse_nil, List.nil_append, Utf8.decode?_encode]
  rw [String.ofList_toList]

/-! ## Numbers -/

/-- What follows does not go on with a number. -/
def Stops (rest : Bytes) : Prop :=
  ∀ b ∈ rest.head?, isDigit b = false ∧ b ≠ 0x2E ∧ b ≠ 0x65 ∧ b ≠ 0x45

theorem stops_cons {b : UInt8} (rest : Bytes)
    (h : isDigit b = false ∧ b ≠ 0x2E ∧ b ≠ 0x65 ∧ b ≠ 0x45) : Stops (b :: rest) := by
  intro c hc
  obtain rfl := Option.some.inj hc
  exact h

/-- A digit is one byte, which has its value. -/
theorem encodeChar_digit {c : Char} (h : c.isDigit = true) :
    Utf8.encodeChar c = [UInt8.ofNat c.toNat] ∧ isDigit (UInt8.ofNat c.toNat) = true ∧
      digitValue (UInt8.ofNat c.toNat) = c.toNat - '0'.toNat := by
  have hrange : 48 ≤ c.toNat ∧ c.toNat ≤ 57 := by
    rw [Char.isDigit, Bool.and_eq_true, decide_eq_true_iff, decide_eq_true_iff] at h
    exact h
  have hbyte : (UInt8.ofNat c.toNat).toNat = c.toNat := Utf8.toNat_ofNat_of_lt (by omega)
  refine ⟨Utf8.encodeChar_of_lt (by omega), ?_, ?_⟩
  · rw [isDigit, hbyte, Bool.and_eq_true, decide_eq_true_iff, decide_eq_true_iff]
    exact hrange
  · rw [digitValue, hbyte]
    rfl

theorem le_ofDigitChars (cs : List Char) (n : Nat) : n ≤ Nat.ofDigitChars 10 cs n := by
  induction cs generalizing n with
  | nil => exact le_rfl
  | cons c cs ih =>
    rw [Nat.ofDigitChars_cons]
    exact le_trans (by omega) (ih _)

/-- **Digits are taken into the significand** as long as it is a word. -/
theorem absorb_digits {cs : List Char} (hcs : ∀ c ∈ cs, c.isDigit = true) {n taken : Nat}
    (hlt : Nat.ofDigitChars 10 cs n < 0x10000000000000000) :
    absorb n taken (Utf8.encode cs) =
      (Nat.ofDigitChars 10 cs n, taken + (Utf8.encode cs).length) := by
  induction cs generalizing n taken with
  | nil => rfl
  | cons c cs ih =>
    obtain ⟨hc, hcs⟩ := List.forall_mem_cons.1 hcs
    obtain ⟨hbyte, -, hvalue⟩ := encodeChar_digit hc
    rw [Nat.ofDigitChars_cons, Nat.mul_comm 10, ← hvalue] at hlt ⊢
    rw [Utf8.encode_cons, hbyte, List.singleton_append, absorb,
      if_pos ((le_ofDigitChars cs _).trans_lt hlt), ih hcs hlt, List.length_cons]
    congr 1
    omega

/-- Digits are told from what follows them. -/
theorem span_digits {cs : List Char} (hcs : ∀ c ∈ cs, c.isDigit = true) {rest : Bytes}
    (hrest : Stops rest) : (Utf8.encode cs ++ rest).takeWhile isDigit = Utf8.encode cs ∧
      (Utf8.encode cs ++ rest).dropWhile isDigit = rest := by
  have hall : ∀ b ∈ Utf8.encode cs, isDigit b = true := by
    intro b hb
    obtain ⟨c, hc, hb⟩ := List.mem_flatMap.1 hb
    obtain ⟨hbyte, hdigit, -⟩ := encodeChar_digit (hcs c hc)
    rw [hbyte, List.mem_singleton] at hb
    rwa [hb]
  rw [List.takeWhile_append_of_pos hall, List.dropWhile_append_of_pos hall]
  cases rest with
  | nil => simp
  | cons b rest => simp [(hrest b rfl).1]

/-- A number without a point and an exponent is an integer. -/
theorem finishNumber_whole (negative : Bool) (n : Nat) {rest : Bytes} (hrest : Stops rest) :
    finishNumber negative n 0 rest = finishNumber.whole negative n rest := by
  cases rest with
  | nil => rfl
  | cons b rest =>
    obtain ⟨-, hpoint, hlower, hupper⟩ := hrest b rfl
    unfold finishNumber
    split
    · rename_i heq
      exact absurd (List.cons.inj heq).1 hpoint
    · rename_i heq
      obtain ⟨rfl, rfl⟩ := List.cons.inj heq
      rw [if_neg (by simp [hlower, hupper])]
    · rename_i heq
      cases heq

/-- A natural number begins with a digit. -/
theorem encode_ofNat (n : Nat) :
    ∃ b bs, Utf8.encode (Decimal.ofNat n) = b :: bs ∧ isDigit b = true := by
  cases hdigits : Decimal.ofNat n with
  | nil => exact absurd hdigits Nat.toDigits_ne_nil
  | cons c cs =>
    have hc : c ∈ Nat.toDigits 10 n := by
      rw [← Decimal.ofNat, hdigits]
      exact List.mem_cons_self
    obtain ⟨hbyte, hdigit, -⟩ :=
      encodeChar_digit (Nat.isDigit_of_mem_toDigits (by decide) (by decide) hc)
    exact ⟨_, Utf8.encode cs, by rw [Utf8.encode_cons, hbyte]; rfl, hdigit⟩

/-- An integer begins with a minus sign or a digit. -/
theorem encode_ofInt (n : Int) :
    ∃ b bs, Utf8.encode (Decimal.ofInt n) = b :: bs ∧ (b = 0x2D ∨ isDigit b = true) := by
  cases n with
  | ofNat n =>
    obtain ⟨b, bs, hbytes, hdigit⟩ := encode_ofNat n
    exact ⟨b, bs, hbytes, Or.inr hdigit⟩
  | negSucc n => exact ⟨0x2D, _, rfl, Or.inl rfl⟩

/-- What begins an integer is no other byte. -/
theorem ne_of_begins {b c : UInt8} (hb : b = 0x2D ∨ isDigit b = true)
    (hc : c ≠ 0x2D ∧ isDigit c = false) : b ≠ c := by
  rintro rfl
  rcases hb with hb | hb
  · exact hc.1 hb
  · rw [hc.2] at hb
    cases hb

/-- The digits of a positive number do not begin with a zero. -/
theorem head_toDigits {n : Nat} (hn : 0 < n) : ∃ c cs, Nat.toDigits 10 n = c :: cs ∧ c ≠ '0' := by
  induction n using Nat.strong_induction_on with
  | _ n ih =>
    rw [Nat.toDigits_eq_if (by decide)]
    split
    · rename_i hlt
      refine ⟨n.digitChar, [], rfl, fun h => ?_⟩
      have := Nat.toNat_digitChar_of_lt_ten hlt
      rw [h] at this
      exact absurd (show 48 = 48 + n from this) (by omega)
    · obtain ⟨c, cs, heq, hc⟩ := ih (n / 10) (by omega) (by omega)
      exact ⟨c, cs ++ [(n % 10).digitChar], by rw [heq]; rfl, hc⟩

/-- The digits of a natural number that is a word are read as it. -/
theorem readUnsigned_digits (negative : Bool) {n : Nat} (hn : n < 0x10000000000000000) {rest : Bytes}
    (hrest : Stops rest) : readUnsigned negative (Utf8.encode (Decimal.ofNat n) ++ rest) =
      finishNumber.whole negative n rest := by
  rcases Nat.eq_zero_or_pos n with rfl | hpos
  · show readUnsigned negative (0x30 :: rest) = _
    unfold readUnsigned
    dsimp only
    rw [if_pos rfl]
    cases rest with
    | nil => exact finishNumber_whole negative 0 hrest
    | cons b rest =>
      dsimp only
      rw [if_neg (by simp [(hrest b rfl).1])]
      exact finishNumber_whole negative 0 hrest
  · obtain ⟨c, cs, heq, hzero⟩ := head_toDigits hpos
    have hdigits : ∀ d ∈ c :: cs, d.isDigit = true := by
      rw [← heq]
      exact fun d => Nat.isDigit_of_mem_toDigits (by decide) (by decide)
    have hvalue : Nat.ofDigitChars 10 (c :: cs) 0 = n := by
      rw [← heq]
      exact Nat.ofDigitChars_toDigits (by decide) (by decide)
    obtain ⟨hc, hcs⟩ := List.forall_mem_cons.1 hdigits
    obtain ⟨hbyte, hdigit, hvalue'⟩ := encodeChar_digit hc
    rw [Nat.ofDigitChars_cons, Nat.mul_zero, Nat.zero_add, ← hvalue'] at hvalue
    obtain ⟨htake, hdrop⟩ := span_digits hcs hrest
    have hne : UInt8.ofNat c.toNat ≠ 0x30 := by
      intro h
      refine hzero (Char.toNat_inj.1 ?_)
      have := congrArg UInt8.toNat h
      rwa [Utf8.toNat_ofNat_of_lt] at this
      rw [Char.isDigit, Bool.and_eq_true, decide_eq_true_iff, decide_eq_true_iff] at hc
      exact lt_of_le_of_lt (b := 57) hc.2 (by decide)
    rw [Decimal.ofNat, heq, Utf8.encode_cons, hbyte, List.singleton_append, List.cons_append]
    unfold readUnsigned
    dsimp only
    rw [if_neg hne, if_pos hdigit, htake, hdrop, absorb_digits hcs (by rw [hvalue]; exact hn), hvalue]
    simp only [Nat.zero_add, Nat.sub_self]
    exact finishNumber_whole negative n hrest

/-- **An integer is read back**, if nothing follows that goes on with it. -/
theorem readNumber_print (w : WordInt) {rest : Bytes} (hrest : Stops rest) :
    readNumber (Utf8.encode (Decimal.ofInt w.val) ++ rest) = .ok (.int w, rest) := by
  obtain ⟨val, low, high⟩ := w
  cases val with
  | ofNat n =>
    have hn : n < 0x10000000000000000 := by
      have : (n : Int) < 0x10000000000000000 := high
      omega
    have hread := readUnsigned_digits false hn hrest
    rw [finishNumber.whole, dif_pos hn, if_neg (by decide)] at hread
    obtain ⟨b, bs, hbytes, hdigit⟩ := encode_ofNat n
    rw [Decimal.ofInt]
    rw [hbytes, List.cons_append] at hread ⊢
    unfold readNumber
    split
    · rename_i heq
      rw [(List.cons.inj heq).1] at hdigit
      exact absurd hdigit (by decide)
    · exact hread
  | negSucc n =>
    have hn : n + 1 ≤ 0x8000000000000000 := by
      have : -0x8000000000000000 ≤ Int.negSucc n := low
      omega
    have hread := readUnsigned_digits true (n := n + 1) (by omega) hrest
    rw [finishNumber.whole, dif_pos (by omega), if_pos rfl, dif_pos ⟨Nat.succ_pos n, hn⟩] at hread
    exact hread

end Json
end HealthService
