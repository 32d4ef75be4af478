import HealthService.Http.Message
import HealthService.Proofs.Json.Scalars

/-!
# Texts in headers

A header value is a text if it consists of visible ASCII characters, spaces and tabs.  Then its bytes are
its characters.

* `text?_eq_some_iff` — **what the text of a value is**, and when it has one.
* `isText_ofString` — a string of visible characters is a text.
-/

namespace HealthService

namespace Headers

/-- A value that is a text: visible ASCII characters, spaces and tabs. -/
def IsText (value : Bytes) : Prop :=
  ∀ b ∈ value, b = 0x09 ∨ (0x20 ≤ b.toNat ∧ b.toNat < 0x7F)

variable {value : Bytes} {s : String}

/-- The first value of a name is the first of all its values. -/
theorem first?_eq_head? (h : Headers) (name : String) : h.first? name = (h.values name).head? := by
  induction h with
  | nil => rfl
  | cons line h ih =>
    obtain ⟨name', value'⟩ := line
    rw [first?, List.lookup_cons, values]
    by_cases hname : name' = name
    · simp [hname]
    · have hbeq : (name == name') = false := by simpa using Ne.symm hname
      rw [hbeq, List.filter_cons_of_neg (by simpa using hname)]
      exact ih

theorem isText_iff : IsText value ↔
    (value.all fun b => b = 0x09 || (0x20 ≤ b.toNat && b.toNat < 0x7F)) = true := by
  simp [IsText]

/-- The characters of a text are its bytes. -/
theorem IsText.ofString_eq (h : IsText value) :
    Utf8.ofString (String.ofList (value.map fun b => Char.ofNat b.toNat)) = value := by
  rw [Utf8.ofString, String.toList_ofList]
  induction value with
  | nil => rfl
  | cons b value ih =>
    rw [IsText, List.forall_mem_cons] at h
    have hlt : b.toNat < 0x80 := by
      rcases h.1 with rfl | hb
      · decide
      · omega
    have hchar : ∀ n < 0x80, Utf8.encodeChar (Char.ofNat n) = [UInt8.ofNat n] := by decide
    rw [List.map_cons, Utf8.encode_cons, ih h.2, hchar _ hlt, UInt8.ofNat_toNat]
    rfl

/-- The bytes of a string determine it. -/
theorem eq_of_ofString {s' : String} (h : Utf8.ofString s = Utf8.ofString s') : s = s' :=
  String.toList_inj.1 (Utf8.encode_injective h)

/-- **What the text of a value is.** -/
theorem text?_eq_some_iff : text? value = some s ↔ IsText value ∧ value = Utf8.ofString s := by
  by_cases hvalue : IsText value
  · have hbytes := hvalue.ofString_eq
    rw [text?, if_pos (isText_iff.1 hvalue), Option.some.injEq]
    constructor
    · rintro rfl
      exact ⟨hvalue, hbytes.symm⟩
    · rintro ⟨-, hs⟩
      exact eq_of_ofString (hbytes.trans hs)
  · rw [text?, if_neg (isText_iff.not.1 hvalue)]
    simp [hvalue]

/-- A string of visible characters is a text. -/
theorem isText_ofString (h : ∀ c ∈ s.toList, 0x20 ≤ c.toNat ∧ c.toNat < 0x7F) :
    IsText (Utf8.ofString s) := by
  intro b hb
  obtain ⟨c, hc, hb⟩ := List.mem_flatMap.1 hb
  rw [Utf8.encodeChar_of_lt (by have := h c hc; omega), List.mem_singleton] at hb
  have hnat : b.toNat = c.toNat := by
    rw [hb, Utf8.toNat_ofNat_of_lt (by have := h c hc; omega)]
  rw [hnat]
  exact Or.inr (h c hc)

/-- A text is the value of a header. -/
theorem value?_eq_some (h : IsText (Utf8.ofString s)) : value? s = some (Utf8.ofString s) := by
  have hvalue : isValue (Utf8.ofString s) = true := by
    rw [isValue, List.all_eq_true]
    intro b hb
    rcases h b hb with htab | ⟨hle, hlt⟩
    · simp [isValueByte, htab]
    · have hdel : b.toNat ≠ 0x7F := Nat.ne_of_lt hlt
      simp [isValueByte, hle, hdel]
  rw [value?, if_pos hvalue]

end Headers

end HealthService
