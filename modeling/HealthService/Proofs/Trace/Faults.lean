import HealthService.Proofs.Trace.Grammar

/-!
# Why a text is no traceparent

A text that is not well formed has faults, and the first of them is reported.  The faults are looked
for in one order: the number of parts, the version, and then for the trace id, the span id and the
flags the length in bytes, the digits and that they are not all zero.  `rules` is that order as a
table.

* `checkField_eq_first` — a check of a field reports the first of its three faults.
* `parse_eq_error_iff` — **a text is refused with its first fault**.
* `reads_shown` — **what is read, what is written and what is refused**, for all texts.
-/

namespace HealthService

namespace TraceContext

/-! ## Rules and the first that applies -/

/-- The error of the first rule that applies. -/
def first (rules : List (Bool × TraceparentError)) : Option TraceparentError :=
  (rules.find? Prod.fst).map Prod.snd

@[simp] theorem first_nil : first [] = none := rfl

@[simp] theorem first_cons (applies : Bool) (e : TraceparentError)
    (rules : List (Bool × TraceparentError)) :
    first ((applies, e) :: rules) = if applies then some e else first rules := by
  cases applies <;> rfl

@[simp] theorem first_append (rules others : List (Bool × TraceparentError)) :
    first (rules ++ others) = (first rules).or (first others) := by
  rw [first, List.find?_append]
  cases hfind : rules.find? Prod.fst <;> simp [first, hfind]

/-- The bytes `0`–`9` and `a`–`f`. -/
def hexBytes : Bytes := Utf8.ofString "0123456789abcdef"

/-- What can be wrong with a field. -/
def fieldRules (name : String) (length : Nat) (zeroAllowed : Bool) (part : List Char) :
    List (Bool × TraceparentError) :=
  [((Utf8.encode part).length != length, .field name "wrong length"),
    ((Utf8.encode part).any (· ∉ hexBytes), .field name "not lowercase hex"),
    (!zeroAllowed && (Utf8.encode part).all (· = 0x30), .field name "all zeros")]

/-- What can be wrong with the parts of a text.  Where a part is missing there are not four of them. -/
def rules (parts : List (List Char)) : List (Bool × TraceparentError) :=
  let part (i : Nat) : List Char := parts.getD i []
  (parts.length != 4, .parts parts.length) ::
    (part 0 != "00".toList, .version (String.ofList (part 0))) ::
    (fieldRules "trace-id" 32 false (part 1) ++ fieldRules "span-id" 16 false (part 2) ++
      fieldRules "trace-flags" 2 true (part 3))

/-- The first fault of a text. -/
def firstFault (text : String) : Option TraceparentError := first (rules (text.toList.splitOn '-'))

-- The second field is wrong in two ways and the third in one; the length comes before the digits.
example : firstFault "00-XYZ-00000000000000000000-01" = some (.field "trace-id" "wrong length") := by
  cbv

/-! ## Fields -/

/-- A text consists of digits if its bytes are digits. -/
theorem any_notMem_hexBytes (cs : List Char) :
    (Utf8.encode cs).any (· ∉ hexBytes) = !cs.all isHex := by
  have hbyte : ∀ b ∈ hexBytes, b.toNat < 0x80 := by decide +kernel
  have hascii : ∀ n < 0x80, UInt8.ofNat n ∈ hexBytes ↔ isHex (Char.ofNat n) = true := by
    decide +kernel
  have hchar : ∀ c : Char, 0x80 ≤ c.toNat → ¬ isHex c = true := fun c hc h =>
    absurd (isHex_range h).2 (by omega)
  have hall := Utf8.all_encode_iff (fun b hb hmem => absurd (hbyte b hmem) (by omega)) hchar hascii cs
  rw [← List.all_eq_true (p := isHex)] at hall
  rw [Bool.eq_iff_iff, List.any_eq_true, Bool.not_eq_true', ← Bool.not_eq_true, ← hall]
  simp

/-- A text is all zeros if its bytes are. -/
theorem all_zero (cs : List Char) : (Utf8.encode cs).all (· = 0x30) = cs.all (· = '0') := by
  have hchar : ∀ c : Char, 0x80 ≤ c.toNat → ¬ c = '0' := by
    rintro c hc rfl
    exact absurd hc (by decide)
  have hbyte : ∀ b : UInt8, 0x80 ≤ b.toNat → ¬ b = 0x30 := by
    rintro b hb rfl
    exact absurd hb (by decide)
  have hall := Utf8.all_encode_iff hbyte hchar (by decide) cs
  rw [Bool.eq_iff_iff, List.all_eq_true, List.all_eq_true]
  simpa using hall

/-- **A check of a field reports the first of its faults.** -/
theorem checkField_eq_first (name : String) (length : Nat) (zeroAllowed : Bool) (part : List Char) :
    checkField name length zeroAllowed part =
      match first (fieldRules name length zeroAllowed part) with
      | some e => .error e
      | none => .ok () := by
  simp only [checkField, fieldRules, first_cons, first_nil, any_notMem_hexBytes, all_zero, bne_iff_ne]
  split_ifs <;> rfl

/-! ## Texts -/

/-- The pieces of a text are those of the library's function. -/
theorem splitDashes_eq_splitOn (s : List Char) : splitDashes s = s.splitOn '-' := by
  induction s with
  | nil => rfl
  | cons c s ih =>
    rw [splitDashes, List.splitOn_cons_eq_if_modifyHead, ← ih]
    by_cases hc : c = '-'
    · simp [hc]
    · rw [if_neg hc, if_neg (by simpa using hc)]
      cases hs : splitDashes s with
      | nil => exact absurd hs (splitDashes_ne_nil s)
      | cons p ps => rfl

theorem exists_eq_four {α : Type} : ∀ {l : List α}, l.length = 4 → ∃ a b c d, l = [a, b, c, d]
  | [a, b, c, d], _ => ⟨a, b, c, d, rfl⟩

/-- **A text is refused with its first fault.** -/
theorem parse_eq_error_iff {text : String} {e : TraceparentError} :
    parse text = .error e ↔ firstFault text = some e := by
  unfold parse firstFault
  rw [splitDashes_eq_splitOn]
  generalize text.toList.splitOn '-' = parts
  by_cases hfour : parts.length = 4
  · obtain ⟨version, traceId, spanId, flags, rfl⟩ := exists_eq_four hfour
    have hrules : first (rules [version, traceId, spanId, flags]) =
        if version ≠ ['0', '0'] then some (.version (String.ofList version))
        else (first (fieldRules "trace-id" 32 false traceId)).or
          ((first (fieldRules "span-id" 16 false spanId)).or
            (first (fieldRules "trace-flags" 2 true flags))) := by
      simp [rules]
    rw [hrules]
    simp only [checkField_eq_first]
    by_cases hversion : version = ['0', '0']
    · rw [if_neg (not_not_intro hversion), if_neg (not_not_intro hversion)]
      rcases first (fieldRules "trace-id" 32 false traceId) with _ | e₁ <;>
        rcases first (fieldRules "span-id" 16 false spanId) with _ | e₂ <;>
          rcases first (fieldRules "trace-flags" 2 true flags) with _ | e₃ <;>
            simp [bind, Except.bind]
    · rw [if_pos hversion, if_pos hversion]
      simp
  · have hrules : first (rules parts) = some (.parts parts.length) := by
      simp [rules, hfour]
    rw [hrules]
    split
    · exact absurd rfl hfour
    · simp

/-! ## All texts -/

/-- The text of three fields. -/
def shown (traceId spanId flags : String) : String := "00-" ++ traceId ++ "-" ++ spanId ++ "-" ++ flags

/-- **What is read, what is written and what is refused.** -/
theorem reads_shown :
    (∀ text, (∃ t, parse text = .ok t) ↔ ∃ traceId spanId flags,
      IsField 32 traceId.toList ∧ (∃ c ∈ traceId.toList, c ≠ '0') ∧
      IsField 16 spanId.toList ∧ (∃ c ∈ spanId.toList, c ≠ '0') ∧
      IsField 2 flags.toList ∧ text = shown traceId spanId flags) ∧
    (∀ text t, parse text = .ok t → t.traceparent = text ∧ t.traceState = none) ∧
    (∀ t : TraceContext, t.WellFormed → parse t.traceparent = .ok { t with traceState := none }) ∧
    ∀ text e, parse text = .error e ↔ firstFault text = some e := by
  refine ⟨fun text => ⟨?_, ?_⟩, fun text t h => ?_, fun t h => ?_, fun text e => parse_eq_error_iff⟩
  · rintro ⟨t, h⟩
    obtain ⟨hwf, -, rfl⟩ := parse_eq_ok_iff.1 h
    refine ⟨t.traceId, t.spanId, t.traceFlags, hwf.traceId, hwf.traceId_ne, hwf.spanId, hwf.spanId_ne,
      hwf.traceFlags, ?_⟩
    simp [traceparent, shown, hwf.version_eq, String.append_assoc]
  · rintro ⟨traceId, spanId, flags, htrace, htrace_ne, hspan, hspan_ne, hflags, rfl⟩
    refine ⟨⟨"00", traceId, spanId, flags, none⟩, parse_eq_ok_iff.2
      ⟨⟨rfl, htrace, htrace_ne, hspan, hspan_ne, hflags⟩, rfl, ?_⟩⟩
    simp [traceparent, shown, String.append_assoc]
  · obtain ⟨-, hstate, htext⟩ := parse_eq_ok_iff.1 h
    exact ⟨htext.symm, hstate⟩
  · exact parse_eq_ok_iff.2 ⟨⟨h.version_eq, h.traceId, h.traceId_ne, h.spanId, h.spanId_ne,
      h.traceFlags⟩, rfl, rfl⟩

end TraceContext
end HealthService
