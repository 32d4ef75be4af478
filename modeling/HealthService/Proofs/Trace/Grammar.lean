import HealthService.Proofs.Json.Scalars
import HealthService.Trace

/-!
# The form of a traceparent

A traceparent is well formed if it has version `00` and three fields of lower-case hexadecimal digits:
32 for the trace, 16 for the span, which are not all zero, and two flags.

* `checkField_eq_ok_iff` — what a field has to be.
* `parse_eq_ok_iff` — **what is read are exactly the well-formed texts**, each as the context that is
  written so.
* `wellFormed_generate`, `WellFormed.withSpan` — new traces, and new spans in a trace, are well formed.
-/

namespace HealthService
namespace TraceContext

/-! ## Fields -/

/-- A field of so many lower-case hexadecimal digits. -/
structure IsField (length : Nat) (cs : List Char) : Prop where
  length_eq : cs.length = length
  hex : ∀ c ∈ cs, isHex c = true

/-- A context whose traceparent is well formed. -/
structure WellFormed (t : TraceContext) : Prop where
  version_eq : t.version = "00"
  traceId : IsField 32 t.traceId.toList
  traceId_ne : ∃ c ∈ t.traceId.toList, c ≠ '0'
  spanId : IsField 16 t.spanId.toList
  spanId_ne : ∃ c ∈ t.spanId.toList, c ≠ '0'
  traceFlags : IsField 2 t.traceFlags.toList

/-- Digits lie between `0` and `f`. -/
theorem isHex_range {c : Char} (h : isHex c = true) : 0x30 ≤ c.toNat ∧ c.toNat ≤ 0x66 := by
  simp only [isHex, Bool.or_eq_true, Bool.and_eq_true, decide_eq_true_eq, Char.le_def,
    UInt32.le_iff_toNat_le] at h
  rcases h with ⟨hle, hge⟩ | ⟨hle, hge⟩
  · exact ⟨hle, le_trans hge (by decide)⟩
  · exact ⟨le_trans (by decide) hle, hge⟩

theorem length_encode_of_hex {cs : List Char} (h : ∀ c ∈ cs, isHex c = true) :
    (Utf8.encode cs).length = cs.length := by
  induction cs with
  | nil => rfl
  | cons c cs ih =>
    rw [List.forall_mem_cons] at h
    have hbyte : c.toNat < 0x80 := (isHex_range h.1).2.trans_lt (by decide)
    rw [Utf8.encode_cons, Utf8.encodeChar_of_lt hbyte, List.length_append, ih h.2]
    exact Nat.add_comm _ _

theorem IsField.dash_notMem {length : Nat} {cs : List Char} (h : IsField length cs) : '-' ∉ cs :=
  fun hmem => absurd (isHex_range (h.hex _ hmem)).1 (by decide)

theorem isField_pair {s : String} {c d : Char} (hs : s.toList = [c, d]) (hc : isHex c = true)
    (hd : isHex d = true) : IsField 2 s.toList := by
  rw [hs]
  refine ⟨rfl, ?_⟩
  simp [hc, hd]

/-- **What a field has to be.** -/
theorem checkField_eq_ok_iff {name : String} {length : Nat} {zeroAllowed : Bool} {cs : List Char} :
    checkField name length zeroAllowed cs = .ok () ↔
      IsField length cs ∧ (zeroAllowed = false → ∃ c ∈ cs, c ≠ '0') := by
  have hzeros : (!zeroAllowed && cs.all (· = '0')) = true ↔
      ¬ (zeroAllowed = false → ∃ c ∈ cs, c ≠ '0') := by
    cases zeroAllowed <;> simp
  constructor
  · intro h
    unfold checkField at h
    split at h
    · cases h
    rename_i hlength
    split at h
    · cases h
    rename_i hhex
    split at h
    · cases h
    rename_i hne
    rw [hzeros, not_not] at hne
    rw [Bool.not_eq_true', Bool.not_eq_false, List.all_eq_true] at hhex
    rw [not_not, length_encode_of_hex hhex] at hlength
    exact ⟨⟨hlength, hhex⟩, hne⟩
  · rintro ⟨⟨hlength, hhex⟩, hne⟩
    rw [checkField, length_encode_of_hex hhex, if_neg (not_not_intro hlength),
      if_neg (by simpa using hhex), if_neg (hzeros.not.2 (not_not_intro hne))]

/-! ## Reading and writing -/

theorem splitDashes_ne_nil (s : List Char) : splitDashes s ≠ [] := by
  induction s with
  | nil => simp [splitDashes]
  | cons c s ih =>
    rw [splitDashes]
    split
    · simp
    · split <;> simp

theorem splitDashes_of_notMem {s : List Char} (h : '-' ∉ s) : splitDashes s = [s] := by
  induction s with
  | nil => rfl
  | cons c s ih =>
    rw [List.mem_cons, not_or] at h
    rw [splitDashes, if_neg (Ne.symm h.1), ih h.2]

theorem splitDashes_append {a : List Char} (s : List Char) (h : '-' ∉ a) :
    splitDashes (a ++ '-' :: s) = a :: splitDashes s := by
  induction a with
  | nil => rw [List.nil_append, splitDashes, if_pos rfl]
  | cons c a ih =>
    rw [List.mem_cons, not_or] at h
    rw [List.cons_append, splitDashes, if_neg (Ne.symm h.1), ih h.2]

/-- A text is its pieces with dashes in between. -/
theorem intercalate_splitDashes (s : List Char) : ['-'].intercalate (splitDashes s) = s := by
  induction s with
  | nil => rfl
  | cons c s ih =>
    cases hs : splitDashes s with
    | nil => exact absurd hs (splitDashes_ne_nil s)
    | cons p ps =>
      rw [hs] at ih
      rw [splitDashes, hs]
      split
      · rename_i hc
        rw [hc]
        conv_rhs => rw [← ih]
        rfl
      · conv_rhs => rw [← ih]
        cases ps <;> rfl

/-- The text of a context, as a list of characters. -/
theorem toList_traceparent (t : TraceContext) : t.traceparent.toList =
    t.version.toList ++ '-' :: (t.traceId.toList ++ '-' :: (t.spanId.toList ++ '-' ::
      t.traceFlags.toList)) := by
  simp [traceparent]

/-- A well-formed context has four pieces. -/
theorem WellFormed.splitDashes_eq {t : TraceContext} (h : t.WellFormed) :
    splitDashes t.traceparent.toList =
      [['0', '0'], t.traceId.toList, t.spanId.toList, t.traceFlags.toList] := by
  rw [toList_traceparent, h.version_eq, splitDashes_append _ (by decide),
    splitDashes_append _ h.traceId.dash_notMem, splitDashes_append _ h.spanId.dash_notMem,
    splitDashes_of_notMem h.traceFlags.dash_notMem]
  rfl

/-- Four pieces are read if the version is known and the fields are in order. -/
theorem parse_pieces {text : String} {version traceId spanId flags : List Char}
    (hsplit : splitDashes text.toList = [version, traceId, spanId, flags]) (t : TraceContext) :
    parse text = .ok t ↔ version = ['0', '0'] ∧ checkField "trace-id" 32 false traceId = .ok () ∧
      checkField "span-id" 16 false spanId = .ok () ∧ checkField "trace-flags" 2 true flags = .ok () ∧
      TraceContext.mk (String.ofList version) (String.ofList traceId) (String.ofList spanId)
        (String.ofList flags) none = t := by
  rw [parse, hsplit]
  dsimp only
  by_cases hversion : version = ['0', '0']
  · rw [if_neg (not_not_intro hversion)]
    rcases checkField "trace-id" 32 false traceId with e | ⟨⟩ <;>
      rcases checkField "span-id" 16 false spanId with e | ⟨⟩ <;>
        rcases checkField "trace-flags" 2 true flags with e | ⟨⟩ <;>
          simp [bind, Except.bind, hversion]
  · rw [if_pos hversion]
    simp [hversion]

/-- **What is read are exactly the well-formed texts**, each as the context that is written so. -/
theorem parse_eq_ok_iff {text : String} {t : TraceContext} : parse text = .ok t ↔
    t.WellFormed ∧ t.traceState = none ∧ text = t.traceparent := by
  constructor
  · intro h
    have hparts : ∃ version traceId spanId flags,
        splitDashes text.toList = [version, traceId, spanId, flags] := by
      unfold parse at h
      split at h
      · exact ⟨_, _, _, _, ‹_›⟩
      · cases h
    obtain ⟨version, traceId, spanId, flags, hsplit⟩ := hparts
    obtain ⟨rfl, htrace, hspan, hflags, rfl⟩ := (parse_pieces hsplit t).1 h
    rw [checkField_eq_ok_iff] at htrace hspan hflags
    refine ⟨⟨rfl, ?_, ?_, ?_, ?_, ?_⟩, rfl, ?_⟩
    · simpa using htrace.1
    · simpa using htrace.2
    · simpa using hspan.1
    · simpa using hspan.2
    · simpa using hflags.1
    · rw [← String.toList_inj, toList_traceparent, ← intercalate_splitDashes text.toList, hsplit]
      simp [List.intercalate]
  · rintro ⟨h, hstate, rfl⟩
    refine (parse_pieces h.splitDashes_eq t).2 ⟨rfl, ?_, ?_, ?_, ?_⟩
    · exact checkField_eq_ok_iff.2 ⟨h.traceId, fun _ => h.traceId_ne⟩
    · exact checkField_eq_ok_iff.2 ⟨h.spanId, fun _ => h.spanId_ne⟩
    · exact checkField_eq_ok_iff.2 ⟨h.traceFlags, nofun⟩
    · obtain ⟨version, traceId, spanId, flags, state⟩ := t
      obtain rfl : version = "00" := h.version_eq
      obtain rfl : state = none := hstate
      simp

/-- A well-formed context can be read back from its text, but for its state. -/
theorem WellFormed.parse_traceparent {t : TraceContext} (h : t.WellFormed) :
    parse t.traceparent = .ok { t with traceState := none } := by
  have hplain : WellFormed { t with traceState := none } :=
    ⟨h.version_eq, h.traceId, h.traceId_ne, h.spanId, h.spanId_ne, h.traceFlags⟩
  exact parse_eq_ok_iff.2 ⟨hplain, rfl, rfl⟩

/-! ## New ids -/

theorem isHex_digitChar : ∀ n < 16, isHex (Nat.digitChar n) = true ∧
    (Nat.digitChar n = '0' → n = 0) := by
  decide

/-- Numbers are written with so many digits. -/
theorem isField_hex (width n : Nat) : IsField width (hex width n) := by
  induction width generalizing n with
  | zero => exact ⟨rfl, by simp [hex]⟩
  | succ width ih =>
    refine ⟨by simp [hex, (ih _).length_eq], fun c hc => ?_⟩
    rcases List.mem_append.1 hc with hc | hc
    · exact (ih _).hex c hc
    · rw [List.mem_singleton.1 hc]
      exact (isHex_digitChar _ (Nat.mod_lt _ (by decide))).1

/-- A number that is not zero has a digit that is not, if there are enough of them. -/
theorem exists_digit_ne {width n : Nat} (hne : n ≠ 0) (hlt : n < Nat.pow 16 width) :
    ∃ c ∈ hex width n, c ≠ '0' := by
  induction width generalizing n with
  | zero => exact absurd (Nat.lt_one_iff.1 hlt) hne
  | succ width ih =>
    by_cases hlast : n % 16 = 0
    · obtain ⟨c, hc, hdigit⟩ := ih (n := n / 16) (by omega)
        (Nat.div_lt_of_lt_mul (by rwa [Nat.mul_comm]))
      exact ⟨c, List.mem_append_left _ hc, hdigit⟩
    · refine ⟨_, List.mem_append_right _ (List.mem_singleton_self _), fun h => hlast ?_⟩
      exact (isHex_digitChar _ (Nat.mod_lt _ (by decide))).2 h

theorem Draw.isField_spanId (d : Draw) : IsField 16 d.spanId.toList := by
  rw [Draw.spanId, String.toList_ofList]
  exact isField_hex 16 _

theorem Draw.spanId_ne (d : Draw) : ∃ c ∈ d.spanId.toList, c ≠ '0' := by
  rw [Draw.spanId, String.toList_ofList]
  refine exists_digit_ne (fun h => d.span_ne_zero (UInt64.toNat_inj.1 h)) ?_
  exact d.span.toNat_lt.trans_le (by decide)

theorem Draw.isField_traceId (d : Draw) : IsField 32 d.traceId.toList := by
  rw [Draw.traceId, String.toList_ofList]
  refine ⟨?_, fun c hc => ?_⟩
  · rw [List.length_append, (isField_hex 16 _).length_eq, (isField_hex 16 _).length_eq]
  · rcases List.mem_append.1 hc with hc | hc
    · exact (isField_hex 16 _).hex c hc
    · exact (isField_hex 16 _).hex c hc

/-- A new trace id is not zero, because of the bits that tell how it was made. -/
theorem Draw.traceId_ne (d : Draw) : ∃ c ∈ d.traceId.toList, c ≠ '0' := by
  rw [Draw.traceId, String.toList_ofList]
  have hlt : 0x8000000000000000 + d.low.toNat % 0x4000000000000000 < Nat.pow 16 16 :=
    lt_of_lt_of_le (Nat.add_lt_add_left (Nat.mod_lt _ (by decide)) _) (by decide)
  obtain ⟨c, hc, hne⟩ := exists_digit_ne (by omega) hlt
  exact ⟨c, List.mem_append_right _ hc, hne⟩

/-- A new span keeps a context well formed. -/
theorem WellFormed.withSpan {t : TraceContext} (h : t.WellFormed) (d : Draw) (state : Option String) :
    WellFormed { t with spanId := d.spanId, traceState := state } :=
  ⟨h.version_eq, h.traceId, h.traceId_ne, d.isField_spanId, d.spanId_ne, h.traceFlags⟩

/-- A new trace is well formed. -/
theorem wellFormed_generate (d : Draw) : (generate d).WellFormed := by
  have hsampled : IsField 2 "01".toList := isField_pair rfl rfl rfl
  exact ⟨rfl, d.isField_traceId, d.traceId_ne, d.isField_spanId, d.spanId_ne, hsampled⟩

end TraceContext
end HealthService
