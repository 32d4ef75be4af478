import HealthService.Proofs.Http.Texts
import HealthService.Proofs.Trace.Grammar

/-!
# Traces that go on and traces that begin

The headers of a request may bring several traceparents and tracestates, and any of them may be no text.
Only the first traceparent counts, and if it is not in order, no tracestate counts either.

* `Draw.ofDrawn?_eq_some_iff` — zeros are drawn again until there is a span id.
* `hex_eq_leftpad` — an id of fixed width is a number in base sixteen, padded with zeros.
* `Draw.toList_traceId` — a new trace id is what has been drawn, but for its version and its variant.
* `continues_or_begins` — **what the trace context of a request is and what is logged about it**, for
  all headers and all that chance may bring.
-/

namespace HealthService
namespace TraceContext

/-! ## What is drawn -/

/-- Zeros are drawn again: the span id is the first word that is not zero. -/
theorem Draw.ofDrawn?_eq_some_iff {high low : UInt64} {words : List UInt64} {d : Draw} :
    Draw.ofDrawn? high low words = some d ↔
      d.high = high ∧ d.low = low ∧ words.find? (· ≠ 0) = some d.span := by
  induction words with
  | nil => simp [Draw.ofDrawn?]
  | cons word words ih =>
    rw [Draw.ofDrawn?]
    by_cases hzero : word = 0
    · rw [dif_pos hzero, ih, List.find?_cons_of_neg (by simpa using hzero)]
    · rw [dif_neg hzero, List.find?_cons_of_pos (by simpa using hzero)]
      obtain ⟨high', low', span, hspan⟩ := d
      simp only [Option.some.injEq, Draw.mk.injEq]
      constructor
      · rintro ⟨rfl, rfl, rfl⟩
        exact ⟨rfl, rfl, rfl⟩
      · rintro ⟨rfl, rfl, rfl⟩
        exact ⟨rfl, rfl, rfl⟩

/-- The drawing goes on just while there are only zeros. -/
theorem Draw.ofDrawn?_eq_none_iff {high low : UInt64} {words : List UInt64} :
    Draw.ofDrawn? high low words = none ↔ ∀ word ∈ words, word = 0 := by
  induction words with
  | nil => simp [Draw.ofDrawn?]
  | cons word words ih =>
    rw [Draw.ofDrawn?, List.forall_mem_cons]
    by_cases hzero : word = 0
    · rw [dif_pos hzero, ih]
      simp [hzero]
    · rw [dif_neg hzero]
      simp [hzero]

/-! ## Digits -/

/-- The first digits of a number and its last ones. -/
theorem hex_add (width k n : Nat) : hex (width + k) n = hex width (n / Nat.pow 16 k) ++ hex k n := by
  induction k generalizing n with
  | zero => simp [hex]
  | succ k ih =>
    have hdiv : n / 16 / Nat.pow 16 k = n / Nat.pow 16 (k + 1) := by
      rw [Nat.div_div_eq_div_mul, Nat.mul_comm]
      rfl
    rw [Nat.add_succ, hex, ih, hdiv, hex, List.append_assoc]

/-- The last digits of a number do not depend on the first ones. -/
theorem hex_mod (k n : Nat) : hex k (n % Nat.pow 16 k) = hex k n := by
  induction k generalizing n with
  | zero => rfl
  | succ k ih =>
    have hdiv : n % Nat.pow 16 (k + 1) / 16 = n / 16 % Nat.pow 16 k := by
      rw [show Nat.pow 16 (k + 1) = 16 * Nat.pow 16 k from Nat.mul_comm _ _, Nat.mod_mul_right_div_self]
    have hmod : n % Nat.pow 16 (k + 1) % 16 = n % 16 :=
      Nat.mod_mod_of_dvd n ⟨Nat.pow 16 k, Nat.mul_comm _ _⟩
    rw [hex, hex, hdiv, hmod, ih]

theorem hex_zero (width : Nat) : hex width 0 = List.replicate width '0' := by
  induction width with
  | zero => rfl
  | succ width ih =>
    rw [hex, ih, List.replicate_succ']
    rfl

/-- **An id of fixed width is a number in base sixteen, padded with zeros.** -/
theorem hex_eq_leftpad {width n : Nat} (hwidth : 0 < width) (hlt : n < Nat.pow 16 width) :
    hex width n = (Nat.toDigits 16 n).leftpad width '0' := by
  induction width generalizing n with
  | zero => exact absurd hwidth (Nat.lt_irrefl 0)
  | succ width ih =>
    rw [hex, Nat.toDigits_eq_if (by decide)]
    by_cases hdigit : n < 16
    · -- a single digit, and all before it is padding
      rw [if_pos hdigit, Nat.div_eq_of_lt hdigit, Nat.mod_eq_of_lt hdigit, hex_zero]
      simp [List.leftpad]
    · have hpos : 0 < width := by
        rcases Nat.eq_zero_or_pos width with rfl | hpos
        · exact absurd hlt hdigit
        · exact hpos
      have hquotient : n / 16 < Nat.pow 16 width :=
        Nat.div_lt_of_lt_mul (by rwa [Nat.mul_comm])
      rw [if_neg hdigit, ih hpos hquotient]
      simp [List.leftpad]

/-- The text of a span id, as its digits. -/
theorem Draw.toList_spanId (d : Draw) :
    d.spanId.toList = (Nat.toDigits 16 d.span.toNat).leftpad 16 '0' := by
  rw [Draw.spanId, String.toList_ofList]
  exact hex_eq_leftpad (by decide) (d.span.toNat_lt.trans_le (by decide))

/-- A random id of version 4: the version is the digit after twelve, and the variant, which is one of four, is
the digit after sixteen. -/
structure IsVersionFour (cs : List Char) : Prop where
  isField : IsField 32 cs
  version : cs[12]? = some '4'
  variant : ∃ c ∈ ['8', '9', 'a', 'b'], cs[16]? = some c

theorem digitChar_variant : ∀ n < 4, Nat.digitChar (8 + n) ∈ ['8', '9', 'a', 'b'] := by
  decide

/-- The last digits of two numbers agree if the numbers do so far. -/
theorem hex_congr {k n n' : Nat} (h : n % Nat.pow 16 k = n' % Nat.pow 16 k) : hex k n = hex k n' := by
  rw [← hex_mod, h, hex_mod]

/-- **A new trace id is what has been drawn, but for its version and its variant.** -/
theorem Draw.toList_traceId (d : Draw) : ∃ variant ∈ ['8', '9', 'a', 'b'],
    d.traceId.toList = hex 12 (d.high.toNat / 65536) ++ '4' :: hex 3 d.high.toNat ++
      variant :: hex 15 d.low.toNat := by
  have hhigh (n : Nat) : hex 16 (n / 65536 * 65536 + 0x4000 + n % 4096) =
      hex 12 (n / 65536) ++ '4' :: hex 3 n := by
    have hfirst : (n / 65536 * 65536 + 0x4000 + n % 4096) / 65536 = n / 65536 := by omega
    have hversion : (n / 65536 * 65536 + 0x4000 + n % 4096) / 4096 % 16 = 4 := by omega
    have hlast : (n / 65536 * 65536 + 0x4000 + n % 4096) % 4096 = n % 4096 := by omega
    rw [hex_add 12 4, hex_add 1 3, hex_congr (k := 3) hlast]
    rw [show Nat.pow 16 4 = 65536 from rfl, show Nat.pow 16 3 = 4096 from rfl, hfirst]
    simp only [hex, hversion, List.nil_append]
    rfl
  have hlow (n : Nat) : hex 16 (0x8000000000000000 + n % 0x4000000000000000) =
      Nat.digitChar (8 + n / 0x1000000000000000 % 4) :: hex 15 n := by
    have hvariant : (0x8000000000000000 + n % 0x4000000000000000) / 0x1000000000000000 % 16 =
        8 + n / 0x1000000000000000 % 4 := by omega
    have hlast : (0x8000000000000000 + n % 0x4000000000000000) % 0x1000000000000000 =
        n % 0x1000000000000000 := by omega
    rw [hex_add 1 15, hex_congr (k := 15) hlast, show Nat.pow 16 15 = 0x1000000000000000 from rfl]
    simp only [hex, hvariant, List.nil_append]
    rfl
  refine ⟨_, digitChar_variant (d.low.toNat / 0x1000000000000000 % 4) (Nat.mod_lt _ (by decide)), ?_⟩
  rw [Draw.traceId, String.toList_ofList, hhigh, hlow]

theorem Draw.isVersionFour (d : Draw) : IsVersionFour d.traceId.toList := by
  obtain ⟨variant, hvariant, hdigits⟩ := d.toList_traceId
  have hlength (k n : Nat) : (hex k n).length = k := (isField_hex k n).length_eq
  refine ⟨d.isField_traceId, ?_, variant, hvariant, ?_⟩ <;> simp [hdigits, hlength]

/-! ## The trace of a request -/

/-- What the first traceparent says, if there is one and it is a text. -/
def said (h : Headers) : Option (Except TraceparentError TraceContext) :=
  ((h.values "traceparent").head?.bind Headers.text?).map parse

/-- What is logged about what a traceparent says: a text that is not in order is ignored. -/
def remark : Option (Except TraceparentError TraceContext) → List Entry
  | some (.error e) => [⟨.invalidTraceparent e.message, []⟩]
  | _ => []

variable {h : Headers} {p : TraceContext}

theorem parent_eq (h : Headers) : parent h = ((said h).bind Except.toOption, remark (said h)) := by
  unfold parent said
  rw [Headers.firstText?, Headers.first?_eq_head?]
  rcases (h.values "traceparent").head?.bind Headers.text? with _ | text
  · rfl
  · cases hparse : parse text with
    | ok t => simp [hparse, remark, Except.toOption]
    | error e => simp [hparse, remark, Except.toOption]

/-- A traceparent in order says what it says in a well-formed context without a state. -/
theorem wellFormed_of_said (hsaid : said h = some (.ok p)) : p.WellFormed := by
  obtain ⟨text, -, hparse⟩ := Option.map_eq_some_iff.1 hsaid
  exact (parse_eq_ok_iff.1 hparse).1

theorem ofHeaders_of_said (hsaid : said h = some (.ok p)) (d : Draw) :
    ofHeaders h d = ({ p with spanId := d.spanId, traceState := stateOf h }, []) := by
  rw [ofHeaders, parent_eq, hsaid]
  rfl

theorem ofHeaders_of_not_said (hsaid : ∀ p, said h ≠ some (.ok p)) (d : Draw) :
    ofHeaders h d = (generate d, remark (said h)) := by
  have hnone : (said h).bind Except.toOption = none := by
    rcases hs : said h with _ | _ | p
    · rfl
    · rfl
    · exact absurd hs (hsaid p)
  rw [ofHeaders, parent_eq, hnone]

/-- The state is the one line that there is, if that is a text and not empty. -/
theorem stateOf_of_lone (hlone : (h.values "tracestate").length ≤ 1) {s : String} :
    stateOf h = some s ↔
      ∃ value, h.values "tracestate" = [value] ∧ Headers.text? value = some s ∧ s ≠ "" := by
  rw [stateOf, Headers.firstText?, Headers.first?_eq_head?, Option.filter_eq_some_iff]
  match hvalues : h.values "tracestate", hlone with
  | [], _ => simp
  | [value], _ => simp

/-- A trace goes on: its id and its flags stay. It has the state of the only line, if there is one that is
a text and not empty; where there are several lines, nothing is said about the state. -/
structure GoesOn (t p : TraceContext) (h : Headers) : Prop where
  traceId : t.traceId = p.traceId
  traceFlags : t.traceFlags = p.traceFlags
  traceState : (h.values "tracestate").length ≤ 1 → ∀ s, t.traceState = some s ↔
    ∃ value, h.values "tracestate" = [value] ∧ Headers.text? value = some s ∧ s ≠ ""

/-- A trace begins: its id is drawn, it is sampled and it has no state. -/
structure Begins (t : TraceContext) (d : Draw) : Prop where
  traceId : t.traceId = d.traceId
  isVersionFour : IsVersionFour t.traceId.toList
  traceFlags : t.traceFlags = "01"
  traceState : t.traceState = none

/-- The span id is a word, in sixteen digits that are not all zero. -/
structure IsSpanOf (spanId : String) (word : UInt64) : Prop where
  digits : spanId.toList = (Nat.toDigits 16 word.toNat).leftpad 16 '0'
  isField : IsField 16 spanId.toList
  ne_zeros : ∃ c ∈ spanId.toList, c ≠ '0'

theorem Draw.isSpanOf (d : Draw) : IsSpanOf d.spanId d.span :=
  ⟨d.toList_spanId, d.isField_spanId, d.spanId_ne⟩

theorem wellFormed_ofHeaders (h : Headers) (d : Draw) : (ofHeaders h d).1.WellFormed := by
  by_cases hsaid : ∃ p, said h = some (.ok p)
  · obtain ⟨p, hp⟩ := hsaid
    rw [ofHeaders_of_said hp]
    exact (wellFormed_of_said hp).withSpan d _
  · rw [ofHeaders_of_not_said (not_exists.1 hsaid)]
    exact wellFormed_generate d

theorem spanId_ofHeaders (h : Headers) (d : Draw) : (ofHeaders h d).1.spanId = d.spanId := by
  unfold ofHeaders
  split <;> rfl

theorem remark_ofHeaders (h : Headers) (d : Draw) : (ofHeaders h d).2 = remark (said h) := by
  by_cases hsaid : ∃ p, said h = some (.ok p)
  · obtain ⟨p, hp⟩ := hsaid
    rw [ofHeaders_of_said hp, hp]
    rfl
  · rw [ofHeaders_of_not_said (not_exists.1 hsaid)]

theorem exists_mem_remark_iff (verdict : Option (Except TraceparentError TraceContext)) :
    (∃ entry ∈ remark verdict, entry.event.message = "ignoring invalid traceparent") ↔
      ∃ e, verdict = some (.error e) := by
  constructor
  · rintro ⟨entry, hentry, -⟩
    unfold remark at hentry
    split at hentry
    · exact ⟨_, rfl⟩
    · cases hentry
  · rintro ⟨e, rfl⟩
    exact ⟨_, List.mem_singleton_self _, rfl⟩

/-- **What the trace context of a request is and what is logged about it**, for all headers and all that
chance may bring.

* The drawing goes on while there are only zeros. The span id is the first word that is not zero.
* The context can be read back from its text.
* If the first traceparent is in order, its trace goes on; in every other case a trace begins.
* A first traceparent that is a text but not in order is logged, and nothing else is. -/
theorem continues_or_begins (h : Headers) (high low : UInt64) (words : List UInt64) :
    (Draw.ofDrawn? high low words = none ↔ ∀ word ∈ words, word = 0) ∧
    ∀ d, Draw.ofDrawn? high low words = some d → ∀ t entries, ofHeaders h d = (t, entries) →
      (∃ word, words.find? (· ≠ 0) = some word ∧ IsSpanOf t.spanId word) ∧
      parse t.traceparent = .ok { t with traceState := none } ∧
      (match said h with
        | some (.ok p) => GoesOn t p h
        | _ => Begins t d) ∧
      entries = remark (said h) ∧
      ((∃ entry ∈ entries, entry.event.message = "ignoring invalid traceparent") ↔
        ∃ e, said h = some (.error e)) := by
  refine ⟨Draw.ofDrawn?_eq_none_iff, ?_⟩
  intro d hdrawn t entries hcontext
  obtain ⟨-, -, hspan⟩ := Draw.ofDrawn?_eq_some_iff.1 hdrawn
  obtain rfl : (ofHeaders h d).1 = t := congrArg Prod.fst hcontext
  obtain rfl : (ofHeaders h d).2 = entries := congrArg Prod.snd hcontext
  rw [remark_ofHeaders]
  refine ⟨⟨d.span, hspan, ?_⟩, (wellFormed_ofHeaders h d).parse_traceparent, ?_, rfl,
    exists_mem_remark_iff _⟩
  · rw [spanId_ofHeaders]
    exact d.isSpanOf
  · split
    · rename_i p hsaid
      rw [ofHeaders_of_said hsaid]
      exact ⟨rfl, rfl, fun hlone s => stateOf_of_lone hlone⟩
    · rename_i hsaid
      rw [ofHeaders_of_not_said hsaid]
      exact ⟨rfl, d.isVersionFour, rfl, rfl⟩

end TraceContext
end HealthService
