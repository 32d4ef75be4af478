import HealthService.Proofs.Json.Ordered
import HealthService.Proofs.Json.Scalars

/-!
# How far readers read

A reader that succeeds has read some part of the text, and what it makes of that part does not depend on
what follows (`Spans`), unless that would go on with a number.

* `spans_readText` — **a string literal**.
* `spans_readNumber` — **a number**, up to what stops it.
* `spans_readHead` — so is any value without parts.
-/

namespace HealthService.Json

/-- Blanks between the parts of a document. -/
def Blanks (ws : Bytes) : Prop := ∀ b ∈ ws, Blank.isJsonByte b = true

/-- A part of a document, which begins with its first byte that is no blank. -/
def Begins (t : Bytes) : Prop := ∃ c t', t = c :: t' ∧ Blank.isJsonByte c = false

/-- From a text a reader gets to a rest and reads something on the way, and it reads the same before any
other rest of some kind. -/
def Spans {α : Type} (P : Bytes → Prop) (read : Bytes → Except Fault (α × Bytes)) (b : Bytes) (a : α)
    (r : Bytes) : Prop :=
  ∃ t, b = t ++ r ∧ ∀ r', P r' → read (t ++ r') = .ok (a, r')

/-! ## Blanks -/

theorem skipBlank_append {ws : Bytes} (h : Blanks ws) (b : Bytes) : skipBlank (ws ++ b) = skipBlank b := by
  induction ws with
  | nil => rfl
  | cons w ws ih =>
    obtain ⟨hw, hws⟩ := List.forall_mem_cons.1 h
    rw [List.cons_append, skipBlank, List.dropWhile_cons_of_pos hw]
    exact ih hws

theorem skipBlank_of_not {c : UInt8} (h : Blank.isJsonByte c = false) (rest : Bytes) :
    skipBlank (c :: rest) = c :: rest := by
  rw [skipBlank, List.dropWhile_cons_of_neg (by simp [h])]

/-- What is left after blanks does not begin with one. -/
theorem blanks_of_skipBlank {b rest : Bytes} {c : UInt8} (h : skipBlank b = c :: rest) :
    ∃ ws, Blanks ws ∧ b = ws ++ c :: rest ∧ Blank.isJsonByte c = false := by
  induction b with
  | nil => cases h
  | cons x b ih =>
    by_cases hx : Blank.isJsonByte x = true
    · rw [skipBlank, List.dropWhile_cons_of_pos hx] at h
      obtain ⟨ws, hws, rfl, hc⟩ := ih h
      exact ⟨x :: ws, List.forall_mem_cons.2 ⟨hx, hws⟩, rfl, hc⟩
    · rw [Bool.not_eq_true] at hx
      rw [skipBlank_of_not hx] at h
      obtain ⟨rfl, rfl⟩ := List.cons.inj h
      exact ⟨[], by simp [Blanks], rfl, hx⟩

theorem Blanks.append {ws ws' : Bytes} (h : Blanks ws) (h' : Blanks ws') : Blanks (ws ++ ws') :=
  List.forall_mem_append.2 ⟨h, h'⟩

@[simp] theorem blanks_nil : Blanks [] := List.forall_mem_nil _

theorem Begins.append {t : Bytes} (h : Begins t) (b : Bytes) : Begins (t ++ b) := by
  obtain ⟨c, t', rfl, hc⟩ := h
  exact ⟨c, t' ++ b, rfl, hc⟩

theorem Begins.ne_nil {t : Bytes} (h : Begins t) : t ≠ [] := by
  obtain ⟨c, t', rfl, -⟩ := h
  exact List.cons_ne_nil c t'

/-- What begins a part is not skipped. -/
theorem Begins.skipBlank {t : Bytes} (h : Begins t) : skipBlank t = t := by
  obtain ⟨c, t', rfl, hc⟩ := h
  exact skipBlank_of_not hc t'

/-! ## Words -/

theorem readWord_eq_ok_iff {w b r : Bytes} : readWord w b = .ok r ↔ b = w ++ r := by
  induction w generalizing b with
  | nil => simp [readWord]
  | cons x w ih =>
    cases b with
    | nil => simp [readWord, fault]
    | cons c b =>
      rw [readWord]
      split
      · rename_i hc
        rw [ih, hc]
        simp
      · rename_i hc
        simp [fault, hc]

/-! ## String literals -/

theorem spans_readHex {b r : Bytes} {n : Nat} (h : readHex b = .ok (n, r)) :
    Spans (fun _ => True) readHex b n r := by
  unfold readHex at h
  split at h
  · rename_i x y z u rest
    split at h
    · rename_i hx hy hz hu
      obtain ⟨hn, rfl⟩ := Prod.mk.inj (Except.ok.inj h)
      refine ⟨[x, y, z, u], rfl, fun r' _ => ?_⟩
      show readHex (x :: y :: z :: u :: r') = _
      rw [readHex]
      simp only [hx, hy, hz, hu, hn]
    · cases h
  · cases h

theorem spans_readLowSurrogate {high : Nat} {b r : Bytes} {c : Char}
    (h : readLowSurrogate high b = .ok (c, r)) : Spans (fun _ => True) (readLowSurrogate high) b c r := by
  unfold readLowSurrogate at h
  split at h
  · cases h
  · rename_i x rest
    split at h
    · cases h
    · rename_i hx
      split at h
      · cases h
      · rename_i u rest
        split at h
        · cases h
        · rename_i hu
          obtain ⟨⟨n, rest'⟩, hhex, h⟩ := bind_eq_ok_iff.1 h
          dsimp only at h
          split at h
          · rename_i hlow
            obtain ⟨hc, rfl⟩ := Prod.mk.inj (Except.ok.inj h)
            obtain ⟨t, rfl, hread⟩ := spans_readHex hhex
            refine ⟨x :: u :: t, rfl, fun r' _ => ?_⟩
            rw [List.cons_append, List.cons_append, readLowSurrogate, if_neg hx]
            dsimp only
            rw [if_neg hu]
            show (readHex (t ++ r')).bind _ = _
            rw [hread r' trivial]
            dsimp only [Except.bind]
            rw [if_pos hlow, hc]
          · cases h

theorem spans_readUnicodeEscape {b r : Bytes} {c : Char} (h : readUnicodeEscape b = .ok (c, r)) :
    Spans (fun _ => True) readUnicodeEscape b c r := by
  obtain ⟨⟨n, rest⟩, hhex, hrest⟩ := bind_eq_ok_iff.1 h
  dsimp only at hrest
  obtain ⟨t, rfl, hread⟩ := spans_readHex hhex
  have hbind : ∀ s r', readUnicodeEscape (t ++ (s ++ r')) =
      if isLowSurrogate n then fault .loneSurrogate (s ++ r')
      else if isHighSurrogate n then readLowSurrogate n (s ++ r')
      else .ok (Char.ofNat n, s ++ r') := by
    intro s r'
    show (readHex _).bind _ = _
    rw [hread _ trivial]
    rfl
  split at hrest
  · cases hrest
  · rename_i hlow
    split at hrest
    · rename_i hhigh
      obtain ⟨u, rfl, hread'⟩ := spans_readLowSurrogate hrest
      refine ⟨t ++ u, (List.append_assoc ..).symm, fun r' _ => ?_⟩
      rw [List.append_assoc, hbind, if_neg hlow, if_pos hhigh, hread' r' trivial]
    · rename_i hhigh
      obtain ⟨hc, rfl⟩ := Prod.mk.inj (Except.ok.inj hrest)
      refine ⟨t, rfl, fun r' _ => ?_⟩
      have hplain := hbind [] r'
      rwa [List.nil_append, if_neg hlow, if_neg hhigh, hc] at hplain

theorem spans_readEscape {b r : Bytes} {c : Char} (h : readEscape b = .ok (c, r)) :
    Spans (fun _ => True) readEscape b c r := by
  cases b with
  | nil => cases h
  | cons x rest =>
    by_cases hx : x = 0x75
    · subst hx
      have h : readUnicodeEscape rest = .ok (c, r) := h
      obtain ⟨t, rfl, hread⟩ := spans_readUnicodeEscape h
      exact ⟨0x75 :: t, rfl, hread⟩
    · -- all others are a single byte
      refine ⟨[x], ?_, fun r' _ => ?_⟩
      · simp only [readEscape, if_neg hx] at h
        split_ifs at h <;> cases h <;> rfl
      · show readEscape (x :: r') = _
        simp only [readEscape, if_neg hx] at h ⊢
        split_ifs at h ⊢ <;> cases h <;> rfl

/-- A bound that is long enough for a part is long enough for its first byte and what follows. -/
theorem exists_cons_of_length_le {x : UInt8} {s bound : Bytes} (h : (x :: s).length ≤ bound.length) :
    ∃ z bound', bound = z :: bound' ∧ s.length ≤ bound'.length := by
  obtain ⟨z, bound', rfl⟩ := List.exists_cons_of_length_pos (Nat.zero_lt_of_lt h)
  exact ⟨z, bound', rfl, Nat.le_of_succ_le_succ h⟩

theorem spans_collectText {bound acc b r bytes : Bytes} (h : collectText bound acc b = .ok (bytes, r)) :
    ∃ t, b = t ++ r ∧ ∀ bound' r' : Bytes, t.length ≤ bound'.length →
      collectText bound' acc (t ++ r') = .ok (bytes, r') := by
  induction bound generalizing acc b with
  | nil => cases b <;> cases h
  | cons y bound ih =>
    cases b with
    | nil => cases h
    | cons x rest =>
      rw [collectText] at h
      split at h
      · rename_i hx
        obtain ⟨hb, rfl⟩ := Prod.mk.inj (Except.ok.inj h)
        refine ⟨[x], rfl, fun bound' r' hle => ?_⟩
        obtain ⟨z, bound'', rfl, -⟩ := exists_cons_of_length_le hle
        rw [List.singleton_append, collectText, if_pos hx, hb]
      · rename_i hquote
        split at h
        · rename_i hslash
          split at h
          · rename_i c rest' hescape
            obtain ⟨s, rfl, hread⟩ := spans_readEscape hescape
            obtain ⟨t, rfl, hcollect⟩ := ih h
            refine ⟨x :: (s ++ t), by simp, fun bound' r' hle => ?_⟩
            obtain ⟨z, bound'', rfl, hfits⟩ := exists_cons_of_length_le hle
            rw [List.length_append] at hfits
            rw [List.cons_append, List.append_assoc, collectText, if_neg hquote, if_pos hslash,
              hread _ trivial]
            exact hcollect bound'' r' (by omega)
          · cases h
        · rename_i hslash
          split at h
          · cases h
          · rename_i hcontrol
            obtain ⟨t, rfl, hcollect⟩ := ih h
            refine ⟨x :: t, rfl, fun bound' r' hle => ?_⟩
            obtain ⟨z, bound'', rfl, hfits⟩ := exists_cons_of_length_le hle
            rw [List.cons_append, collectText, if_neg hquote, if_neg hslash, if_neg hcontrol]
            exact hcollect bound'' r' hfits

/-- **A string literal** is read whatever follows it. -/
theorem spans_readText {b r : Bytes} {s : String} (h : readText b = .ok (s, r)) :
    Spans (fun _ => True) readText b s r := by
  obtain ⟨⟨bytes, rest⟩, hcollect, hdecoded⟩ := bind_eq_ok_iff.1 h
  dsimp only at hdecoded
  split at hdecoded
  · rename_i cs hdecode
    obtain ⟨rfl, rfl⟩ := Prod.mk.inj (Except.ok.inj hdecoded)
    obtain ⟨t, rfl, hread⟩ := spans_collectText hcollect
    refine ⟨t, rfl, fun r' _ => ?_⟩
    show (collectText (t ++ r') [] (t ++ r')).bind _ = _
    rw [hread (t ++ r') r' (by simp)]
    dsimp only [Except.bind]
    rw [hdecode]
  · cases hdecoded

/-! ## Numbers -/

/-- What does not begin with a digit. -/
def NoDigit (r : Bytes) : Prop := ∀ b ∈ r.head?, isDigit b = false

theorem Stops.noDigit {r : Bytes} (h : Stops r) : NoDigit r := fun b hb => (h b hb).1

theorem noDigit_dropWhile (b : Bytes) : NoDigit (b.dropWhile isDigit) := by
  induction b with
  | nil => simp [NoDigit]
  | cons x b ih =>
    by_cases hx : isDigit x = true
    · rwa [List.dropWhile_cons_of_pos hx]
    · rw [List.dropWhile_cons_of_neg hx]
      intro y hy
      obtain rfl := Option.some.inj hy
      simpa using hx

/-- Digits end where no digit follows. -/
theorem span_digits_append {ds r : Bytes} (hds : ∀ d ∈ ds, isDigit d = true) (hr : NoDigit r) :
    (ds ++ r).takeWhile isDigit = ds ∧ (ds ++ r).dropWhile isDigit = r := by
  rw [List.takeWhile_append_of_pos hds, List.dropWhile_append_of_pos hds]
  cases r with
  | nil => simp
  | cons x r => simp [hr x rfl]

theorem digits_of_takeWhile (b : Bytes) : ∀ d ∈ b.takeWhile isDigit, isDigit d = true :=
  List.all_eq_true.1 (List.all_takeWhile)

/-- A text begins with some digits, and then there is no digit. -/
theorem exists_digits (b : Bytes) :
    ∃ ds after, (∀ d ∈ ds, isDigit d = true) ∧ NoDigit after ∧ b = ds ++ after :=
  ⟨_, _, digits_of_takeWhile b, noDigit_dropWhile b, (List.takeWhile_append_dropWhile ..).symm⟩

/-- What follows the part of a number is nothing to it, if it follows another part. -/
theorem noDigit_append {t r r' : Bytes} (h : NoDigit (t ++ r)) (hr' : Stops r') : NoDigit (t ++ r') := by
  cases t with
  | nil => exact hr'.noDigit
  | cons x t => exact h

theorem toDouble_eq_ok {negative : Bool} {significand : Nat} {e : Int} {b r : Bytes} {x : Numeral}
    (h : toDouble negative significand e b = .ok (x, r)) :
    r = b ∧ ∀ r', toDouble negative significand e r' = .ok (x, r') := by
  unfold toDouble at h ⊢
  split at h
  · rename_i y hscale
    obtain ⟨hx, rfl⟩ := Prod.mk.inj (Except.ok.inj h)
    exact ⟨rfl, fun r' => by rw [← hx]⟩
  · cases h

theorem readExponentDigits_cases (n : Nat) (b : Bytes) :
    (∃ k ds r, readExponentDigits n b = .value k r ∧ b = ds ++ r ∧
        ∀ r', NoDigit r' → readExponentDigits n (ds ++ r') = .value k r') ∨
      ∃ ds r, readExponentDigits n b = .huge r ∧ b = ds ++ r ∧
        ∀ r', readExponentDigits n (ds ++ r') = .huge r' := by
  induction b generalizing n with
  | nil =>
    refine Or.inl ⟨n, [], [], rfl, rfl, fun r' hr' => ?_⟩
    cases r' with
    | nil => rfl
    | cons x r' => rw [List.nil_append, readExponentDigits, if_neg (by simp [hr' x rfl])]
  | cons x b ih =>
    by_cases hx : isDigit x = true
    · by_cases hlt : n * 10 + digitValue x < 0x80000000
      · have hstep : ∀ b', readExponentDigits n (x :: b') = readExponentDigits (n * 10 + digitValue x) b' := by
          intro b'
          rw [readExponentDigits, if_pos hx]
          exact if_pos hlt
        rw [hstep]
        rcases ih (n * 10 + digitValue x) with ⟨k, ds, r, hread, rfl, hspan⟩ | ⟨ds, r, hread, rfl, hspan⟩
        · refine Or.inl ⟨k, x :: ds, r, hread, rfl, fun r' hr' => ?_⟩
          rw [List.cons_append, hstep]
          exact hspan r' hr'
        · refine Or.inr ⟨x :: ds, r, hread, rfl, fun r' => ?_⟩
          rw [List.cons_append, hstep]
          exact hspan r'
      · have hstep : ∀ b', readExponentDigits n (x :: b') = .huge b' := by
          intro b'
          rw [readExponentDigits, if_pos hx]
          exact if_neg hlt
        exact Or.inr ⟨[x], b, hstep b, rfl, hstep⟩
    · refine Or.inl ⟨n, [], x :: b, ?_, rfl, fun r' hr' => ?_⟩
      · rw [readExponentDigits, if_neg hx]
      · cases r' with
        | nil => rfl
        | cons y r' => rw [List.nil_append, readExponentDigits, if_neg (by simp [hr' y rfl])]

/-- What comes after the sign of an exponent. -/
def readPower (negative minus : Bool) (significand : Nat) (start : Int) (b : Bytes) :
    Except Fault (Numeral × Bytes) :=
  match b with
  | [] => fault .endInValue []
  | d :: rest =>
    if isDigit d then
      match readExponentDigits (digitValue d) rest with
      | .value n rest => toDouble negative significand (if minus then start - n else start + n) rest
      | .huge rest =>
        if significand ≠ 0 ∧ !minus then fault .numberOutOfRange rest
        else .ok (.float (if negative then (-0.0 : Float) else 0.0).toBits, rest.dropWhile isDigit)
    else fault .invalidNumber rest

theorem spans_readPower {negative minus : Bool} {significand : Nat} {start : Int} {b r : Bytes} {x : Numeral}
    (h : readPower negative minus significand start b = .ok (x, r)) : ∃ d t, isDigit d = true ∧
      b = d :: t ++ r ∧ ∀ r', Stops r' →
        readPower negative minus significand start (d :: t ++ r') = .ok (x, r') := by
  cases b with
  | nil => cases h
  | cons d b =>
    rw [readPower] at h
    split at h
    · rename_i hd
      rcases readExponentDigits_cases (digitValue d) b with
        ⟨k, ds, rest, hread, rfl, hspan⟩ | ⟨ds, rest, hread, rfl, hspan⟩
      · rw [hread] at h
        obtain ⟨rfl, hdouble⟩ := toDouble_eq_ok h
        refine ⟨d, ds, hd, rfl, fun r' hr' => ?_⟩
        rw [List.cons_append, readPower, if_pos hd, hspan r' hr'.noDigit]
        exact hdouble r'
      · rw [hread] at h
        dsimp only at h
        split at h
        · cases h
        · rename_i hsmall
          obtain ⟨rfl, rfl⟩ := Prod.mk.inj (Except.ok.inj h)
          refine ⟨d, ds ++ rest.takeWhile isDigit, hd, ?_, fun r' hr' => ?_⟩
          · simp [List.takeWhile_append_dropWhile]
          · rw [List.cons_append, readPower, if_pos hd, List.append_assoc, hspan]
            dsimp only
            rw [if_neg hsmall, (span_digits_append (digits_of_takeWhile rest) hr'.noDigit).2]
    · cases h

/-- Without a sign an exponent is positive. -/
theorem readExponent_of_unsigned {negative : Bool} {significand : Nat} {start : Int} {b : Bytes}
    (hplus : ∀ b', b ≠ 0x2B :: b') (hminus : ∀ b', b ≠ 0x2D :: b') :
    readExponent negative significand start b = readPower negative false significand start b := by
  unfold readExponent
  split
  rename_i heq
  split at heq
  · exact absurd rfl (hplus _)
  · exact absurd rfl (hminus _)
  · obtain ⟨rfl, rfl⟩ := Prod.mk.inj heq
    rfl

theorem spans_readExponent {negative : Bool} {significand : Nat} {start : Int} {b r : Bytes} {x : Numeral}
    (h : readExponent negative significand start b = .ok (x, r)) :
    Spans Stops (readExponent negative significand start) b x r := by
  by_cases hplus : ∃ b', b = 0x2B :: b'
  · obtain ⟨b', rfl⟩ := hplus
    replace h : readPower negative false significand start b' = .ok (x, r) := h
    obtain ⟨d, t, -, rfl, hread⟩ := spans_readPower h
    exact ⟨0x2B :: (d :: t), rfl, hread⟩
  · by_cases hminus : ∃ b', b = 0x2D :: b'
    · obtain ⟨b', rfl⟩ := hminus
      replace h : readPower negative true significand start b' = .ok (x, r) := h
      obtain ⟨d, t, -, rfl, hread⟩ := spans_readPower h
      exact ⟨0x2D :: (d :: t), rfl, hread⟩
    · push Not at hplus hminus
      rw [readExponent_of_unsigned hplus hminus] at h
      obtain ⟨d, t, hd, rfl, hread⟩ := spans_readPower h
      refine ⟨d :: t, rfl, fun r' hr' => ?_⟩
      rw [readExponent_of_unsigned]
      · exact hread r' hr'
      · rintro b' heq
        obtain ⟨rfl, -⟩ := List.cons.inj heq
        cases hd
      · rintro b' heq
        obtain ⟨rfl, -⟩ := List.cons.inj heq
        cases hd

/-- A number that stops has no exponent. -/
theorem finishDouble_of_stops {negative : Bool} {significand : Nat} {e : Int} {b : Bytes} (h : Stops b) :
    finishDouble negative significand e b = toDouble negative significand e b := by
  cases b with
  | nil => rfl
  | cons c b =>
    obtain ⟨-, -, he, hE⟩ := h c rfl
    rw [finishDouble, if_neg (by simp [he, hE])]

theorem spans_finishDouble {negative : Bool} {significand : Nat} {e : Int} {b r : Bytes} {x : Numeral}
    (h : finishDouble negative significand e b = .ok (x, r)) :
    Spans Stops (finishDouble negative significand e) b x r := by
  have hstops : ∀ c, toDouble negative significand e c = .ok (x, r) →
      Spans Stops (finishDouble negative significand e) r x r := by
    intro c hc
    refine ⟨[], rfl, fun r' hr' => ?_⟩
    rw [List.nil_append, finishDouble_of_stops hr']
    exact (toDouble_eq_ok hc).2 r'
  cases b with
  | nil =>
    obtain rfl := (toDouble_eq_ok h).1
    exact hstops [] h
  | cons c b =>
    rw [finishDouble] at h
    split at h
    · rename_i hc
      obtain ⟨t, rfl, hread⟩ := spans_readExponent h
      refine ⟨c :: t, rfl, fun r' hr' => ?_⟩
      rw [List.cons_append, finishDouble, if_pos hc]
      exact hread r' hr'
    · obtain rfl := (toDouble_eq_ok h).1
      exact hstops _ h

theorem spans_readFraction {negative : Bool} {significand : Nat} {e : Int} {b r : Bytes} {x : Numeral}
    (h : readFraction negative significand e b = .ok (x, r)) :
    Spans Stops (readFraction negative significand e) b x r := by
  unfold readFraction at h
  dsimp only at h
  split at h
  · split at h <;> cases h
  · rename_i hdigits
    obtain ⟨t, ht, hread⟩ := spans_finishDouble h
    refine ⟨b.takeWhile isDigit ++ t, ?_, fun r' hr' => ?_⟩
    · rw [List.append_assoc, ← ht, List.takeWhile_append_dropWhile]
    · have hnodigit := noDigit_append (ht ▸ noDigit_dropWhile b) hr'
      obtain ⟨htake, hdrop⟩ := span_digits_append (digits_of_takeWhile b) hnodigit
      unfold readFraction
      dsimp only
      rw [List.append_assoc, htake, hdrop, if_neg hdigits]
      exact hread r' hr'

theorem whole_eq_ok {negative : Bool} {n : Nat} {b r : Bytes} {x : Numeral}
    (h : finishNumber.whole negative n b = .ok (x, r)) :
    r = b ∧ ∀ r', finishNumber.whole negative n r' = .ok (x, r') := by
  unfold finishNumber.whole at h ⊢
  split_ifs at h ⊢ <;> cases h <;> exact ⟨rfl, fun _ => rfl⟩

/-- A number that stops has neither a fraction nor an exponent. -/
theorem finishNumber_of_stops {negative : Bool} {n dropped : Nat} {b : Bytes} (h : Stops b) :
    finishNumber negative n dropped b =
      if dropped ≠ 0 then toDouble negative n dropped b else finishNumber.whole negative n b := by
  have hdouble : finishDouble negative n dropped b = toDouble negative n dropped b :=
    finishDouble_of_stops h
  rw [← hdouble]
  cases b with
  | nil => rfl
  | cons c b =>
    obtain ⟨-, hpoint, he, hE⟩ := h c rfl
    unfold finishNumber
    split
    · rename_i heq
      exact absurd (List.cons.inj heq).1 hpoint
    · rename_i heq
      obtain ⟨rfl, rfl⟩ := List.cons.inj heq
      simp [he, hE]
    · rename_i heq
      cases heq

theorem spans_finishNumber {negative : Bool} {n dropped : Nat} {b r : Bytes} {x : Numeral}
    (h : finishNumber negative n dropped b = .ok (x, r)) :
    Spans Stops (finishNumber negative n dropped) b x r := by
  -- a number that ends here is the same whatever stops it
  have hends : (if dropped ≠ 0 then toDouble negative n dropped b
      else finishNumber.whole negative n b) = .ok (x, r) → Spans Stops (finishNumber negative n dropped) b x r := by
    intro hread
    split at hread
    · rename_i hdropped
      obtain ⟨rfl, hdouble⟩ := toDouble_eq_ok hread
      exact ⟨[], rfl, fun r' hr' => by
        rw [List.nil_append, finishNumber_of_stops hr', if_pos hdropped, hdouble]⟩
    · rename_i hdropped
      obtain ⟨rfl, hwhole⟩ := whole_eq_ok hread
      exact ⟨[], rfl, fun r' hr' => by
        rw [List.nil_append, finishNumber_of_stops hr', if_neg hdropped, hwhole]⟩
  unfold finishNumber at h
  dsimp only at h
  split at h
  · obtain ⟨t, rfl, hread⟩ := spans_readFraction h
    exact ⟨0x2E :: t, rfl, hread⟩
  · rename_i c rest hpoint
    by_cases hexp : c = 0x65 ∨ c = 0x45
    · have hexp' : ∀ k : Nat, c = 0x65 ∨ c = 0x45 ∨ k ≠ 0 := fun k => by tauto
      rw [if_pos (hexp' dropped), finishDouble, if_pos hexp] at h
      obtain ⟨t, rfl, hread⟩ := spans_readExponent h
      refine ⟨c :: t, rfl, fun r' hr' => ?_⟩
      unfold finishNumber
      dsimp only [List.cons_append]
      split
      · rename_i heq
        obtain ⟨rfl, -⟩ := List.cons.inj heq
        simp at hexp
      · rename_i heq
        obtain ⟨rfl, rfl⟩ := List.cons.inj heq
        rw [if_pos (hexp' dropped), finishDouble, if_pos hexp]
        exact hread r' hr'
      · rename_i heq
        cases heq
    · apply hends
      rw [finishDouble, if_neg hexp] at h
      rw [← h]
      have hiff : (c = 0x65 ∨ c = 0x45 ∨ dropped ≠ 0) ↔ dropped ≠ 0 := by tauto
      simp only [hiff]
  · exact hends h

/-- A zero at the head of a number stands alone. -/
theorem readUnsigned_zero {negative : Bool} {b : Bytes} (hb : NoDigit b) :
    readUnsigned negative (0x30 :: b) = finishNumber negative 0 0 b := by
  unfold readUnsigned
  dsimp only
  rw [if_pos rfl]
  cases b with
  | nil => rfl
  | cons c b => exact if_neg (by simp [hb c rfl])

theorem noDigit_of_readUnsigned {negative : Bool} {b : Bytes} {x : Numeral × Bytes}
    (h : readUnsigned negative (0x30 :: b) = .ok x) : NoDigit b := by
  intro c hc
  unfold readUnsigned at h
  dsimp only at h
  rw [if_pos rfl] at h
  cases b with
  | nil => cases hc
  | cons d b =>
    obtain rfl := Option.some.inj hc
    dsimp only at h
    split at h
    · cases h
    · rename_i hdigit
      simpa using hdigit

theorem readUnsigned_digits_append {negative : Bool} {d : UInt8} {ds b : Bytes} (hd : d ≠ 0x30)
    (hdigit : isDigit d = true) (hds : ∀ x ∈ ds, isDigit x = true) (hb : NoDigit b) :
    readUnsigned negative (d :: (ds ++ b)) =
      finishNumber negative (absorb (digitValue d) 0 ds).1 (ds.length - (absorb (digitValue d) 0 ds).2) b := by
  obtain ⟨htake, hdrop⟩ := span_digits_append hds hb
  unfold readUnsigned
  dsimp only
  rw [if_neg hd, if_pos hdigit, htake, hdrop]

theorem spans_readUnsigned {negative : Bool} {b r : Bytes} {x : Numeral}
    (h : readUnsigned negative b = .ok (x, r)) : Spans Stops (readUnsigned negative) b x r := by
  cases b with
  | nil => cases h
  | cons d b =>
    by_cases hd : d = 0x30
    · subst hd
      have hb := noDigit_of_readUnsigned h
      rw [readUnsigned_zero hb] at h
      obtain ⟨t, rfl, hread⟩ := spans_finishNumber h
      refine ⟨0x30 :: t, rfl, fun r' hr' => ?_⟩
      rw [List.cons_append, readUnsigned_zero (noDigit_append hb hr')]
      exact hread r' hr'
    · by_cases hdigit : isDigit d = true
      · obtain ⟨ds, after, hds, hb, rfl⟩ := exists_digits b
        rw [readUnsigned_digits_append hd hdigit hds hb] at h
        obtain ⟨t, rfl, hread⟩ := spans_finishNumber h
        refine ⟨d :: (ds ++ t), by simp, fun r' hr' => ?_⟩
        rw [List.cons_append, List.append_assoc,
          readUnsigned_digits_append hd hdigit hds (noDigit_append hb hr')]
        exact hread r' hr'
      · unfold readUnsigned at h
        dsimp only at h
        rw [if_neg hd, if_neg hdigit] at h
        cases h

/-- **A number** is read up to what stops it. -/
theorem spans_readNumber {b r : Bytes} {x : Numeral} (h : readNumber b = .ok (x, r)) :
    Spans Stops readNumber b x r := by
  by_cases hminus : ∃ b', b = 0x2D :: b'
  · obtain ⟨b', rfl⟩ := hminus
    replace h : readUnsigned true b' = .ok (x, r) := h
    obtain ⟨t, rfl, hread⟩ := spans_readUnsigned h
    exact ⟨0x2D :: t, rfl, hread⟩
  · push Not at hminus
    have hplain : ∀ b, (∀ b', b ≠ 0x2D :: b') → readNumber b = readUnsigned false b := by
      intro b hb
      unfold readNumber
      split
      · exact absurd rfl (hb _)
      · rfl
    rw [hplain b hminus] at h
    obtain ⟨t, rfl, hread⟩ := spans_readUnsigned h
    refine ⟨t, rfl, fun r' hr' => ?_⟩
    rw [hplain]
    · exact hread r' hr'
    · rintro b' heq
      cases t with
      | nil =>
        obtain rfl : r' = 0x2D :: b' := heq
        have hread := hread _ hr'
        cases hread
      | cons c t =>
        obtain ⟨rfl, -⟩ := List.cons.inj heq
        exact hminus _ rfl

/-! ## Scalars -/

@[simp] theorem readHead_append {ws : Bytes} (h : Blanks ws) (b : Bytes) :
    readHead (ws ++ b) = readHead b := by
  unfold readHead
  rw [skipBlank_append h]

/-- **A value without parts** is read up to what stops it. -/
theorem spans_readHead {b r : Bytes} {s : Scalar} (h : readHead b = .ok (.scalar s r)) :
    ∃ ws t, Blanks ws ∧ Begins t ∧ b = ws ++ (t ++ r) ∧
      ∀ r', Stops r' → readHead (t ++ r') = .ok (.scalar s r') := by
  cases hskip : skipBlank b with
  | nil =>
    unfold readHead at h
    rw [hskip] at h
    cases h
  | cons c rest =>
    obtain ⟨ws, hws, rfl, hc⟩ := blanks_of_skipBlank hskip
    -- it is enough to know how the value itself goes on
    suffices hspan : ∃ t, rest = t ++ r ∧ ∀ r', Stops r' → readHead (c :: (t ++ r')) = .ok (.scalar s r') by
      obtain ⟨t, rfl, hread⟩ := hspan
      exact ⟨ws, c :: t, hws, ⟨c, t, rfl, hc⟩, rfl, hread⟩
    rw [readHead_append hws] at h
    unfold readHead at h ⊢
    simp only [skipBlank_of_not hc] at h ⊢
    have hword : ∀ (w : Bytes) (x : Scalar),
        ((readWord w rest).bind fun rest => .ok (Head.scalar x rest)) = .ok (Head.scalar s r) →
        rest = w ++ r ∧ ∀ r', ((readWord w (w ++ r')).bind fun rest => .ok (Head.scalar x rest)) =
          .ok (Head.scalar s r') := by
      intro w x hx
      obtain ⟨rest', hread, heq⟩ := bind_eq_ok_iff.1 hx
      obtain ⟨rfl, rfl⟩ := Head.scalar.inj (Except.ok.inj heq)
      refine ⟨readWord_eq_ok_iff.1 hread, fun r' => ?_⟩
      rw [readWord_eq_ok_iff.2 rfl]
      rfl
    split_ifs at h ⊢ with hn ht hf hnumber hquote
    · obtain ⟨hrest, hread⟩ := hword _ _ h
      exact ⟨_, hrest, fun r' _ => hread r'⟩
    · obtain ⟨hrest, hread⟩ := hword _ _ h
      exact ⟨_, hrest, fun r' _ => hread r'⟩
    · obtain ⟨hrest, hread⟩ := hword _ _ h
      exact ⟨_, hrest, fun r' _ => hread r'⟩
    · obtain ⟨⟨x, rest'⟩, hnumber', heq⟩ := bind_eq_ok_iff.1 h
      obtain ⟨rfl, rfl⟩ := Head.scalar.inj (Except.ok.inj heq)
      obtain ⟨t, ht, hread⟩ := spans_readNumber hnumber'
      cases t with
      | nil =>
        have hempty := hread [] (by simp [Stops])
        cases hempty
      | cons d t =>
        obtain ⟨rfl, rfl⟩ := List.cons.inj ht
        refine ⟨t, rfl, fun r' hr' => ?_⟩
        show (readNumber (c :: t ++ r')).bind _ = _
        rw [hread r' hr']
        rfl
    · obtain ⟨⟨x, rest'⟩, htext, heq⟩ := bind_eq_ok_iff.1 h
      obtain ⟨rfl, rfl⟩ := Head.scalar.inj (Except.ok.inj heq)
      obtain ⟨t, rfl, hread⟩ := spans_readText htext
      refine ⟨t, rfl, fun r' _ => ?_⟩
      show (readText (t ++ r')).bind _ = _
      rw [hread r' trivial]
      rfl
    · cases h
    · cases h
    · cases h

end HealthService.Json
