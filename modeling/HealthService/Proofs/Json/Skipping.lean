import HealthService.Proofs.Json.Spans

/-!
# How far values are passed over

A value that nobody asked for is passed over without being built, and less is asked of it: its numbers may
be too large and its texts need not be well-formed.  Still, how far that goes depends on the value alone
(`Skips`), unless what follows would go on with a number.

* `skips_skipFrames` — **all that some lists and objects hold**, up to their ends.
* `skips_skipValue` — **a value that is passed over**, with whatever parts.
-/

namespace HealthService.Json

/-- From a text one gets to a rest, and likewise before any other rest of some kind. -/
def Skips (P : Bytes → Prop) (skip : Bytes → Except Fault Bytes) (b r : Bytes) : Prop :=
  ∃ t, b = t ++ r ∧ ∀ r', P r' → skip (t ++ r') = .ok r'

/-! ## String literals -/

theorem skips_skipTextAux {bound b r : Bytes} (h : skipTextAux bound b = .ok r) :
    ∃ t, b = t ++ r ∧ ∀ bound' r' : Bytes, t.length ≤ bound'.length →
      skipTextAux bound' (t ++ r') = .ok r' := by
  induction bound generalizing b with
  | nil => cases b <;> cases h
  | cons y bound ih =>
    cases b with
    | nil => cases h
    | cons x rest =>
      unfold skipTextAux at h
      dsimp only at h
      split at h
      · rename_i hx
        obtain rfl := Except.ok.inj h
        refine ⟨[x], rfl, fun bound' r' hle => ?_⟩
        obtain ⟨z, bound'', rfl, -⟩ := exists_cons_of_length_le hle
        unfold skipTextAux
        dsimp only [List.singleton_append]
        rw [if_pos hx]
      · rename_i hquote
        split at h
        · rename_i hslash
          split at h
          · cases h
          · rename_i e after
            split at h
            · rename_i he
              obtain ⟨⟨n, rest'⟩, hhex, hskip⟩ := bind_eq_ok_iff.1 h
              obtain ⟨s, rfl, hread⟩ := spans_readHex hhex
              obtain ⟨t, rfl, hskips⟩ := ih hskip
              refine ⟨x :: e :: (s ++ t), by simp, fun bound' r' hle => ?_⟩
              obtain ⟨z, bound'', rfl, hfits⟩ := exists_cons_of_length_le hle
              rw [List.length_cons, List.length_append] at hfits
              rw [List.cons_append, List.cons_append, List.append_assoc]
              unfold skipTextAux
              dsimp only
              rw [if_neg hquote, if_pos hslash, if_pos he]
              show (readHex (s ++ (t ++ r'))).bind _ = _
              rw [hread _ trivial]
              exact hskips bound'' r' (by omega)
            · rename_i he
              split at h
              · rename_i hescape
                obtain ⟨t, rfl, hskips⟩ := ih h
                refine ⟨x :: e :: t, rfl, fun bound' r' hle => ?_⟩
                obtain ⟨z, bound'', rfl, hfits⟩ := exists_cons_of_length_le hle
                rw [List.length_cons] at hfits
                unfold skipTextAux
                dsimp only [List.cons_append]
                rw [if_neg hquote, if_pos hslash, if_neg he, if_pos hescape]
                exact hskips bound'' r' (by omega)
              · cases h
        · rename_i hslash
          split at h
          · cases h
          · rename_i hcontrol
            obtain ⟨t, rfl, hskips⟩ := ih h
            refine ⟨x :: t, rfl, fun bound' r' hle => ?_⟩
            obtain ⟨z, bound'', rfl, hfits⟩ := exists_cons_of_length_le hle
            unfold skipTextAux
            dsimp only [List.cons_append]
            rw [if_neg hquote, if_neg hslash, if_neg hcontrol]
            exact hskips bound'' r' hfits

theorem skips_skipText {b r : Bytes} (h : skipText b = .ok r) : Skips (fun _ => True) skipText b r := by
  obtain ⟨t, rfl, hskips⟩ := skips_skipTextAux h
  exact ⟨t, rfl, fun r' _ => hskips (t ++ r') r' (by simp)⟩

/-! ## Numbers -/

/-- What comes after the sign of an exponent that is passed over. -/
def skipPower (b : Bytes) : Except Fault Bytes :=
  match b with
  | [] => fault .invalidNumber []
  | d :: rest => if isDigit d then .ok (rest.dropWhile isDigit) else fault .invalidNumber rest

theorem skips_skipPower {b r : Bytes} (h : skipPower b = .ok r) : ∃ d t, isDigit d = true ∧
    b = d :: t ++ r ∧ ∀ r', Stops r' → skipPower (d :: t ++ r') = .ok r' := by
  cases b with
  | nil => cases h
  | cons d b =>
    rw [skipPower] at h
    split at h
    · rename_i hd
      obtain rfl := Except.ok.inj h
      refine ⟨d, b.takeWhile isDigit, hd, by simp [List.takeWhile_append_dropWhile], fun r' hr' => ?_⟩
      rw [List.cons_append, skipPower, if_pos hd,
        (span_digits_append (digits_of_takeWhile b) hr'.noDigit).2]
    · cases h

theorem skipExponent_of_unsigned {b : Bytes} (hplus : ∀ b', b ≠ 0x2B :: b')
    (hminus : ∀ b', b ≠ 0x2D :: b') : skipExponent b = skipPower b := by
  unfold skipExponent
  split
  · exact absurd rfl (hplus _)
  · exact absurd rfl (hminus _)
  · rfl

theorem skips_skipExponent {b r : Bytes} (h : skipExponent b = .ok r) : Skips Stops skipExponent b r := by
  by_cases hplus : ∃ b', b = 0x2B :: b'
  · obtain ⟨b', rfl⟩ := hplus
    obtain ⟨d, t, -, rfl, hskip⟩ := skips_skipPower h
    exact ⟨0x2B :: (d :: t), rfl, hskip⟩
  · by_cases hminus : ∃ b', b = 0x2D :: b'
    · obtain ⟨b', rfl⟩ := hminus
      obtain ⟨d, t, -, rfl, hskip⟩ := skips_skipPower h
      exact ⟨0x2D :: (d :: t), rfl, hskip⟩
    · push Not at hplus hminus
      rw [skipExponent_of_unsigned hplus hminus] at h
      obtain ⟨d, t, hd, rfl, hskip⟩ := skips_skipPower h
      refine ⟨d :: t, rfl, fun r' hr' => ?_⟩
      rw [skipExponent_of_unsigned]
      · exact hskip r' hr'
      · rintro b' heq
        obtain ⟨rfl, -⟩ := List.cons.inj heq
        cases hd
      · rintro b' heq
        obtain ⟨rfl, -⟩ := List.cons.inj heq
        cases hd

/-- Passes over an exponent, if there is one. -/
def skipPerhapsExponent (b : Bytes) : Except Fault Bytes :=
  match b with
  | e :: more => if e = 0x65 ∨ e = 0x45 then skipExponent more else .ok (e :: more)
  | [] => .ok []

theorem skips_skipPerhapsExponent {b r : Bytes} (h : skipPerhapsExponent b = .ok r) :
    Skips Stops skipPerhapsExponent b r := by
  have hstops : ∀ r', Stops r' → skipPerhapsExponent r' = .ok r' := by
    intro r' hr'
    cases r' with
    | nil => rfl
    | cons c r' =>
      obtain ⟨-, -, he, hE⟩ := hr' c rfl
      rw [skipPerhapsExponent, if_neg (by simp [he, hE])]
  cases b with
  | nil =>
    obtain rfl := Except.ok.inj h
    exact ⟨[], rfl, hstops⟩
  | cons c b =>
    rw [skipPerhapsExponent] at h
    split at h
    · rename_i hc
      obtain ⟨t, rfl, hskip⟩ := skips_skipExponent h
      refine ⟨c :: t, rfl, fun r' hr' => ?_⟩
      rw [List.cons_append, skipPerhapsExponent, if_pos hc]
      exact hskip r' hr'
    · obtain rfl := Except.ok.inj h
      exact ⟨[], rfl, hstops⟩

/-- Digits after a point, of which there have to be some. -/
theorem skipFraction_point {ds after : Bytes} (hds : ∀ d ∈ ds, isDigit d = true) (hafter : NoDigit after) :
    skipFraction (0x2E :: (ds ++ after)) =
      if ds = [] then faultAhead .invalidNumber (ds ++ after) else skipPerhapsExponent after := by
  have hlength : after.length = (ds ++ after).length ↔ ds = [] := by
    rw [List.length_append, ← List.length_eq_zero_iff]
    omega
  rw [skipFraction, if_neg (by decide), if_pos rfl, (span_digits_append hds hafter).2]
  simp only [hlength]
  cases after <;> rfl

theorem skipFraction_of_stops {b : Bytes} (h : Stops b) : skipFraction b = .ok b := by
  cases b with
  | nil => rfl
  | cons c b =>
    obtain ⟨-, hpoint, he, hE⟩ := h c rfl
    rw [skipFraction, if_neg (by simp [he, hE]), if_neg hpoint]

theorem skips_skipFraction {b r : Bytes} (h : skipFraction b = .ok r) : Skips Stops skipFraction b r := by
  cases b with
  | nil =>
    obtain rfl := Except.ok.inj h
    exact ⟨[], rfl, fun r' hr' => skipFraction_of_stops hr'⟩
  | cons c b =>
    rw [skipFraction] at h
    split at h
    · rename_i hc
      obtain ⟨t, rfl, hskip⟩ := skips_skipExponent h
      refine ⟨c :: t, rfl, fun r' hr' => ?_⟩
      rw [List.cons_append, skipFraction, if_pos hc]
      exact hskip r' hr'
    · rename_i hc
      split at h
      · rename_i hpoint
        subst hpoint
        obtain ⟨ds, after, hds, hafter, rfl⟩ := exists_digits b
        have hfraction := skipFraction_point hds hafter
        rw [skipFraction, if_neg hc, if_pos rfl] at hfraction
        rw [hfraction] at h
        split at h
        · cases h
        · rename_i hsome
          obtain ⟨t, rfl, hskip⟩ := skips_skipPerhapsExponent h
          refine ⟨0x2E :: (ds ++ t), by simp, fun r' hr' => ?_⟩
          rw [List.cons_append, List.append_assoc, skipFraction_point hds (noDigit_append hafter hr'),
            if_neg hsome]
          exact hskip r' hr'
      · obtain rfl := Except.ok.inj h
        exact ⟨[], rfl, fun r' hr' => skipFraction_of_stops hr'⟩

theorem skipNumber_zero {b : Bytes} (hb : NoDigit b) : skipNumber (0x30 :: b) = skipFraction b := by
  unfold skipNumber
  dsimp only
  rw [if_pos rfl]
  cases b with
  | nil => rfl
  | cons c b => exact if_neg (by simp [hb c rfl])

theorem noDigit_of_skipNumber {b r : Bytes} (h : skipNumber (0x30 :: b) = .ok r) : NoDigit b := by
  intro c hc
  unfold skipNumber at h
  dsimp only at h
  rw [if_pos rfl] at h
  cases b with
  | nil => cases hc
  | cons d b =>
    obtain rfl := Option.some.inj hc
    dsimp only at h
    split at h
    · cases h
    · rename_i hdigit
      simpa using hdigit

theorem skips_skipNumber {b r : Bytes} (h : skipNumber b = .ok r) :
    ∃ d t, (d = 0x30 ∨ isDigit d = true) ∧ b = d :: t ++ r ∧
      ∀ r', Stops r' → skipNumber (d :: t ++ r') = .ok r' := by
  cases b with
  | nil => cases h
  | cons d b =>
    by_cases hd : d = 0x30
    · subst hd
      have hb := noDigit_of_skipNumber h
      rw [skipNumber_zero hb] at h
      obtain ⟨t, rfl, hskip⟩ := skips_skipFraction h
      refine ⟨0x30, t, Or.inl rfl, rfl, fun r' hr' => ?_⟩
      rw [List.cons_append, skipNumber_zero (noDigit_append hb hr')]
      exact hskip r' hr'
    · unfold skipNumber at h
      dsimp only at h
      rw [if_neg hd] at h
      split at h
      · rename_i hdigit
        obtain ⟨ds, after, hds, hafter, rfl⟩ := exists_digits b
        rw [(span_digits_append hds hafter).2] at h
        obtain ⟨t, rfl, hskip⟩ := skips_skipFraction h
        refine ⟨d, ds ++ t, Or.inr hdigit, by simp, fun r' hr' => ?_⟩
        rw [List.cons_append, List.append_assoc]
        unfold skipNumber
        dsimp only
        rw [if_neg hd, if_pos hdigit, (span_digits_append hds (noDigit_append hafter hr')).2]
        exact hskip r' hr'
      · cases h

/-! ## Lists and objects -/

/-- Blanks stop a number. -/
theorem stops_blanks {ws r : Bytes} (hws : Blanks ws) (hr : Stops r) : Stops (ws ++ r) := by
  cases ws with
  | nil => exact hr
  | cons w ws =>
    have hblank := hws w List.mem_cons_self
    simp only [Blank.isJsonByte, Bool.or_eq_true, beq_iff_eq] at hblank
    apply stops_cons
    rcases hblank with ((rfl | rfl) | rfl) | rfl <;> decide

@[simp] theorem skipHead_append {ws : Bytes} (h : Blanks ws) (b : Bytes) :
    skipHead (ws ++ b) = skipHead b := by
  unfold skipHead
  rw [skipBlank_append h]

theorem skips_skipHead_scalar {b r : Bytes} (h : skipHead b = .ok (none, r)) :
    ∃ ws t, Blanks ws ∧ Begins t ∧ b = ws ++ (t ++ r) ∧
      ∀ r', Stops r' → skipHead (t ++ r') = .ok (none, r') := by
  cases hskip : skipBlank b with
  | nil =>
    unfold skipHead at h
    rw [hskip] at h
    cases h
  | cons c rest =>
    obtain ⟨ws, hws, rfl, hc⟩ := blanks_of_skipBlank hskip
    suffices hspan : ∃ t, rest = t ++ r ∧ ∀ r', Stops r' → skipHead (c :: (t ++ r')) = .ok (none, r') by
      obtain ⟨t, rfl, hread⟩ := hspan
      exact ⟨ws, c :: t, hws, ⟨c, t, rfl, hc⟩, rfl, hread⟩
    rw [skipHead_append hws] at h
    unfold skipHead at h ⊢
    simp only [skipBlank_of_not hc] at h ⊢
    have hpart : ∀ (skip : Bytes → Except Fault Bytes) (b : Bytes),
        ((skip b).bind fun rest => .ok ((none : Option Frame), rest)) = .ok (none, r) → skip b = .ok r := by
      intro skip b hx
      obtain ⟨rest', hread, heq⟩ := bind_eq_ok_iff.1 hx
      obtain ⟨-, rfl⟩ := Prod.mk.inj (Except.ok.inj heq)
      exact hread
    split_ifs at h ⊢ with hn ht hf hminus hdigit hquote
    · exact ⟨_, readWord_eq_ok_iff.1 (hpart _ _ h), fun r' _ => by rw [readWord_eq_ok_iff.2 rfl]; rfl⟩
    · exact ⟨_, readWord_eq_ok_iff.1 (hpart _ _ h), fun r' _ => by rw [readWord_eq_ok_iff.2 rfl]; rfl⟩
    · exact ⟨_, readWord_eq_ok_iff.1 (hpart _ _ h), fun r' _ => by rw [readWord_eq_ok_iff.2 rfl]; rfl⟩
    · obtain ⟨d, t, -, ht, hnumber⟩ := skips_skipNumber (hpart _ _ h)
      exact ⟨d :: t, ht, fun r' hr' => by rw [hnumber r' hr']; rfl⟩
    · obtain ⟨d, t, -, ht, hnumber⟩ := skips_skipNumber (hpart _ _ h)
      obtain ⟨rfl, rfl⟩ := List.cons.inj ht
      refine ⟨t, rfl, fun r' hr' => ?_⟩
      have hskipped := hnumber r' hr'
      rw [List.cons_append] at hskipped
      rw [hskipped]
      rfl
    · obtain ⟨t, ht, htext⟩ := skips_skipText (hpart _ _ h)
      exact ⟨t, ht, fun r' _ => by rw [htext r' trivial]; rfl⟩
    · cases h
    · cases h
    · cases h

theorem skips_skipHead_frame {b r : Bytes} {frame : Frame} (h : skipHead b = .ok (some frame, r)) :
    ∃ ws c, Blanks ws ∧ Blank.isJsonByte c = false ∧ b = ws ++ c :: r ∧
      ∀ r', skipHead (c :: r') = .ok (some frame, r') := by
  cases hskip : skipBlank b with
  | nil =>
    unfold skipHead at h
    rw [hskip] at h
    cases h
  | cons c rest =>
    obtain ⟨ws, hws, rfl, hc⟩ := blanks_of_skipBlank hskip
    rw [skipHead_append hws] at h
    suffices hspan : rest = r ∧ ∀ r', skipHead (c :: r') = .ok (some frame, r') by
      obtain ⟨rfl, hread⟩ := hspan
      exact ⟨ws, c, hws, hc, rfl, hread⟩
    unfold skipHead at h ⊢
    simp only [skipBlank_of_not hc] at h ⊢
    have hpart : ∀ (x : Except Fault Bytes),
        (x.bind fun rest => .ok ((none : Option Frame), rest)) ≠ .ok (some frame, r) := by
      intro x hx
      obtain ⟨rest', -, heq⟩ := bind_eq_ok_iff.1 hx
      cases heq
    split_ifs at h ⊢
    · exact absurd h (hpart _)
    · exact absurd h (hpart _)
    · exact absurd h (hpart _)
    · exact absurd h (hpart _)
    · exact absurd h (hpart _)
    · exact absurd h (hpart _)
    · obtain ⟨hframe, rfl⟩ := Prod.mk.inj (Except.ok.inj h)
      exact ⟨rfl, fun r' => by rw [hframe]⟩
    · obtain ⟨hframe, rfl⟩ := Prod.mk.inj (Except.ok.inj h)
      exact ⟨rfl, fun r' => by rw [hframe]⟩
    · cases h

/-- A colon, with blanks before it. -/
theorem readColon_eq_ok_iff {b r : Bytes} :
    readColon b = .ok r ↔ ∃ ws, Blanks ws ∧ b = ws ++ 0x3A :: r := by
  constructor
  · intro h
    unfold readColon at h
    split at h
    · cases h
    · rename_i c rest hskip
      obtain ⟨ws, hws, rfl, -⟩ := blanks_of_skipBlank hskip
      split at h
      · rename_i hc
        obtain rfl := Except.ok.inj h
        exact ⟨ws, hws, by rw [hc]⟩
      · cases h
  · rintro ⟨ws, hws, rfl⟩
    unfold readColon
    rw [skipBlank_append hws, skipBlank_of_not (by decide)]
    rfl

theorem skips_skipKey {b r : Bytes} (h : skipKey b = .ok r) : Skips (fun _ => True) skipKey b r := by
  unfold skipKey at h
  split at h
  · cases h
  · rename_i c rest hskip
    obtain ⟨ws, hws, rfl, hc⟩ := blanks_of_skipBlank hskip
    split at h
    · rename_i hquote
      obtain ⟨after, htext, hcolon⟩ := bind_eq_ok_iff.1 h
      obtain ⟨t, rfl, hskips⟩ := skips_skipText htext
      obtain ⟨ws', hws', rfl⟩ := readColon_eq_ok_iff.1 hcolon
      refine ⟨ws ++ c :: (t ++ (ws' ++ [0x3A])), by simp, fun r' _ => ?_⟩
      unfold skipKey
      simp only [List.append_assoc, List.cons_append, List.nil_append]
      rw [skipBlank_append hws, skipBlank_of_not hc]
      dsimp only
      rw [if_pos hquote]
      show (skipText (t ++ (ws' ++ 0x3A :: r'))).bind readColon = _
      rw [hskips _ trivial]
      exact readColon_eq_ok_iff.2 ⟨ws', hws', rfl⟩
    · cases h

theorem skips_enter {frame : Frame} {b r : Bytes} (h : enter frame b = .ok r) :
    Skips (fun _ => True) (enter frame) b r := by
  cases frame with
  | list =>
    obtain rfl := Except.ok.inj h
    exact ⟨[], rfl, fun _ _ => rfl⟩
  | object => exact skips_skipKey h

/-- **All that some frames hold.**  The text of it goes on with nothing that a number could go on with,
once a first value is complete. -/
theorem skips_skipFrames {bound b r : Bytes} {comma : Bool} {frames : List Frame}
    (hbound : b.length < bound.length) (h : skipFrames bound comma frames b = .ok r) :
    ∃ t, b = t ++ r ∧ (∀ bound' r' : Bytes, t.length ≤ bound'.length →
        skipFrames bound' comma frames (t ++ r') = .ok r') ∧
      (comma = true → frames ≠ [] → ∀ r', Stops (t ++ r')) := by
  induction bound generalizing comma frames b with
  | nil => cases hbound
  | cons y bound ih =>
    cases frames with
    | nil =>
      rw [skipFrames] at h
      obtain rfl := Except.ok.inj h
      exact ⟨[], rfl, fun bound' r' _ => by cases bound' <;> rfl, fun _ hne => absurd rfl hne⟩
    | cons frame frames =>
      rw [skipFrames] at h
      split at h
      · cases h
      · rename_i c rest hskip
        obtain ⟨ws, hws, rfl, hc⟩ := blanks_of_skipBlank hskip
        simp only [List.length_append, List.length_cons] at hbound
        have hskipped : ∀ s, skipBlank (ws ++ c :: s) = c :: s := by
          intro s
          rw [skipBlank_append hws, skipBlank_of_not hc]
        split at h
        · rename_i hclose
          obtain ⟨t, rfl, hskips, -⟩ := ih (by omega) h
          refine ⟨ws ++ c :: t, by simp, fun bound' r' hle => ?_, fun _ _ r' => ?_⟩
          · simp only [List.length_append, List.length_cons] at hle
            obtain ⟨z, bound', rfl⟩ := List.exists_cons_of_length_pos (l := bound') (by omega)
            rw [List.append_assoc, List.cons_append, skipFrames, hskipped]
            dsimp only
            rw [if_pos hclose]
            exact hskips bound' r' (by simp only [List.length_cons] at hle; omega)
          · rw [List.append_assoc]
            apply stops_blanks hws
            rcases hclose with ⟨rfl, -⟩ | ⟨rfl, -⟩ <;> exact stops_cons _ (by decide)
        · rename_i hopen
          split at h
          · cases h
          · rename_i hcomma
            obtain ⟨rest', henter, h⟩ := bind_eq_ok_iff.1 h
            obtain ⟨⟨inner, after⟩, hhead, h⟩ := bind_eq_ok_iff.1 h
            obtain ⟨u, hu, henters⟩ := skips_enter henter
            -- what is passed over before the frames are looked at again
            obtain ⟨v, rfl, hv, hheads⟩ : ∃ v, rest' = v ++ after ∧ v ≠ [] ∧
                ∀ r', (inner = none → Stops r') → skipHead (v ++ r') = .ok (inner, r') := by
              cases inner with
              | none =>
                obtain ⟨ws', t, hws', ht, rfl, hheads⟩ := skips_skipHead_scalar hhead
                refine ⟨ws' ++ t, by simp, by simp [ht.ne_nil], fun r' hr' => ?_⟩
                rw [List.append_assoc, skipHead_append hws']
                exact hheads r' (hr' rfl)
              | some frame' =>
                obtain ⟨ws', d, hws', -, rfl, hheads⟩ := skips_skipHead_frame hhead
                refine ⟨ws' ++ [d], by simp, by simp, fun r' _ => ?_⟩
                rw [List.append_assoc, skipHead_append hws']
                exact hheads r'
            replace h : skipFrames bound inner.isNone (inner.toList ++ frame :: frames) after = .ok r := by
              cases inner <;> exact h
            have hafter : after.length < bound.length := by
              have hlength := congrArg List.length hu
              have hpos := List.length_pos_of_ne_nil hv
              simp only [List.length_append] at hlength
              split at hlength
              · omega
              · rw [List.length_cons] at hlength
                omega
            obtain ⟨w, rfl, hskips, hstops⟩ := ih hafter h
            obtain ⟨p, rfl, hp, hpaths⟩ : ∃ p, rest = p ++ r ∧ w.length ≤ p.length ∧
                ∀ r', (if comma then p ++ r' else c :: (p ++ r')) = u ++ (v ++ (w ++ r')) := by
              cases comma with
              | true => exact ⟨u ++ (v ++ w), by simpa using hu, by simp; omega, fun r' => by simp⟩
              | false =>
                obtain ⟨d, q, hq⟩ := List.exists_cons_of_ne_nil (List.append_ne_nil_of_right_ne_nil u hv)
                rw [← List.append_assoc, hq] at hu
                obtain ⟨rfl, rfl⟩ := List.cons.inj hu
                refine ⟨q ++ w, by simp, by simp, fun r' => ?_⟩
                rw [← List.append_assoc u, hq]
                simp
            refine ⟨ws ++ c :: p, by simp, fun bound' r' hle => ?_, fun hcommas _ r' => ?_⟩
            · simp only [List.length_append, List.length_cons] at hle
              obtain ⟨z, bound', rfl⟩ := List.exists_cons_of_length_pos (l := bound') (by omega)
              rw [List.append_assoc, List.cons_append, skipFrames, hskipped]
              dsimp only
              rw [if_neg hopen, if_neg hcomma, hpaths]
              show (enter frame (u ++ (v ++ (w ++ r')))).bind _ = _
              rw [henters _ trivial]
              show (skipHead (v ++ (w ++ r'))).bind _ = _
              rw [hheads (w ++ r') (fun hnone => hstops (by simp [hnone]) (by simp) r')]
              have hinner := hskips bound' r' (by simp only [List.length_cons] at hle; omega)
              cases inner <;> exact hinner
            · obtain rfl : c = 0x2C := by simpa [hcommas] using hcomma
              rw [List.append_assoc]
              exact stops_blanks hws (stops_cons _ (by decide))

/-- Blanks before a value are passed over with it. -/
theorem skipValue_append {ws b r : Bytes} (hws : Blanks ws) (h : skipValue b = .ok r) :
    skipValue (ws ++ b) = .ok r := by
  obtain ⟨⟨inner, after⟩, hhead, h⟩ := bind_eq_ok_iff.1 h
  show (skipHead (ws ++ b)).bind _ = _
  rw [skipHead_append hws, hhead]
  cases inner with
  | none => exact h
  | some frame =>
    -- the steps are bounded by a text that is longer now
    obtain ⟨ws', c, -, -, rfl, -⟩ := skips_skipHead_frame hhead
    obtain ⟨t, rfl, hskips, -⟩ := skips_skipFrames (by simp; omega) h
    exact hskips _ r (by simp; omega)

/-- **A value that is passed over** is so before everything that does not go on with a number. -/
theorem skips_skipValue {b r : Bytes} (h : skipValue b = .ok r) :
    ∃ ws t, Blanks ws ∧ Begins t ∧ b = ws ++ (t ++ r) ∧ ∀ r', Stops r' → skipValue (t ++ r') = .ok r' := by
  obtain ⟨⟨inner, after⟩, hhead, h⟩ := bind_eq_ok_iff.1 h
  cases inner with
  | none =>
    obtain rfl := Except.ok.inj h
    obtain ⟨ws, t, hws, ht, rfl, hheads⟩ := skips_skipHead_scalar hhead
    refine ⟨ws, t, hws, ht, rfl, fun r' hr' => ?_⟩
    show (skipHead (t ++ r')).bind _ = _
    rw [hheads r' hr']
    rfl
  | some frame =>
    obtain ⟨ws, c, hws, hc, rfl, hheads⟩ := skips_skipHead_frame hhead
    obtain ⟨t, rfl, hskips, -⟩ := skips_skipFrames (by simp; omega) h
    refine ⟨ws, c :: t, hws, ⟨c, t, rfl, hc⟩, rfl, fun r' _ => ?_⟩
    show (skipHead (c :: (t ++ r'))).bind _ = _
    rw [hheads]
    exact hskips _ r' (by simp; omega)

end HealthService.Json
