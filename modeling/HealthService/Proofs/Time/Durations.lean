import HealthService.Liveness
import HealthService.Proofs.Readiness.Verdict
import Mathlib.Data.List.DropRight
import Mathlib.Data.Rat.Cast.Order
import Mathlib.Tactic.FieldSimp
import Mathlib.Tactic.NormNum
import Mathlib.Tactic.Ring

/-!
# Durations in words

A duration is told as digits, maybe a dot with more digits, and a unit. `Duration.read?` reads such a text
as the exact number that it stands for, and knows nothing of how it came about.

* `Duration.Tells` — what a text has to be that tells a duration: well formed, exact, and in the right unit.
* `Duration.read?_text` — a well-formed text is read as what its parts stand for.
* `Duration.tells_describe` — what is written of a duration tells it, whatever the duration is.
* `Duration.reported_exactly` — **the duration of every result, and every uptime, is told to the
  nanosecond**, and no two durations in the same words.
-/

namespace HealthService
namespace Duration

/-! ## What a text stands for -/

/-- What a digit counts. -/
def digit (c : Char) : Nat := c.toNat - '0'.toNat

/-- What the digits after a dot count: a tenth for the first of them, and a tenth of what they would count
without it for the others. -/
def decimals : List Char → ℚ
  | [] => 0
  | c :: cs => (digit c + decimals cs) / 10

/-- The parts of a text that tells a duration. -/
structure Reading where
  whole : List Char
  decimals : List Char
  unit : TimeUnit

namespace Reading

/-- The text. -/
def text (r : Reading) : List Char :=
  r.whole ++ ((if r.decimals = [] then [] else '.' :: r.decimals) ++ r.unit.name)

/-- The number of nanoseconds for which it stands. -/
def nanos (r : Reading) : ℚ :=
  (Nat.ofDigitChars 10 r.whole 0 + Duration.decimals r.decimals) * r.unit.nanos

/-- The parts are as they should be: digits, and after a dot at most nine of them, the last no zero. -/
structure WellFormed (r : Reading) : Prop where
  whole_ne_nil : r.whole ≠ []
  whole_digits : ∀ c ∈ r.whole, c.isDigit = true
  decimals_digits : ∀ c ∈ r.decimals, c.isDigit = true
  decimals_short : r.decimals.length ≤ 9
  decimals_last : r.decimals.getLast? ≠ some '0'
  unit_mem : r.unit ∈ units

end Reading

/-- The digits after a dot, if there is one, and what follows. -/
def afterDot : List Char → List Char × List Char
  | '.' :: t => (t.takeWhile Char.isDigit, t.dropWhile Char.isDigit)
  | t => ([], t)

/-- Reads a text as a number of nanoseconds. -/
def read? (s : List Char) : Option ℚ :=
  let whole := s.takeWhile Char.isDigit
  let (ds, name) := afterDot (s.dropWhile Char.isDigit)
  (units.find? (·.name = name)).map fun u => (Nat.ofDigitChars 10 whole 0 + decimals ds) * u.nanos

/-- A text that tells a duration, with its parts. -/
structure Tells (s : String) (d : Duration) (r : Reading) : Prop where
  wellFormed : r.WellFormed
  text : s.toList = r.text
  exact : r.nanos = d
  /-- The whole part is the number of whole units. -/
  whole : Nat.ofDigitChars 10 r.whole 0 = d / r.unit.nanos
  /-- No time at all is told in nanoseconds. -/
  zero : d = 0 → r.unit.name = ['n', 's']
  /-- The unit is the largest that has a whole part. -/
  largest : d ≠ 0 → d / r.unit.nanos ≠ 0 ∧ ∀ u ∈ units, d / u.nanos ≠ 0 → u.nanos ≤ r.unit.nanos

/-! ## Reading -/

/-- Digits are read up to what is none. -/
theorem span_isDigit {ds rest : List Char} (hds : ∀ c ∈ ds, c.isDigit = true)
    (hrest : ∀ c ∈ rest.head?, c.isDigit = false) :
    (ds ++ rest).takeWhile Char.isDigit = ds ∧ (ds ++ rest).dropWhile Char.isDigit = rest := by
  rw [List.takeWhile_append_of_pos hds, List.dropWhile_append_of_pos hds]
  cases rest with
  | nil => exact ⟨List.append_nil _, rfl⟩
  | cons c cs =>
    have hc := hrest c rfl
    rw [List.takeWhile_cons_of_neg (by simp [hc]), List.dropWhile_cons_of_neg (by simp [hc])]
    exact ⟨List.append_nil _, rfl⟩

/-- A unit is known by its name. -/
theorem find?_unit : ∀ u ∈ units, units.find? (·.name = u.name) = some u := by decide

/-- No name of a unit begins with a digit or with a dot. -/
theorem head_name {u : TimeUnit} (hu : u ∈ units) :
    ∀ c ∈ u.name.head?, c.isDigit = false ∧ c ≠ '.' := by
  simp only [units, List.mem_cons, List.not_mem_nil, or_false] at hu
  rcases hu with rfl | rfl | rfl | rfl
  all_goals
    rintro c ⟨⟩
    decide

theorem afterDot_of_no_dot {t : List Char} (ht : ∀ c ∈ t.head?, c ≠ '.') : afterDot t = ([], t) := by
  unfold afterDot
  split
  · exact absurd rfl (ht '.' rfl)
  · rfl

/-- **A well-formed text is read as what its parts stand for.** -/
theorem read?_text {r : Reading} (hr : r.WellFormed) : read? r.text = some r.nanos := by
  have hname := head_name hr.unit_mem
  have hnodigit : ∀ c ∈ r.unit.name.head?, c.isDigit = false := fun c hc => (hname c hc).1
  -- what follows the whole part does not begin with a digit, and holds the decimals and the unit
  obtain ⟨rest, hrest, hhead, hafter⟩ : ∃ rest,
      (if r.decimals = [] then [] else '.' :: r.decimals) ++ r.unit.name = rest ∧
      (∀ c ∈ rest.head?, c.isDigit = false) ∧ afterDot rest = (r.decimals, r.unit.name) := by
    refine ⟨_, rfl, ?_⟩
    split
    · rename_i hnil
      rw [hnil]
      exact ⟨hnodigit, afterDot_of_no_dot fun c hc => (hname c hc).2⟩
    · obtain ⟨htake, hdrop⟩ := span_isDigit hr.decimals_digits hnodigit
      refine ⟨?_, Prod.ext htake hdrop⟩
      rintro c ⟨⟩
      decide
  obtain ⟨htake, hdrop⟩ := span_isDigit hr.whole_digits hhead
  rw [read?, Reading.text, hrest, htake, hdrop, hafter]
  simp only [find?_unit r.unit hr.unit_mem, Option.map_some, Reading.nanos]

/-- What a text tells is read from it, so it tells one duration at most. -/
theorem Tells.read?_eq {s : String} {d : Duration} {r : Reading} (h : Tells s d r) :
    read? s.toList = some (d : ℚ) := by
  rw [h.text, read?_text h.wellFormed, h.exact]

/-! ## What is written -/

theorem decimals_concat (cs : List Char) (c : Char) :
    decimals (cs ++ [c]) = decimals cs + digit c / 10 ^ (cs.length + 1) := by
  induction cs with
  | nil => simp [decimals]
  | cons b cs ih =>
    rw [List.cons_append, decimals, ih, decimals, List.length_cons]
    field_simp
    ring

theorem digit_digitChar {n : Nat} (hn : n < 10) : digit n.digitChar = n := by
  rw [digit, Nat.toNat_digitChar_of_lt_ten hn]
  exact Nat.add_sub_cancel_left 48 n

theorem isDigit_digitChar : ∀ n < 10, (Nat.digitChar n).isDigit = true := by decide

/-- **The last digits of a number** are what is left of it by that power of ten. -/
theorem decimals_lastDigits (places n : Nat) :
    decimals (lastDigits places n) = ((n % 10 ^ places : Nat) : ℚ) / 10 ^ places ∧
      (lastDigits places n).length = places ∧ ∀ c ∈ lastDigits places n, c.isDigit = true := by
  induction places generalizing n with
  | zero => simp [lastDigits, decimals, Nat.mod_one]
  | succ places ih =>
    obtain ⟨hvalue, hlength, hdigits⟩ := ih (n / 10)
    have hlt : n % 10 < 10 := Nat.mod_lt _ (by decide)
    refine ⟨?_, by rw [lastDigits, List.length_append, hlength]; rfl, fun c hc => ?_⟩
    · have hsplit : n % 10 ^ (places + 1) = n % 10 + 10 * (n / 10 % 10 ^ places) := by
        rw [Nat.pow_succ', Nat.mod_mul]
      rw [lastDigits, decimals_concat, hvalue, hlength, digit_digitChar hlt, hsplit]
      push_cast
      field_simp
      ring
    · rcases List.mem_append.1 hc with hc | hc
      · exact hdigits c hc
      · rw [List.mem_singleton.1 hc]
        exact isDigit_digitChar _ hlt

/-- Zeros at the end of the decimals count nothing. -/
theorem decimals_dropZeros (ds : List Char) : decimals (dropZeros ds) = decimals ds := by
  induction ds using List.reverseRecOn with
  | nil => rfl
  | append_singleton ds c ih =>
    by_cases hc : (c == '0') = true
    · have hdrop : dropZeros (ds ++ [c]) = dropZeros ds :=
        List.rdropWhile_concat_pos (fun x => x == '0') ds c hc
      obtain rfl := eq_of_beq hc
      rw [hdrop, ih, decimals_concat]
      simp [digit]
    · have hkeep : dropZeros (ds ++ [c]) = ds ++ [c] :=
        List.rdropWhile_concat_neg (fun x => x == '0') ds c hc
      rw [hkeep]

theorem dropZeros_of_append (ds : List Char) : dropZeros ds <+: ds := List.rdropWhile_prefix _ _

/-- No zero is left at the end. -/
theorem getLast?_dropZeros (ds : List Char) : (dropZeros ds).getLast? ≠ some '0' := by
  intro hlast
  have hne : dropZeros ds ≠ [] := by
    rintro hnil
    rw [hnil] at hlast
    cases hlast
  have hnot : ¬ ((dropZeros ds).getLast hne == '0') = true :=
    List.rdropWhile_last_not (fun x => x == '0') ds hne
  rw [List.getLast?_eq_some_getLast hne] at hlast
  exact hnot (beq_iff_eq.2 (Option.some.inj hlast))

/-- A unit is as long as its decimals are fine, and none is finer than a billionth. -/
theorem nanos_unit : ∀ u ∈ units, u.nanos = 10 ^ u.places ∧ u.places ≤ 9 := by decide

theorem unitOf_cases (d : Nat) :
    perSecond ≤ d ∧ unitOf d = ⟨['s'], perSecond, 9⟩ ∨
    (d < perSecond ∧ perMilli ≤ d) ∧ unitOf d = ⟨['m', 's'], perMilli, 6⟩ ∨
    (d < perMilli ∧ 1000 ≤ d) ∧ unitOf d = ⟨['µ', 's'], 1000, 3⟩ ∨
    d < 1000 ∧ unitOf d = ⟨['n', 's'], 1, 0⟩ := by
  unfold unitOf
  by_cases hs : perSecond ≤ d
  · exact Or.inl ⟨hs, if_pos hs⟩
  · rw [if_neg hs]
    by_cases hms : perMilli ≤ d
    · exact Or.inr (Or.inl ⟨⟨Nat.not_le.1 hs, hms⟩, if_pos hms⟩)
    · rw [if_neg hms]
      by_cases hmicro : 1000 ≤ d
      · exact Or.inr (Or.inr (Or.inl ⟨⟨Nat.not_le.1 hms, hmicro⟩, if_pos hmicro⟩))
      · exact Or.inr (Or.inr (Or.inr ⟨Nat.not_le.1 hmicro, if_neg hmicro⟩))

theorem unitOf_mem (d : Duration) : unitOf d ∈ units := by
  rcases unitOf_cases d with ⟨-, hu⟩ | ⟨-, hu⟩ | ⟨-, hu⟩ | ⟨-, hu⟩ <;> rw [hu] <;> decide

/-- **The unit of a duration** is the largest of which there is a whole one, if there is one. -/
theorem unitOf_largest (d : Nat) : (d = 0 → (unitOf d).name = ['n', 's']) ∧
    (d ≠ 0 → (unitOf d).nanos ≤ d ∧ ∀ u ∈ units, u.nanos ≤ d → u.nanos ≤ (unitOf d).nanos) := by
  have hunits : ∀ u ∈ units, u.nanos = perSecond ∨ u.nanos = perMilli ∨ u.nanos = 1000 ∨ u.nanos = 1 := by
    decide
  have hperSecond : perSecond = 1000000000 := rfl
  have hperMilli : perMilli = 1000000 := rfl
  rcases unitOf_cases d with ⟨hd, hu⟩ | ⟨hd, hu⟩ | ⟨hd, hu⟩ | ⟨hd, hu⟩ <;> rw [hu]
  case inr.inr.inr =>
    refine ⟨fun _ => rfl, fun hne => ⟨Nat.pos_of_ne_zero hne, fun u hmem hle => ?_⟩⟩
    have := hunits u hmem
    dsimp only
    omega
  all_goals
    refine ⟨fun hzero => absurd hzero (by omega), fun _ => ⟨by dsimp only; omega, fun u hmem hle => ?_⟩⟩
    have := hunits u hmem
    dsimp only
    omega

/-- The parts of what is written of a duration. -/
def readingOf (d : Duration) : Reading where
  whole := Decimal.ofNat (d / (unitOf d).nanos)
  decimals := dropZeros (lastDigits (unitOf d).places (d % (unitOf d).nanos))
  unit := unitOf d

theorem print_eq (d : Duration) : print d = (readingOf d).text := by
  unfold print fraction Reading.text readingOf
  dsimp only
  rw [List.append_assoc]
  congr 2
  split
  · rename_i hnil
    rw [if_pos hnil]
  · rename_i ds hne
    rw [if_neg hne]

theorem wellFormed_readingOf (d : Duration) : (readingOf d).WellFormed where
  whole_ne_nil := Nat.toDigits_ne_nil
  whole_digits _ hc := Nat.isDigit_of_mem_toDigits (by decide) (by decide) hc
  decimals_digits c hc := (decimals_lastDigits _ _).2.2 c ((dropZeros_of_append _).subset hc)
  decimals_short := (dropZeros_of_append _).length_le.trans
    ((decimals_lastDigits _ _).2.1.le.trans (nanos_unit _ (unitOf_mem d)).2)
  decimals_last := getLast?_dropZeros _
  unit_mem := unitOf_mem d

theorem whole_readingOf (d : Duration) :
    Nat.ofDigitChars 10 (readingOf d).whole 0 = d / (unitOf d).nanos :=
  Nat.ofDigitChars_toDigits (by decide) (by decide)

/-- **Nothing is lost**: the whole units and the decimals of one make up the duration. -/
theorem nanos_readingOf (d : Duration) : (readingOf d).nanos = d := by
  obtain ⟨hnanos, -⟩ := nanos_unit (unitOf d) (unitOf_mem d)
  have hdecimals : decimals (readingOf d).decimals =
      ((d % (unitOf d).nanos : Nat) : ℚ) / (unitOf d).nanos := by
    rw [readingOf, decimals_dropZeros, (decimals_lastDigits _ _).1, ← hnanos, Nat.mod_mod, hnanos]
    push_cast
    rfl
  have hpos : ((unitOf d).nanos : ℚ) ≠ 0 := by
    rw [hnanos]
    positivity
  have hsum : ((d / (unitOf d).nanos : Nat) : ℚ) * (unitOf d).nanos +
      ((d % (unitOf d).nanos : Nat) : ℚ) = d := by
    exact_mod_cast Nat.div_add_mod' d (unitOf d).nanos
  calc (readingOf d).nanos
      = (((d / (unitOf d).nanos : Nat) : ℚ) + ((d % (unitOf d).nanos : Nat) : ℚ) / (unitOf d).nanos) *
          (unitOf d).nanos := by rw [Reading.nanos, whole_readingOf, hdecimals]; rfl
    _ = ((d / (unitOf d).nanos : Nat) : ℚ) * (unitOf d).nanos + ((d % (unitOf d).nanos : Nat) : ℚ) := by
        rw [add_mul, div_mul_cancel₀ _ hpos]
    _ = d := hsum

/-- **What is written of a duration tells it.** -/
theorem tells_describe (d : Duration) : Tells d.describe d (readingOf d) where
  wellFormed := wellFormed_readingOf d
  text := by rw [describe, String.toList_ofList, print_eq]
  exact := nanos_readingOf d
  whole := whole_readingOf d
  zero := (unitOf_largest d).1
  largest hd := by
    obtain ⟨hunit, hmost⟩ := (unitOf_largest d).2 hd
    have hpos : ∀ u ∈ units, 0 < u.nanos := by decide
    have hwhole : ∀ u ∈ units, d / u.nanos ≠ 0 ↔ u.nanos ≤ d := fun u hu => by
      rw [Nat.div_ne_zero_iff]
      exact and_iff_right (hpos u hu).ne'
    exact ⟨(hwhole _ (unitOf_mem d)).2 hunit, fun u hu hd => hmost u hu ((hwhole u hu).1 hd)⟩

/-! ## Where durations are told -/

/-- **Durations are told to the nanosecond.** The result that a check returns tells how long the check has
taken at that step, and a liveness response how long the process has been running; either is read back as
exactly that number of nanoseconds, whatever it is, and so no two durations are told in the same words. -/
theorem reported_exactly :
    (∀ (t : Task) cs now s result elapsed, t.step? cs now = some s →
      s.progress = .returned result elapsed →
        elapsed = now - t.started ∧ (∃ r, Tells result.duration elapsed r) ∧
          read? result.duration.toList = some (elapsed : ℚ)) ∧
    (∀ (l : Liveness) now, (∃ r, Tells (l.respond now).uptime (now - l.started) r) ∧
      read? (l.respond now).uptime.toList = some ((now - l.started : Nat) : ℚ)) ∧
    ∀ s d e r r', Tells s d r → Tells s e r' → d = e := by
  refine ⟨fun t cs now s result elapsed hs hreturned => ?_, fun l now => ?_, fun s d e r r' hd he => ?_⟩
  · obtain ⟨o, -, -, helapsed, hjudge⟩ := Task.step?_returned hs hreturned
    have hduration : result.duration = elapsed.describe := by
      rw [show result = _ from congrArg Prod.fst hjudge]
      exact (judged_judge o cs t.context now t.name elapsed).duration_eq
    have htells := tells_describe elapsed
    rw [← hduration] at htells
    exact ⟨helapsed, ⟨_, htells⟩, htells.read?_eq⟩
  · exact ⟨⟨_, tells_describe _⟩, (tells_describe (now - l.started)).read?_eq⟩
  · have hsame := hd.read?_eq.symm.trans he.read?_eq
    exact_mod_cast Option.some.inj hsame

/-- Zeros within a fraction are told, zeros at its end are not. -/
theorem reported_exactly_with_zeros :
    let t : Task := ⟨"db", ⟨0, none⟩, 5, .running (.finish ⟨.ok, none⟩)⟩
    (∃ r, Tells "1.0500001s" 1050000100 r) ∧ read? "1.0500001s".toList = some 1050000100 ∧
      ∃ s result, t.step? {} 1050000105 = some s ∧ s.progress = .returned result 1050000100 ∧
        result.duration = "1.0500001s" := by
  intro t
  obtain ⟨s, result, hs, hreturned, hduration⟩ : ∃ s result, t.step? {} 1050000105 = some s ∧
      s.progress = .returned result 1050000100 ∧ result.duration = "1.0500001s" :=
    ⟨_, _, rfl, rfl, by decide⟩
  obtain ⟨-, htells, hread⟩ := reported_exactly.1 t {} 1050000105 s result 1050000100 hs hreturned
  rw [hduration] at htells hread
  exact ⟨htells, hread, s, result, hs, hreturned, hduration⟩

end Duration
end HealthService
