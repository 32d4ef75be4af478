import HealthService.Net.Address
import HealthService.Proofs.Json.Scalars
import Mathlib.Data.List.TakeWhile

/-!
# Addresses are read back

The text of an address is understood as that address.  Of the four numbers of version 4 this is clear as
soon as it is of one.  The text of version 6 leaves out the first of the longest runs of zeros: what is
left out is put in again, because the reader counts the groups on both sides of the gap.

* `value_toDigits` — the digits of a number say what it is, whatever the base.
* `readByte_print`, `readGroup_print` — single numbers, with what follows them.
* `readV4_print` — four numbers with points.
* `readGroups_print` — groups with colons, up to the end or to a gap.
* `eq_of_longestRun` — what is left out are zeros.
* `parse?_print` — **the text of an address stands for it**.
-/

namespace HealthService.IpAddress

/-! ## Digits -/

section Digits

variable {digit? : Char → Option Nat} {cs rest : List Char}

/-- Digits are read up to the first character that is none. -/
theorem digits_append (hcs : ∀ c ∈ cs, (digit? c).isSome) (hrest : ∀ c ∈ rest.head?, digit? c = none) :
    digits digit? (cs ++ rest) = (cs.filterMap digit?, rest) := by
  induction cs with
  | nil =>
    cases rest with
    | nil => rfl
    | cons c rest => rw [List.nil_append, digits, hrest c rfl]; rfl
  | cons c cs ih =>
    obtain ⟨hc, hcs⟩ := List.forall_mem_cons.1 hcs
    obtain ⟨d, hd⟩ := Option.isSome_iff_exists.1 hc
    rw [List.cons_append, digits, hd, ih hcs, List.filterMap_cons_some hd]

/-- What follows the digits is the end of the text. -/
theorem digits_suffix (s : List Char) : (digits digit? s).2 <:+ s := by
  induction s with
  | nil => exact List.suffix_rfl
  | cons c s ih =>
    rw [digits]
    cases digit? c with
    | none => exact List.suffix_rfl
    | some d => exact ih.trans (List.suffix_cons c s)

end Digits

theorem value_concat (base : Nat) (ds : List Nat) (d : Nat) :
    value base (ds ++ [d]) = value base ds * base + d := by
  rw [value, List.foldl_append]
  rfl

/-- The digits of a number say what it is. -/
theorem value_toDigits {base : Nat} {digit? : Char → Option Nat} (hbase : 1 < base)
    (hdigit : ∀ n < base, digit? (Nat.digitChar n) = some n) (n : Nat) :
    (∀ c ∈ Nat.toDigits base n, (digit? c).isSome) ∧
      value base ((Nat.toDigits base n).filterMap digit?) = n := by
  induction n using Nat.strong_induction_on with
  | h n ih =>
    by_cases hn : n < base
    · rw [Nat.toDigits_of_lt_base hn]
      simp [hdigit n hn, value]
    · have hlast := hdigit (n % base) (Nat.mod_lt n (by omega))
      obtain ⟨hall, hvalue⟩ := ih (n / base) (Nat.div_lt_self (by omega) hbase)
      rw [Nat.toDigits_of_base_le hbase (by omega)]
      constructor
      · intro c hc
        rcases List.mem_append.1 hc with hc | hc
        · exact hall c hc
        · rw [List.mem_singleton.1 hc, hlast]
          rfl
      · rw [List.filterMap_append, List.filterMap_cons_some hlast, List.filterMap_nil, value_concat,
          hvalue, Nat.div_add_mod']

/-- Every digit counts. -/
theorem length_filterMap_digits {digit? : Char → Option Nat} {cs : List Char}
    (h : ∀ c ∈ cs, (digit? c).isSome) : (cs.filterMap digit?).length = cs.length := by
  rw [List.length_filterMap_eq_countP, List.countP_eq_length.2 h]

/-! ## Bytes -/

theorem decimal?_digitChar : ∀ n < 10, decimal? (Nat.digitChar n) = some n := by decide

theorem eq_zero_of_decimal? {c : Char} (h : decimal? c = some 0) : c = '0' := by
  unfold decimal? at h
  split at h
  · rename_i hdigit
    have hle : c.toNat ≤ 48 := Nat.sub_eq_zero_iff_le.1 (Option.some.inj h)
    have hge : 48 ≤ c.toNat := UInt32.le_iff_toNat_le.1 hdigit.1
    exact Char.toNat_inj.1 (Nat.le_antisymm hle hge)
  · cases h

/-- **A byte is read back**, if no digit follows. -/
theorem readByte_print (a : UInt8) {rest : List Char} (hrest : ∀ c ∈ rest.head?, decimal? c = none) :
    readByte (Decimal.ofNat a.toNat ++ rest) = some (a, rest) := by
  obtain ⟨hall, hvalue⟩ := value_toDigits (by decide) decimal?_digitChar a.toNat
  have hlength := length_filterMap_digits hall
  have hshort : (Nat.toDigits 10 a.toNat).length ≤ 3 :=
    (Nat.length_toDigits_le_iff (by decide) (by decide)).2 (a.toNat_lt.trans (by decide))
  rw [readByte, Decimal.ofNat, digits_append hall hrest]
  dsimp only
  rw [if_neg, hvalue, UInt8.ofNat_toNat]
  rintro (hnone | hlong | ⟨hmany, hzero⟩ | hlarge)
  · rw [hnone] at hlength
    exact Nat.toDigits_ne_nil (List.length_eq_zero_iff.1 hlength.symm)
  · omega
  · have hpos : 0 < a.toNat := by
      refine Nat.pos_of_ne_zero fun hnone => ?_
      rw [hnone] at hmany
      exact absurd hmany (by decide)
    obtain ⟨c, cs, hdigits, hc⟩ := Json.head_toDigits hpos
    rw [hdigits] at hall hzero
    obtain ⟨d, hd⟩ := Option.isSome_iff_exists.1 (hall c List.mem_cons_self)
    rw [List.filterMap_cons_some hd, List.head?_cons] at hzero
    exact hc (eq_zero_of_decimal? (hd.trans hzero))
  · have := a.toNat_lt
    omega

/-- **Four numbers with points are read back**, if no digit follows. -/
theorem readV4_print (a b c d : UInt8) {rest : List Char}
    (hrest : ∀ c ∈ rest.head?, decimal? c = none) :
    readV4 (printV4 a b c d ++ rest) = some ((a, b, c, d), rest) := by
  have hpoint : ∀ s : List Char, ∀ c ∈ ('.' :: s).head?, decimal? c = none := by
    intro s c hc
    obtain rfl := Option.some.inj hc
    rfl
  simp only [printV4, List.append_assoc, List.cons_append]
  rw [readV4, readByte_print a (hpoint _)]
  show (readByte _ >>= _) = _
  rw [readByte_print b (hpoint _)]
  show (readByte _ >>= _) = _
  rw [readByte_print c (hpoint _)]
  show (readByte _ >>= _) = _
  rw [readByte_print d hrest]
  rfl

/-! ## Groups -/

theorem hex?_digitChar : ∀ n < 16, hex? (Nat.digitChar n) = some n := by decide

/-- **A group is read back**, if no digit follows. -/
theorem readGroup_print (g : UInt16) {rest : List Char} (hrest : ∀ c ∈ rest.head?, hex? c = none) :
    readGroup (printGroup g ++ rest) = some (g, rest) := by
  obtain ⟨hall, hvalue⟩ := value_toDigits (by decide) hex?_digitChar g.toNat
  have hlength := length_filterMap_digits hall
  have hlong : (Nat.toDigits 16 g.toNat).length ≤ 4 :=
    (Nat.length_toDigits_le_iff (by decide) (by decide)).2 g.toNat_lt
  have hne : Nat.toDigits 16 g.toNat ≠ [] := Nat.toDigits_ne_nil
  rw [readGroup, printGroup, digits_append hall hrest]
  dsimp only
  rw [if_neg, hvalue, UInt16.ofNat_toNat]
  rintro (h | h)
  · rw [h] at hlength
    exact hne (List.length_eq_zero_iff.1 hlength.symm)
  · omega

/-- What follows the last group that is read: nothing, or a gap. -/
def EndsGroups (rest : List Char) : Prop := rest = [] ∨ ∃ s, rest = ':' :: ':' :: s

/-- Groups each of which follows a colon. -/
def printMore (gs : List UInt16) : List Char := gs.flatMap fun g => ':' :: printGroup g

theorem printGroups_cons (g : UInt16) (gs : List UInt16) :
    printGroups (g :: gs) = printGroup g ++ printMore gs := by
  induction gs generalizing g with
  | nil => exact (List.append_nil _).symm
  | cons g' gs ih =>
    rw [printGroups, ih g']
    · rfl
    · simp

/-- Groups that are the first of all, or follow others. -/
def printFrom : Bool → List UInt16 → List Char
  | true, gs => printGroups gs
  | false, gs => printMore gs

theorem readColon_printFrom (first : Bool) (g : UInt16) (gs : List UInt16) (rest : List Char) :
    readColon first (printFrom first (g :: gs) ++ rest) =
      some (printGroup g ++ (printMore gs ++ rest)) := by
  rw [← List.append_assoc]
  cases first with
  | true => rw [printFrom, printGroups_cons]; rfl
  | false => rfl

theorem point_notMem_printGroup (g : UInt16) : '.' ∉ printGroup g := by
  intro h
  have hdigit := (value_toDigits (by decide) hex?_digitChar g.toNat).1 '.' h
  cases hdigit

theorem point_notMem_printMore (gs : List UInt16) : '.' ∉ printMore gs := by
  intro h
  obtain ⟨g, -, h⟩ := List.mem_flatMap.1 h
  rcases List.mem_cons.1 h with h | h
  · cases h
  · exact point_notMem_printGroup g h

theorem readByte_suffix {s rest : List Char} {a : UInt8} (h : readByte s = some (a, rest)) :
    rest <:+ s := by
  rw [readByte] at h
  dsimp only at h
  split at h
  · cases h
  · obtain ⟨-, rfl⟩ := Prod.mk.inj (Option.some.inj h)
    exact digits_suffix s

theorem readDotByte_of_notMem {s : List Char} (h : '.' ∉ s) : readDotByte s = none := by
  unfold readDotByte
  split
  · exact absurd List.mem_cons_self h
  · rfl

/-- A text without a point is no address of version 4. -/
theorem readV4_of_notMem {s : List Char} (h : '.' ∉ s) : readV4 s = none := by
  rw [readV4]
  cases hbyte : readByte s with
  | none => rfl
  | some r =>
    obtain ⟨a, rest⟩ := r
    show (readDotByte rest >>= _) = none
    rw [readDotByte_of_notMem fun hrest => h ((readByte_suffix hbyte).subset hrest)]
    rfl

/-- No group is read from a text without one. -/
theorem readGroups_ends (n : Nat) (first : Bool) {rest : List Char} (h : EndsGroups rest) :
    readGroups n first rest = ([], false, rest) := by
  cases n with
  | zero => rfl
  | succ n => rcases h with rfl | ⟨s, rfl⟩ <;> cases first <;> cases n <;> rfl

theorem hex?_head_printMore {gs : List UInt16} {rest : List Char} (h : EndsGroups rest) :
    ∀ c ∈ (printMore gs ++ rest).head?, hex? c = none := by
  intro c hc
  cases gs with
  | nil =>
    rcases h with rfl | ⟨s, rfl⟩
    · cases hc
    · obtain rfl := Option.some.inj hc
      rfl
  | cons g gs =>
    obtain rfl := Option.some.inj hc
    rfl

/-- One group is read, with the others after it. -/
theorem readGroups_group (n : Nat) (first : Bool) (g : UInt16) {s rest : List Char}
    (hcolon : readColon first s = some (printGroup g ++ rest))
    (hfour : readV4 (printGroup g ++ rest) = none)
    (hrest : ∀ c ∈ rest.head?, hex? c = none) :
    readGroups (n + 1) first s =
      (g :: (readGroups n false rest).1, (readGroups n false rest).2) := by
  rw [readGroups, hcolon]
  dsimp only
  rw [hfour, ite_self]
  dsimp only
  rw [readGroup_print g hrest]

/-- **Groups with colons between them are read back**, up to the end or to a gap. -/
theorem readGroups_print (first : Bool) {gs : List UInt16} {n : Nat} (hn : gs.length ≤ n)
    {rest : List Char} (hends : EndsGroups rest) (hpoint : '.' ∉ rest) :
    readGroups n first (printFrom first gs ++ rest) = (gs, false, rest) := by
  induction gs generalizing n first with
  | nil => cases first <;> exact readGroups_ends n _ hends
  | cons g gs ih =>
    obtain ⟨n, rfl⟩ : ∃ m, n = m + 1 := ⟨n - 1, by simp at hn; omega⟩
    have hmore : '.' ∉ printGroup g ++ (printMore gs ++ rest) := by
      simp [point_notMem_printGroup, point_notMem_printMore, hpoint]
    rw [readGroups_group n first g (readColon_printFrom first g gs rest) (readV4_of_notMem hmore)
      (hex?_head_printMore hends)]
    have hrest : readGroups n false (printMore gs ++ rest) = (gs, false, rest) :=
      ih false (Nat.le_of_succ_le_succ hn)
    rw [hrest]

/-! ## Gaps -/

/-- **What is left out are zeros**: the longest run is a part of the groups. -/
theorem eq_of_longestRun (i : Nat) (gs : List UInt16) :
    (longestRun i gs).2 = 0 ∨ ∃ before after, (longestRun i gs).1 = i + before.length ∧
      gs = before ++ (List.replicate (longestRun i gs).2 0 ++ after) := by
  induction gs generalizing i with
  | nil => exact Or.inl rfl
  | cons g gs ih =>
    rw [longestRun]
    split
    · refine Or.inr ⟨[], (g :: gs).dropWhile (· = 0), rfl, ?_⟩
      have hzeros : (g :: gs).takeWhile (· = 0) = List.replicate (zerosAtHead (g :: gs)) 0 :=
        List.eq_replicate_of_mem fun x hx => by simpa using List.mem_takeWhile_imp hx
      rw [List.nil_append, ← hzeros, List.takeWhile_append_dropWhile]
    · rcases ih (i + 1) with hnone | ⟨before, after, hplace, hgroups⟩
      · exact Or.inl hnone
      · refine Or.inr ⟨g :: before, after, ?_, congrArg (g :: ·) hgroups⟩
        rw [hplace, List.length_cons]
        omega

theorem point_notMem_printGroups (gs : List UInt16) : '.' ∉ printGroups gs := by
  cases gs with
  | nil => exact List.not_mem_nil
  | cons g gs => simp [printGroups_cons, point_notMem_printGroup, point_notMem_printMore]

/-- A gap is filled with zeros. -/
theorem readV6_gap {before after : List UInt16} {s rest rest' : List Char} {last : Bool}
    (hbefore : readGroups 8 true s = (before, false, ':' :: ':' :: rest)) (hlength : before.length ≠ 8)
    (hafter : readGroups (7 - before.length) true rest = (after, last, rest')) :
    readV6 s = some (before ++ List.replicate (8 - before.length - after.length) 0 ++ after, rest') := by
  rw [readV6, hbefore]
  dsimp only
  rw [if_neg hlength, if_neg Bool.false_ne_true]
  simp only [hafter]

/-- **Eight groups are read back**, whether some are left out or none. -/
theorem readV6_print {gs : List UInt16} (hlength : gs.length = 8) :
    readV6 (printV6 gs) = some (gs, []) := by
  have hrun := eq_of_longestRun 0 gs
  rw [printV6]
  generalize longestRun 0 gs = run at hrun
  obtain ⟨start, length⟩ := run
  dsimp only at hrun ⊢
  split
  · obtain ⟨before, after, rfl, rfl⟩ := hrun.resolve_left (by omega)
    simp only [List.length_append, List.length_replicate] at hlength
    have hbefore : (before ++ (List.replicate length 0 ++ after)).take (0 + before.length) = before := by
      simp
    have hafter : (before ++ (List.replicate length 0 ++ after)).drop (0 + before.length + length) =
        after := by
      simp
    have hpoint : '.' ∉ ':' :: ':' :: printGroups after := by
      simp [point_notMem_printGroups]
    have htail : readGroups (7 - before.length) true (printGroups after ++ []) = (after, false, []) :=
      readGroups_print true (by omega) (Or.inl rfl) List.not_mem_nil
    rw [List.append_nil] at htail
    have hhead : readGroups 8 true (printGroups before ++ ':' :: ':' :: printGroups after) =
        (before, false, ':' :: ':' :: printGroups after) :=
      readGroups_print true (by omega) (Or.inr ⟨_, rfl⟩) hpoint
    rw [hbefore, hafter, readV6_gap hhead (by omega) htail,
      show 8 - before.length - after.length = length by omega, List.append_assoc]
  · have hall : readGroups 8 true (printGroups gs ++ []) = (gs, false, []) :=
      readGroups_print true (by omega) (Or.inl rfl) List.not_mem_nil
    rw [List.append_nil] at hall
    rw [readV6, hall]
    dsimp only
    rw [if_pos hlength]

/-! ## Whole addresses -/

theorem groupOf_bytes (x : UInt16) :
    groupOf (UInt8.ofNat (x.toNat / 256)) (UInt8.ofNat (x.toNat % 256)) = x := by
  have hx := x.toNat_lt
  rw [groupOf, UInt8.toNat_ofNat_of_lt' (show _ < 256 by omega), UInt8.toNat_ofNat_of_lt' (show _ < 256 by omega),
    Nat.div_add_mod']
  exact UInt16.ofNat_toNat

theorem point_notMem_printV6 (gs : List UInt16) : '.' ∉ printV6 gs := by
  rw [printV6]
  dsimp only
  split <;> simp [point_notMem_printGroups]

/-- The last two groups may be written like an address of version 4. -/
theorem readGroups_four (n : Nat) (a b c d : UInt8) :
    readGroups (n + 2) false (':' :: printV4 a b c d) = ([groupOf a b, groupOf c d], true, []) := by
  have hread : readV4 (printV4 a b c d ++ []) = some ((a, b, c, d), []) :=
    readV4_print a b c d (by simp)
  rw [List.append_nil] at hread
  rw [readGroups, readColon, if_neg Bool.false_ne_true]
  dsimp only
  rw [if_neg (Nat.succ_ne_zero n), hread]

theorem parse?_mapped (a b c d : UInt8) :
    parse? ([':', ':', 'f', 'f', 'f', 'f', ':'] ++ printV4 a b c d) =
      some (.v6 [0, 0, 0, 0, 0, 0xFFFF, groupOf a b, groupOf c d] rfl) := by
  have hcolon : ∀ x ∈ (':' :: printV4 a b c d).head?, hex? x = none := by
    intro x hx
    obtain rfl := Option.some.inj hx
    rfl
  have hgroup : readGroups 7 true (['f', 'f', 'f', 'f', ':'] ++ printV4 a b c d) =
      (0xFFFF :: (readGroups 6 false (':' :: printV4 a b c d)).1,
        (readGroups 6 false (':' :: printV4 a b c d)).2) :=
    readGroups_group 6 true 0xFFFF rfl rfl hcolon
  rw [readGroups_four] at hgroup
  have hread : readV6 ([':', ':', 'f', 'f', 'f', 'f', ':'] ++ printV4 a b c d) =
      some ([0, 0, 0, 0, 0, 0xFFFF, groupOf a b, groupOf c d], []) :=
    readV6_gap (readGroups_ends 8 true (Or.inr ⟨_, rfl⟩)) (by decide) hgroup
  have hnone : readV4 ([':', ':', 'f', 'f', 'f', 'f', ':'] ++ printV4 a b c d) = none := rfl
  rw [parse?, hnone]
  dsimp only
  rw [parseV6?, hread]
  rfl

/-- **The text of an address stands for it.** -/
theorem parse?_print (a : IpAddress) : parse? a.print = some a := by
  cases a with
  | v4 a b c d =>
    have hread : readV4 (printV4 a b c d ++ []) = some ((a, b, c, d), []) :=
      readV4_print a b c d (by simp)
    rw [List.append_nil] at hread
    rw [print, parse?, hread]
  | v6 gs hlength =>
    by_cases hmapped : ∃ x y, gs = [0, 0, 0, 0, 0, 0xFFFF, x, y]
    · obtain ⟨x, y, rfl⟩ := hmapped
      refine (parse?_mapped _ _ _ _).trans ?_
      simp only [groupOf_bytes]
    · rw [print]
      · rw [parse?, readV4_of_notMem (point_notMem_printV6 gs)]
        dsimp only
        rw [parseV6?, readV6_print hlength]
        dsimp only
        rw [dif_pos hlength]
      · intro x y _ h _
        exact hmapped ⟨x, y, h⟩

end HealthService.IpAddress
