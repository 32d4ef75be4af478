import HealthService.Proofs.Format.Meanings

/-!
# The texts of documents

One document has many texts, and the reader of a format makes the same of all of them.

* `Format.reads_of_interpret` — **whichever text of a document is read**, its meaning comes out; the
  induction is on the format, with the members of a record one after the other.
* `Format.tells_interpret` — **whatever text is accepted** is that of a document with what was read as its
  meaning, for formats without values of unknown shape.
* `Format.ofJson_eq_ok_iff` — so a text is accepted just if it is one of a document with a meaning.
-/

namespace HealthService

open Json

/-! ## One kind of format at a time -/

namespace Format

variable {α : Type} {levels : Nat}

theorem readChoice_text {values : List (String × α)} {s : String} {a : α} (ha : values.lookup s = some a)
    {b r : Bytes} (h : readHead b = .ok (.scalar (.text s) r)) : readChoice values levels b = .ok (a, r) := by
  obtain ⟨ws, b', hws, rfl, htext⟩ := readHead_text_iff.1 h
  unfold readChoice
  rw [skipBlank_append hws, skipBlank_of_not (by decide)]
  dsimp only
  rw [if_pos rfl]
  show (readText b').bind _ = _
  rw [htext]
  show (pick values s r).bind _ = _
  rw [pick, ha]
  rfl

theorem readChoice_object {values : List (String × α)} {s : String} {a : α}
    (ha : values.lookup s = some a) {t : Bytes} (h : RendersMembers true [(s, .scalar .null)] t)
    {ws : Bytes} (hws : Blanks ws) (r : Bytes) :
    readChoice values (levels + 1) (ws ++ 0x7B :: (t ++ r)) = .ok (a, r) := by
  cases h with
  | @member _ sep l ws₁ ws₂ t u key _ _ hs hkey hws₁ hws₂ ht hu =>
    cases hu with
    | @close _ ws₃ hws₃ =>
      have hhead : ∀ b, readHead (sep ++ 0x22 :: (l ++ b)) = .ok (.scalar (.text s) b) :=
        fun b => readHead_text_iff.2 ⟨sep, _, hs, rfl, hkey b⟩
      have hstops : Stops (ws₃ ++ 0x7D :: r) := stops_blanks hws₃ (stops_cons _ (by decide))
      unfold readChoice
      rw [skipBlank_append hws, skipBlank_of_not (by decide)]
      dsimp only
      rw [if_neg (by decide), if_pos rfl, if_neg (by omega)]
      simp only [List.append_assoc, List.cons_append, List.nil_append]
      show (readHead _).bind _ = _
      rw [hhead]
      show (pick values s _).bind _ = _
      rw [pick, ha]
      show (readColon _).bind _ = _
      rw [readColon_eq_ok_iff.2 ⟨ws₁, hws₁, rfl⟩]
      show (readHead _).bind _ = _
      rw [ht.readHead_scalar hws₂ hstops]
      dsimp only [Except.bind]
      rw [skipBlank_append hws₃, skipBlank_of_not (by decide)]
      rfl

theorem reads_text {d : Doc} {s : String} (h : d.text? = some s) :
    Reads (Format.text.readJson levels) d s := by
  obtain rfl := Doc.text?_eq_some_iff.1 h
  intro ws t r hws ht hr
  rw [readJson, ht.readHead_scalar hws hr]
  rfl

theorem reads_bool {d : Doc} {b : Bool} (h : d.bool? = some b) :
    Reads (Format.bool.readJson levels) d b := by
  obtain rfl := Doc.bool?_eq_some_iff.1 h
  intro ws t r hws ht hr
  rw [readJson, ht.readHead_scalar hws hr]
  rfl

theorem reads_unsigned {bits : Nat} {d : Doc} {n : Int} {k : Fin (Nat.pow 2 bits)} (hn : d.int? = some n)
    (hk : (boundInt bits n).toOption = some k) : Reads ((Format.unsigned bits).readJson levels) d k := by
  obtain ⟨w, rfl, rfl⟩ := Doc.int?_eq_some_iff.1 hn
  intro ws t r hws ht hr
  rw [readJson, readUnsigned, ht.readHead_scalar hws hr]
  dsimp only [bind, Except.bind]
  rw [toOption_eq_some_iff.1 hk]

theorem reads_parsed {expected : String} {read : String → Except String α} {write : α → String} {d : Doc}
    {s : String} {a : α} (hs : d.text? = some s) (ha : (read s).toOption = some a) :
    Reads ((Format.parsed expected read write).readJson levels) d a := by
  obtain rfl := Doc.text?_eq_some_iff.1 hs
  intro ws t r hws ht hr
  rw [readJson, readParsed, ht.readHead_scalar hws hr]
  dsimp only [bind, Except.bind]
  rw [toOption_eq_some_iff.1 ha]

theorem reads_choice {values : List (String × α)} {nameOf : α → String}
    {hvalues : ∀ a, values.lookup (nameOf a) = some a} {d : Doc} {s : String} {a : α}
    (hs : d.choice? = some s) (ha : values.lookup s = some a) (hlevels : 1 ≤ levels) :
    Reads ((Format.choice values nameOf hvalues).readJson levels) d a := by
  intro ws t r hws ht hr
  rw [readJson]
  rcases Doc.choice?_eq_some_iff.1 hs with rfl | rfl
  · exact readChoice_text ha (ht.readHead_scalar hws hr)
  · obtain ⟨l, rfl⟩ := Nat.exists_eq_add_of_le' hlevels
    cases ht with
    | object ht => exact readChoice_object ha ht hws r

theorem reads_none {format : Format α} : Reads (format.optional.readJson levels) (.scalar .null) none := by
  intro ws t r hws ht hr
  obtain ⟨t', rfl⟩ := ht.eq_null_iff.1 rfl
  have hhead := ht.readHead_scalar blanks_nil hr
  rw [readJson, skipBlank_append hws, ht.skipBlank r, List.cons_append]
  show (readWord _ (t' ++ r)).bind _ = _
  obtain ⟨r', hword, heq⟩ : ∃ r', readWord [0x75, 0x6C, 0x6C] (t' ++ r) = .ok r' ∧
      Except.ok (Head.scalar .null r') = .ok (.scalar .null r) := bind_eq_ok_iff.1 hhead
  obtain ⟨-, rfl⟩ := Head.scalar.inj (Except.ok.inj heq)
  rw [hword]
  rfl

theorem reads_some {format : Format α} {d : Doc} {a : α} (hnull : ¬ d.isNull = true) (hd : d ≠ .ignored)
    (h : Reads (format.readJson levels) d a) : Reads (format.optional.readJson levels) d (some a) := by
  intro ws t r hws ht hr
  have hword : ∀ t', t ≠ 0x6E :: t' := by
    rintro t' rfl
    cases d with
    | scalar s => exact hnull (Doc.isNull_iff.2 (congrArg Doc.scalar (ht.eq_null_iff.2 ⟨t', rfl⟩)))
    | ignored => exact hd rfl
    | list => cases ht
    | object => cases ht
  have hread := h ws t r hws ht hr
  have hskip := ht.skipBlank r
  obtain ⟨c, t', rfl, -⟩ := ht.begins
  rw [readJson, skipBlank_append hws, hskip]
  split
  · rename_i heq
    exact absurd (congrArg (· :: t') (List.cons.inj heq).1) (hword t')
  · rw [hread]
    rfl

theorem reads_list {item : Format α} {ds : List Doc} {as : List α}
    (h : List.Forall₂ (Reads (item.readJson levels)) ds as) :
    Reads (item.list.readJson (levels + 1)) (.list ds) as := by
  intro ws t r hws ht hr
  cases ht with
  | @list _ t ht =>
    rw [readJson, List.cons_append, readHead_list hws]
    have hfirst : ([] : List α).isEmpty = true := rfl
    exact readItems_renders h hfirst ht (ht.length_lt_cons 0x5B r) r

variable {σ : Type} {name : String} {members : Members σ} {build : σ → α} {parts : α → σ}
  {hbuild : ∀ a, build (parts a) = a}

/-- A record that is written as an object. -/
theorem reads_object {ms : List (String × Doc)} {s : σ} (hs : members.collect ms = some s)
    (hvalue : ∀ key d s s', members.absorb s key d = some s' →
      ∀ ws, Blanks ws → Reads (fun b => members.value levels key s (ws ++ 0x3A :: b)) d s') :
    Reads ((Format.record name members build parts hbuild).readJson (levels + 1)) (.object ms) (build s) := by
  intro ws t r hws ht hr
  obtain ⟨state, hput, hfinish⟩ := members.collect_eq_some_iff.1 hs
  cases ht with
  | @object _ t ht =>
    rw [readJson, List.cons_append, readHead_object hws]
    show (readMembers (members.value levels) _ true members.start (t ++ r)).bind _ = _
    rw [readMembers_renders hvalue hput ht (ht.length_lt_cons _ r) r]
    dsimp only [Except.bind]
    rw [hfinish]

/-- A record that is written as a list. -/
theorem reads_line {ds : List Doc} {s : σ} (hclosed : members.isOpen = false)
    (h : ∀ t r, RendersItems true ds t → ∃ rest,
      members.readItems (Members.describe name members.count) levels 0 (t ++ r) = .ok (s, rest) ∧
        endList rest = .ok r) :
    Reads ((Format.record name members build parts hbuild).readJson (levels + 1)) (.list ds) (build s) := by
  intro ws t r hws ht hr
  cases ht with
  | @list _ t ht =>
    obtain ⟨rest, hread, hend⟩ := h t r ht
    rw [readJson, List.cons_append, readHead_list hws]
    dsimp only [bind, Except.bind]
    rw [if_neg (by simp [hclosed]), List.drop_one, List.tail_cons, hread]
    dsimp only
    rw [hend]

end Format

/-! ## Whatever the text -/

/-- A record that keeps other members is not written as a list. -/
theorem Members.isOpen_of_line : {σ : Type} → (m : Members σ) → {ds : List Doc} → {s : σ} →
    m.line ds = some s → m.isOpen = false
  | _, .nil, _, _, _ => rfl
  | _, .cons _ _ _ _ rest, _, _, h => by
    obtain ⟨a, -, h⟩ := Option.bind_eq_some_iff.1 h
    obtain ⟨s, hs, -⟩ := Option.bind_eq_some_iff.1 h
    exact rest.isOpen_of_line hs
  | _, .others, _, _, h => by cases h

mutual

/-- **Whichever text of a document is read**, its meaning comes out. -/
theorem Format.reads_of_interpret : {α : Type} → (format : Format α) → {levels : Nat} → {d : Doc} →
    {a : α} → format.depth ≤ levels → format.interpret d = some a → Reads (format.readJson levels) d a
  | _, .text, _, _, _, _, h => Format.reads_text h
  | _, .bool, _, _, _, _, h => Format.reads_bool h
  | _, .unsigned bits, levels, d, k, _, h => by
    obtain ⟨n, hn, hk⟩ := Option.bind_eq_some_iff.1 h
    exact Format.reads_unsigned hn hk
  | _, .parsed _ _ _, _, _, _, _, h => by
    obtain ⟨s, hs, ha⟩ := Option.bind_eq_some_iff.1 h
    exact Format.reads_parsed hs ha
  | _, .choice _ _ _, _, _, _, hlevels, h => by
    obtain ⟨s, hs, ha⟩ := Option.bind_eq_some_iff.1 h
    exact Format.reads_choice hs ha hlevels
  | _, .optional format, levels, d, o, hlevels, h => by
    replace h : (if d.isNull then some none else (format.interpret d).map some) = some o := h
    split at h
    · rename_i hnull
      obtain rfl := Doc.isNull_iff.1 hnull
      obtain rfl := Option.some.inj h
      exact Format.reads_none
    · rename_i hnull
      obtain ⟨a, ha, rfl⟩ := Option.map_eq_some_iff.1 h
      refine Format.reads_some hnull ?_ (format.reads_of_interpret hlevels ha)
      rintro rfl
      cases format.interpret_ignored.symm.trans ha
  | _, .list item, levels + 1, d, as, hlevels, h => by
    obtain ⟨ds, hds, has⟩ := Option.bind_eq_some_iff.1 h
    obtain rfl := Doc.items?_eq_some_iff.1 hds
    refine Format.reads_list ((Format.mapM_eq_some_iff.1 has).imp fun d a ha => ?_)
    exact item.reads_of_interpret (Nat.le_of_succ_le_succ hlevels) ha
  | _, .any, _, _, _, _, h => by cases h
  | _, .record name members build parts hbuild, levels + 1, .list ds, a, hlevels, h => by
    obtain ⟨s, hs, rfl⟩ := Option.map_eq_some_iff.1 h
    exact Format.reads_line (members.isOpen_of_line hs) fun t r ht =>
      members.reads_of_line _ 0 (Nat.le_of_succ_le_succ hlevels) hs ht r
  | _, .record name members build parts hbuild, levels + 1, .object ms, a, hlevels, h => by
    obtain ⟨s, hs, rfl⟩ := Option.map_eq_some_iff.1 h
    exact Format.reads_object hs fun key d s s' hput ws hws =>
      members.reads_of_absorb (Nat.le_of_succ_le_succ hlevels) hput hws
  | _, .record _ _ _ _ _, _, .scalar _, _, _, h => by cases h
  | _, .record _ _ _ _ _, _, .ignored, _, _, h => by cases h
  | _, .map format make part hmake, levels, d, b, hlevels, h => by
    obtain ⟨a, ha, rfl⟩ := Option.map_eq_some_iff.1 h
    intro ws t r hws ht hr
    rw [Format.readJson, format.reads_of_interpret hlevels ha ws t r hws ht hr]
    rfl

/-- Whichever text of a member is read, it does the same to the state of a record. -/
theorem Members.reads_of_absorb : {σ : Type} → (m : Members σ) → {levels : Nat} → {s s' : m.State} →
    {k : String} → {d : Doc} → m.depth ≤ levels → m.absorb s k d = some s' → {ws : Bytes} → Blanks ws →
    Reads (fun b => m.value levels k s (ws ++ 0x3A :: b)) d s'
  | _, .nil, levels, s, s', k, d, _, h, ws, hws => by
    replace h : (if d.isIgnored then some s else none) = some s' := h
    split at h
    · rename_i hignored
      obtain rfl := Doc.isIgnored_iff.1 hignored
      obtain rfl := Option.some.inj h
      intro ws' t r hws' ht hr
      exact bind_eq_ok_iff.2 ⟨_, readColon_eq_ok_iff.2 ⟨ws, hws, rfl⟩,
        bind_eq_ok_iff.2 ⟨r, ht.skipValue hws' hr, rfl⟩⟩
    · cases h
  | _, .cons key format fallback hidden rest, levels, s, s', k, d, hlevels, h, ws, hws => by
    obtain ⟨o, t⟩ : Option _ × rest.State := s
    replace hlevels : max format.depth rest.depth ≤ levels := hlevels
    intro ws' u r hws' hu hr
    show ((Members.cons key format fallback hidden rest).offer k (o, t)).read k (o, t) levels _ = _
    by_cases hk : k = key
    · subst hk
      cases o with
      | some a => cases (Members.absorb_cons_repeated a t d).symm.trans h
      | none =>
        obtain ⟨a, ha, rfl⟩ := Option.map_eq_some_iff.1 ((Members.absorb_cons_self t d).symm.trans h)
        have hread := format.reads_of_interpret (le_of_max_le_left hlevels) ha ws' u r hws' hu hr
        rw [Members.offer_cons_self]
        exact bind_eq_ok_iff.2 ⟨_, readColon_eq_ok_iff.2 ⟨ws, hws, rfl⟩,
          bind_eq_ok_iff.2 ⟨(a, r), hread, rfl⟩⟩
    · obtain ⟨t', ht', rfl⟩ := Option.map_eq_some_iff.1 ((Members.absorb_cons_of_ne hk o t d).symm.trans h)
      rw [Members.offer_cons_of_ne hk]
      exact Offer.read_lift_iff.2 ⟨t', rfl,
        rest.reads_of_absorb (le_of_max_le_right hlevels) ht' hws ws' u r hws' hu hr⟩
  | _, .others, _, _, _, _, _, _, h, _, _ => by cases h

/-- Whichever text of a record is read that is written as a list, its members come out. -/
theorem Members.reads_of_line : {σ : Type} → (m : Members σ) → {levels : Nat} → (description : String) →
    (index : Nat) → {ds : List Doc} → {s : σ} → m.depth ≤ levels → m.line ds = some s → {t : Bytes} →
    RendersItems (index = 0) ds t → (r : Bytes) →
    ∃ rest, m.readItems description levels index (t ++ r) = .ok (s, rest) ∧ endList rest = .ok r
  | _, .nil, levels, description, index, [], s, _, h, t, ht, r => by
    cases ht with
    | @close _ ws hws =>
      refine ⟨ws ++ 0x5D :: r, by rw [List.append_assoc]; rfl, ?_⟩
      unfold endList
      rw [skipBlank_append hws, skipBlank_of_not (by decide)]
      rfl
  | _, .nil, _, _, _, _ :: _, _, _, h, _, _, _ => by cases h
  | _, .cons key format fallback hidden rest, levels, description, index, [], s, hlevels, h, t, ht, r => by
    obtain ⟨a, ha, h⟩ := Option.bind_eq_some_iff.1 h
    obtain ⟨s', hs, h⟩ := Option.bind_eq_some_iff.1 h
    obtain rfl := Option.some.inj h
    obtain rfl : fallback = some a := ha
    replace hlevels : max format.depth rest.depth ≤ levels := hlevels
    cases ht with
    | @close _ ws hws =>
      obtain ⟨after, hread, hend⟩ := rest.reads_of_line description (index + 1)
        (le_of_max_le_right hlevels) hs (RendersItems.close blanks_nil) r
      refine ⟨after, ?_, hend⟩
      rw [List.append_assoc, List.singleton_append, Members.readItems, nextItem_close hws]
      show (rest.readItems description levels (index + 1) (0x5D :: r)).bind _ = _
      replace hread : rest.readItems description levels (index + 1) (0x5D :: r) = .ok (s', after) := hread
      rw [hread]
      rfl
  | _, .cons key format fallback hidden rest, levels, description, index, d :: ds, s, hlevels, h, t, ht,
      r => by
    obtain ⟨a, ha, h⟩ := Option.bind_eq_some_iff.1 h
    obtain ⟨s', hs, h⟩ := Option.bind_eq_some_iff.1 h
    obtain rfl := Option.some.inj h
    replace hlevels : max format.depth rest.depth ≤ levels := hlevels
    cases ht with
    | @item _ sep t u _ _ hsep hd hu =>
      have hfirst : decide (index + 1 = 0) = false := by simp
      obtain ⟨after, hread, hend⟩ := rest.reads_of_line description (index + 1)
        (le_of_max_le_right hlevels) hs (hfirst ▸ hu) r
      have hitem := format.reads_of_interpret (le_of_max_le_left hlevels) ha [] t (u ++ r) blanks_nil hd
        (hu.stops r)
      refine ⟨after, ?_, hend⟩
      rw [List.append_assoc, List.append_assoc, Members.readItems, nextItem_more hsep hd]
      show (format.readJson levels (t ++ (u ++ r))).bind _ = _
      rw [List.nil_append] at hitem
      rw [hitem]
      show (rest.readItems description levels (index + 1) (u ++ r)).bind _ = _
      rw [hread]
      rfl
  | _, .others, _, _, _, _, _, _, h, _, _, _ => by cases h

end

/-! ## What is accepted of one kind of format -/

namespace Format

variable {α : Type} {levels : Nat}

/-- What is read of a value without parts is told by that value. -/
theorem tells_of_readHead {read : Bytes → Except Fault (α × Bytes)} {P : Doc → α → Prop}
    (h : ∀ b a r, read b = .ok (a, r) → ∃ s, readHead b = .ok (.scalar s r) ∧ P (.scalar s) a) :
    Tells read P := by
  intro b a r hread
  obtain ⟨s, hhead, hs⟩ := h b a r hread
  obtain ⟨ws, t, hws, ht, rfl⟩ := renders_of_readHead hhead
  exact ⟨ws, t, .scalar s, hws, ht, rfl, hs⟩

theorem tells_text : Tells (Format.text.readJson levels) fun d s => Format.text.interpret d = some s := by
  refine tells_of_readHead fun b s r h => ?_
  rw [readJson] at h
  obtain ⟨head, hhead, h⟩ := bind_eq_ok_iff.1 h
  cases head with
  | scalar x r' =>
    cases x with
    | text s' =>
      obtain ⟨rfl, rfl⟩ := Prod.mk.inj (Except.ok.inj h)
      exact ⟨_, hhead, rfl⟩
    | _ => cases h
  | _ => cases h

theorem tells_bool : Tells (Format.bool.readJson levels) fun d b => Format.bool.interpret d = some b := by
  refine tells_of_readHead fun b v r h => ?_
  rw [readJson] at h
  obtain ⟨head, hhead, h⟩ := bind_eq_ok_iff.1 h
  cases head with
  | scalar x r' =>
    cases x with
    | bool v' =>
      obtain ⟨rfl, rfl⟩ := Prod.mk.inj (Except.ok.inj h)
      exact ⟨_, hhead, rfl⟩
    | _ => cases h
  | _ => cases h

theorem tells_unsigned {bits : Nat} : Tells ((Format.unsigned bits).readJson levels) fun d k =>
    (Format.unsigned bits).interpret d = some k := by
  refine tells_of_readHead fun b k r h => ?_
  rw [readJson, readUnsigned] at h
  obtain ⟨head, hhead, h⟩ := bind_eq_ok_iff.1 h
  cases head with
  | scalar x r' =>
    cases x with
    | number x =>
      cases x with
      | int n =>
        dsimp only at h
        split at h
        · rename_i k' hk
          obtain ⟨rfl, rfl⟩ := Prod.mk.inj (Except.ok.inj h)
          exact ⟨_, hhead, Option.bind_eq_some_iff.2 ⟨n.val, rfl, toOption_eq_some_iff.2 hk⟩⟩
        · cases h
      | float bits => cases h
    | _ => cases h
  | _ => cases h

theorem tells_parsed {expected : String} {read : String → Except String α} {write : α → String} :
    Tells ((Format.parsed expected read write).readJson levels) fun d a =>
      (Format.parsed expected read write).interpret d = some a := by
  refine tells_of_readHead fun b a r h => ?_
  rw [readJson, readParsed] at h
  obtain ⟨head, hhead, h⟩ := bind_eq_ok_iff.1 h
  cases head with
  | scalar x r' =>
    cases x with
    | text s =>
      dsimp only at h
      split at h
      · rename_i a' ha
        obtain ⟨rfl, rfl⟩ := Prod.mk.inj (Except.ok.inj h)
        exact ⟨_, hhead, Option.bind_eq_some_iff.2 ⟨s, rfl, toOption_eq_some_iff.2 ha⟩⟩
      · cases h
    | _ => cases h
  | _ => cases h

theorem pick_eq_ok_iff {values : List (String × α)} {s : String} {r : Bytes} {a : α} :
    pick values s r = .ok a ↔ values.lookup s = some a := by
  unfold pick
  cases values.lookup s <;> simp [fault]

/-- The one member of an object is its name and nothing else. -/
theorem renders_of_readChoiceObject {values : List (String × α)} {b r : Bytes} {a : α}
    (h : readChoiceObject (pick values) b = .ok (a, r)) :
    ∃ s t, RendersMembers true [(s, .scalar .null)] t ∧ b = t ++ r ∧ values.lookup s = some a := by
  obtain ⟨head, hhead, h⟩ := bind_eq_ok_iff.1 h
  obtain ⟨s, b₁, rfl⟩ : ∃ s b₁, head = .scalar (.text s) b₁ := by
    cases head with
    | scalar x b₁ =>
      cases x with
      | text s => exact ⟨s, b₁, rfl⟩
      | _ => cases h
    | _ => cases h
  obtain ⟨a', ha, h⟩ := bind_eq_ok_iff.1 h
  obtain ⟨b₂, hcolon, h⟩ := bind_eq_ok_iff.1 h
  obtain ⟨head', hnull, h⟩ := bind_eq_ok_iff.1 h
  obtain ⟨b₃, rfl⟩ : ∃ b₃, head' = .scalar .null b₃ := by
    cases head' with
    | scalar x b₃ =>
      cases x with
      | null => exact ⟨b₃, rfl⟩
      | _ => cases h
    | _ => cases h
  dsimp only at h
  split at h
  · cases h
  · rename_i c b₄ hskip
    split at h
    · rename_i hc
      subst hc
      obtain ⟨rfl, rfl⟩ := Prod.mk.inj (Except.ok.inj h)
      obtain ⟨ws₃, hws₃, rfl, -⟩ := blanks_of_skipBlank hskip
      obtain ⟨ws₂, t, hws₂, ht, rfl⟩ := renders_of_readHead hnull
      obtain ⟨ws₁, hws₁, rfl⟩ := readColon_eq_ok_iff.1 hcolon
      obtain ⟨ws, b', hws, rfl, htext⟩ := readHead_text_iff.1 hhead
      obtain ⟨l, rfl, hl⟩ := spans_readText htext
      exact ⟨s, _, .member hws (fun r => hl r trivial) hws₁ hws₂ ht (.close hws₃), by simp,
        pick_eq_ok_iff.1 ha⟩
    · cases h

theorem tells_choice {values : List (String × α)} {nameOf : α → String}
    {hvalues : ∀ a, values.lookup (nameOf a) = some a} :
    Tells ((Format.choice values nameOf hvalues).readJson levels) fun d a =>
      (Format.choice values nameOf hvalues).interpret d = some a := by
  intro b a r h
  rw [readJson] at h
  unfold readChoice at h
  split at h
  · cases h
  · rename_i c rest hskip
    obtain ⟨ws, hws, rfl, -⟩ := blanks_of_skipBlank hskip
    split_ifs at h with hquote hbrace hlevels
    · subst hquote
      obtain ⟨⟨s, r'⟩, htext, h⟩ := bind_eq_ok_iff.1 h
      obtain ⟨a', ha, h⟩ := bind_eq_ok_iff.1 h
      obtain ⟨rfl, rfl⟩ := Prod.mk.inj (Except.ok.inj h)
      obtain ⟨ws', t, hws', ht, heq⟩ := renders_of_readHead (readHead_text_iff.2 ⟨ws, rest, hws, rfl, htext⟩)
      exact ⟨ws', t, _, hws', ht, heq, Option.bind_eq_some_iff.2 ⟨s, rfl, pick_eq_ok_iff.1 ha⟩⟩
    · cases h
    · subst hbrace
      obtain ⟨s, t, ht, rfl, ha⟩ := renders_of_readChoiceObject h
      exact ⟨ws, _, _, hws, .object ht, rfl, Option.bind_eq_some_iff.2 ⟨s, rfl, ha⟩⟩
    · cases h

theorem tells_optional {format : Format α}
    (h : Tells (format.readJson levels) fun d a => format.interpret d = some a) :
    Tells (format.optional.readJson levels) fun d o => format.optional.interpret d = some o := by
  intro b o r hread
  rw [readJson] at hread
  split at hread
  · rename_i rest hskip
    obtain ⟨ws, hws, rfl, -⟩ := blanks_of_skipBlank hskip
    obtain ⟨r', hword, hread⟩ := bind_eq_ok_iff.1 hread
    obtain ⟨rfl, rfl⟩ := Prod.mk.inj (Except.ok.inj hread)
    have hhead : readHead (ws ++ 0x6E :: rest) = .ok (.scalar .null r') := by
      rw [readHead_append hws]
      exact bind_eq_ok_iff.2 ⟨r', hword, rfl⟩
    obtain ⟨ws', t, hws', ht, heq⟩ := renders_of_readHead hhead
    exact ⟨ws', t, _, hws', ht, heq, rfl⟩
  · rename_i hword
    obtain ⟨⟨a, r'⟩, hformat, heq⟩ := bind_eq_ok_iff.1 hread
    obtain ⟨rfl, rfl⟩ := Prod.mk.inj (Except.ok.inj heq)
    obtain ⟨ws, t, d, hws, ht, rfl, hd⟩ := h _ _ _ hformat
    refine ⟨ws, t, d, hws, ht, rfl, ?_⟩
    have hnull : ¬ d.isNull = true := by
      intro hnull
      obtain rfl := Doc.isNull_iff.1 hnull
      obtain ⟨t', rfl⟩ := ht.eq_null_iff.1 rfl
      exact hword (t' ++ r') (by rw [skipBlank_append hws, ht.skipBlank r']; rfl)
    show (if d.isNull then some none else (format.interpret d).map some) = _
    rw [if_neg hnull, hd]
    rfl

theorem tells_list {item : Format α}
    (h : ∀ levels, Tells (item.readJson levels) fun d a => item.interpret d = some a) :
    Tells (item.list.readJson levels) fun d as => item.list.interpret d = some as := by
  intro b as r hread
  rw [readJson] at hread
  obtain ⟨head, hhead, hread⟩ := bind_eq_ok_iff.1 hread
  rcases readHead_cases hhead with ⟨s, r', rfl⟩ | ⟨ws, rest, hws, rfl, rfl⟩ | ⟨ws, rest, hws, rfl, rfl⟩
  · cases hread
  · cases levels with
    | zero => cases hread
    | succ l =>
      obtain ⟨ds, as', t, ht, hrest, has, hds⟩ := renders_of_readItems (h l) hread
      obtain rfl : rest = t ++ r := hrest
      obtain rfl : as = as' := has
      exact ⟨ws, _, _, hws, .list ht, rfl,
        Option.bind_eq_some_iff.2 ⟨ds, rfl, mapM_eq_some_iff.2 hds⟩⟩
  · cases hread

variable {σ : Type} {name : String} {members : Members σ} {build : σ → α} {parts : α → σ}
  {hbuild : ∀ a, build (parts a) = a}

theorem tells_record
    (hline : ∀ levels b s rest r,
      members.readItems (Members.describe name members.count) levels 0 b = .ok (s, rest) →
      endList rest = .ok r → ∃ ds t, RendersItems true ds t ∧ b = t ++ r ∧ members.line ds = some s)
    (hvalue : ∀ levels key s b s' r, members.value levels key s b = .ok (s', r) →
      ∃ ws ws' t d, Blanks ws ∧ Blanks ws' ∧ d.Renders t ∧ b = ws ++ 0x3A :: (ws' ++ (t ++ r)) ∧
        members.absorb s key d = some s') :
    Tells ((Format.record name members build parts hbuild).readJson levels) fun d a =>
      (Format.record name members build parts hbuild).interpret d = some a := by
  intro b a r hread
  rw [readJson] at hread
  obtain ⟨head, hhead, hread⟩ := bind_eq_ok_iff.1 hread
  rcases readHead_cases hhead with ⟨s, r', rfl⟩ | ⟨ws, rest, hws, rfl, rfl⟩ | ⟨ws, rest, hws, rfl, rfl⟩
  · cases hread
  · replace hread : (if members.isOpen then _ else _) = _ := hread
    split at hread
    · cases hread
    · cases levels with
      | zero => cases hread
      | succ l =>
        obtain ⟨⟨s, after⟩, hitems, hread⟩ := bind_eq_ok_iff.1 hread
        obtain ⟨r', hend, hread⟩ := bind_eq_ok_iff.1 hread
        obtain ⟨rfl, rfl⟩ := Prod.mk.inj (Except.ok.inj hread)
        obtain ⟨ds, t, ht, hrest, hs⟩ := hline l _ _ _ _ hitems hend
        obtain rfl : rest = t ++ r' := hrest
        exact ⟨ws, _, _, hws, .list ht, rfl, Option.map_eq_some_iff.2 ⟨s, hs, rfl⟩⟩
  · cases levels with
    | zero => cases hread
    | succ l =>
      obtain ⟨⟨state, after⟩, hmembers, hfinished⟩ := bind_eq_ok_iff.1 hread
      dsimp only at hfinished
      cases hfinish : members.finish state with
      | error e =>
        rw [hfinish] at hfinished
        cases hfinished
      | ok s =>
        rw [hfinish] at hfinished
        obtain ⟨rfl, rfl⟩ := Prod.mk.inj (Except.ok.inj hfinished)
        obtain ⟨ms, t, ht, hrest, hput⟩ := renders_of_readMembers (hvalue l) hmembers
        obtain rfl : rest = t ++ after := hrest
        exact ⟨ws, _, _, hws, .object ht, rfl,
          Option.map_eq_some_iff.2 ⟨s, members.collect_eq_some_iff.2 ⟨state, hput, hfinish⟩, rfl⟩⟩

end Format

/-! ## Whatever is accepted -/

mutual

/-- **Whatever text is accepted** is that of a document with what was read as its meaning. -/
theorem Format.tells_interpret : {α : Type} → (format : Format α) → format.isPlain = true →
    (levels : Nat) → Tells (format.readJson levels) fun d a => format.interpret d = some a
  | _, .text, _, _ => Format.tells_text
  | _, .bool, _, _ => Format.tells_bool
  | _, .unsigned _, _, _ => Format.tells_unsigned
  | _, .parsed _ _ _, _, _ => Format.tells_parsed
  | _, .choice _ _ _, _, _ => Format.tells_choice
  | _, .optional format, h, levels => Format.tells_optional (format.tells_interpret h levels)
  | _, .list item, h, _ => Format.tells_list (item.tells_interpret h)
  | _, .any, h, _ => by cases h
  | _, .record _ members _ _ _, h, _ =>
    Format.tells_record (fun _ _ _ _ _ => members.line_of_readItems h)
      fun _ _ _ _ _ _ => members.absorb_of_value h
  | _, .map format make _ _, h, levels => by
    intro b c r hread
    rw [Format.readJson] at hread
    obtain ⟨⟨a, r'⟩, hformat, heq⟩ := bind_eq_ok_iff.1 hread
    obtain ⟨rfl, rfl⟩ := Prod.mk.inj (Except.ok.inj heq)
    obtain ⟨ws, t, d, hws, ht, rfl, hd⟩ := format.tells_interpret h levels _ _ _ hformat
    exact ⟨ws, t, d, hws, ht, rfl, Option.map_eq_some_iff.2 ⟨a, hd, rfl⟩⟩

/-- Whatever is accepted as the value of a member is the text of one that does this to the state. -/
theorem Members.absorb_of_value : {σ : Type} → (m : Members σ) → m.isPlain = true → {levels : Nat} →
    {key : String} → {s s' : m.State} → {b r : Bytes} → m.value levels key s b = .ok (s', r) →
    ∃ ws ws' t d, Blanks ws ∧ Blanks ws' ∧ d.Renders t ∧ b = ws ++ 0x3A :: (ws' ++ (t ++ r)) ∧
      m.absorb s key d = some s'
  | _, .nil, _, levels, k, s, s', b, r, h => by
    obtain ⟨b', hcolon, h⟩ := bind_eq_ok_iff.1 h
    obtain ⟨r', hskip, h⟩ := bind_eq_ok_iff.1 h
    obtain ⟨rfl, rfl⟩ := Prod.mk.inj (Except.ok.inj h)
    obtain ⟨ws', t, hws', ht, rfl⟩ := renders_of_skipValue hskip
    obtain ⟨ws, hws, rfl⟩ := readColon_eq_ok_iff.1 hcolon
    exact ⟨ws, ws', t, .ignored, hws, hws', ht, rfl, rfl⟩
  | _, .cons key format fallback hidden rest, hplain, levels, k, s, s', b, r, h => by
    obtain ⟨o, t⟩ : Option _ × rest.State := s
    obtain ⟨hformat, hrest⟩ := Bool.and_eq_true_iff.1 hplain
    replace h : ((Members.cons key format fallback hidden rest).offer k (o, t)).read k (o, t) levels b =
      .ok (s', r) := h
    by_cases hk : k = key
    · subst hk
      cases o with
      | some a =>
        rw [Members.offer_cons_repeated] at h
        cases h
      | none =>
        rw [Members.offer_cons_self] at h
        obtain ⟨b', hcolon, h⟩ := bind_eq_ok_iff.1 h
        obtain ⟨⟨a, r'⟩, hread, h⟩ := bind_eq_ok_iff.1 h
        obtain ⟨rfl, rfl⟩ := Prod.mk.inj (Except.ok.inj h)
        obtain ⟨ws', u, d, hws', hu, rfl, hd⟩ := format.tells_interpret hformat levels _ _ _ hread
        obtain ⟨ws, hws, rfl⟩ := readColon_eq_ok_iff.1 hcolon
        exact ⟨ws, ws', u, d, hws, hws', hu, rfl,
          (Members.absorb_cons_self t d).trans (Option.map_eq_some_iff.2 ⟨a, hd, rfl⟩)⟩
    · rw [Members.offer_cons_of_ne hk] at h
      obtain ⟨t', rfl, hoffer⟩ := Offer.read_lift_iff.1 h
      obtain ⟨ws, ws', u, d, hws, hws', hu, rfl, hd⟩ := rest.absorb_of_value hrest hoffer
      exact ⟨ws, ws', u, d, hws, hws', hu, rfl,
        (Members.absorb_cons_of_ne hk o t d).trans (Option.map_eq_some_iff.2 ⟨t', hd, rfl⟩)⟩
  | _, .others, h, _, _, _, _, _, _, _ => by cases h

/-- Whatever is accepted as a record that is written as a list is the text of its members. -/
theorem Members.line_of_readItems : {σ : Type} → (m : Members σ) → m.isPlain = true → {levels : Nat} →
    {description : String} → {index : Nat} → {b rest r : Bytes} → {s : σ} →
    m.readItems description levels index b = .ok (s, rest) → endList rest = .ok r →
    ∃ ds t, RendersItems (index = 0) ds t ∧ b = t ++ r ∧ m.line ds = some s
  | _, .nil, _, levels, description, index, b, rest, r, s, h, hend => by
    obtain ⟨-, rfl⟩ := Prod.mk.inj (Except.ok.inj h)
    obtain ⟨ws, hws, rfl⟩ := endList_eq_ok_iff.1 hend
    exact ⟨[], ws ++ [0x5D], .close hws, by simp, rfl⟩
  | _, .cons key format fallback hidden rest, hplain, levels, description, index, b, after, r, s, h,
      hend => by
    obtain ⟨hformat, hrest⟩ := Bool.and_eq_true_iff.1 hplain
    have hlater : decide (index + 1 = 0) = false := by simp
    obtain ⟨next, hnext, h⟩ := bind_eq_ok_iff.1 h
    rcases nextItem_cases hnext with ⟨ws, r', hws, rfl, rfl⟩ | ⟨sep, c, hsep, rfl, rfl⟩
    · cases hfallback : fallback with
      | none =>
        rw [hfallback] at h
        cases h
      | some a =>
        rw [hfallback] at h
        obtain ⟨⟨s', c'⟩, hread, hpair⟩ := bind_eq_ok_iff.1 h
        obtain ⟨rfl, rfl⟩ := Prod.mk.inj (Except.ok.inj hpair)
        obtain ⟨ds, t, ht, hb, hs⟩ := rest.line_of_readItems hrest hread hend
        rw [hlater] at ht
        obtain ⟨rfl, rfl⟩ := ht.eq_nil_of_close hb
        exact ⟨[], ws ++ [0x5D], .close hws, by simp, Option.bind_eq_some_iff.2 ⟨s', hs, rfl⟩⟩
    · obtain ⟨⟨a, c'⟩, hitem, hmore⟩ := bind_eq_ok_iff.1 h
      obtain ⟨⟨s', c''⟩, hread, hpair⟩ := bind_eq_ok_iff.1 hmore
      obtain ⟨rfl, rfl⟩ := Prod.mk.inj (Except.ok.inj hpair)
      obtain ⟨ds, u, hu, rfl, hs⟩ := rest.line_of_readItems hrest hread hend
      obtain ⟨ws, t, d, hws, ht, rfl, hd⟩ := format.tells_interpret hformat levels _ _ _ hitem
      rw [hlater] at hu
      exact ⟨d :: ds, sep ++ ws ++ (t ++ u), .item (hsep.append hws) ht hu, by simp,
        Option.bind_eq_some_iff.2 ⟨a, hd, Option.bind_eq_some_iff.2 ⟨s', hs, rfl⟩⟩⟩
  | _, .others, h, _, _, _, _, _, _, _, _, _ => by cases h

end

/-! ## Whole documents -/

/-- **A text is accepted just if it is one of a document with a meaning**, which is then what is read. -/
theorem Format.ofJson_eq_ok_iff {α : Type} {format : Format α} (hdepth : format.depth ≤ maxLevels)
    (hplain : format.isPlain = true) {b : Bytes} {a : α} :
    format.ofJson b = .ok a ↔ ∃ d : Doc, d.RendersWhole b ∧ format.interpret d = some a := by
  constructor
  · intro h
    unfold ofJson at h
    split at h
    · rename_i a' hdocument
      obtain rfl := Except.ok.inj h
      obtain ⟨⟨a, r⟩, hread, hfinish⟩ := bind_eq_ok_iff.1 hdocument
      unfold finish at hfinish
      split at hfinish
      · rename_i hskip
        obtain rfl := Except.ok.inj hfinish
        obtain ⟨ws, t, d, hws, ht, rfl, hd⟩ := format.tells_interpret hplain maxLevels _ _ _ hread
        exact ⟨d, ⟨ws, t, r, hws, ht, List.dropWhile_eq_nil_iff.1 hskip, rfl⟩, hd⟩
      · cases hfinish
    · cases h
  · rintro ⟨d, ⟨ws, t, ws', hws, ht, hws', rfl⟩, hd⟩
    have hstops : Stops ws' := by simpa using stops_blanks hws' (show Stops [] by simp [Stops])
    have hread := format.reads_of_interpret hdepth hd ws t ws' hws ht hstops
    have hdocument : format.readDocument (ws ++ (t ++ ws')) = .ok a := by
      show (format.readJson maxLevels _).bind finish = _
      rw [hread]
      show finish (a, ws') = _
      rw [finish, skipBlank, List.dropWhile_eq_nil_iff.2 hws']
    rw [ofJson, hdocument]

end HealthService
