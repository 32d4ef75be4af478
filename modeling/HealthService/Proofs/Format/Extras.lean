import HealthService.Proofs.Format.ReadBack

/-!
# Members that a record keeps without naming them

A record may keep the members that it does not name.  Whatever a document says, they come out of it in
order, each key once, with values that are in order themselves, and none of them has the name of a member
of the record (`Tidy`).

* `Members.kept_value` — what the reading of one member does to those that are kept.
* `Format.tidy_of_readJson` — **the members that a record keeps are tidy**, whatever it is read from.
-/

namespace HealthService

open Json

/-- Members in order, with values in order, none of which has one of some names. -/
structure Tidy (names : List String) (ms : Json.Members) : Prop where
  order : InOrder ms
  ordered : ∀ m ∈ ms, m.2.Ordered
  unnamed : ∀ m ∈ ms, m.1 ∉ names

theorem tidy_nil (names : List String) : Tidy names [] := ⟨List.Pairwise.nil, by simp, by simp⟩

/-- Another member is put among tidy ones. -/
theorem Tidy.insert {names : List String} {ms : Json.Members} (h : Tidy names ms) {key : String}
    {value : Json} (hkey : key ∉ names) (hvalue : value.Ordered) :
    Tidy names (insertMember key value ms) := by
  refine ⟨ordered_insertMember key value h.order, fun m hm => ?_, fun m hm => ?_⟩
  · rcases mem_insertMember hm with rfl | hm
    · exact hvalue
    · exact h.ordered m hm
  · rcases mem_insertMember hm with rfl | hm
    · exact hkey
    · exact h.unnamed m hm

namespace Members

/-- The members that have been kept so far. -/
def kept : {σ : Type} → (m : Members σ) → m.State → Json.Members
  | _, .nil, _ => []
  | _, .cons _ _ _ _ rest, s => rest.kept s.2
  | _, .others, ms => ms

theorem kept_start : {σ : Type} → (m : Members σ) → m.kept m.start = []
  | _, .nil => rfl
  | _, .cons _ _ _ _ rest => rest.kept_start
  | _, .others => rfl

/-- **What the reading of one member does to those that are kept**: nothing if it is named, and else it
is put among them. -/
theorem kept_value : {σ : Type} → (m : Members σ) → {levels : Nat} → {key : String} →
    {s t : m.State} → {b rest : Bytes} → m.value levels key s b = .ok (t, rest) →
    m.kept t = m.kept s ∨
      key ∉ m.names ∧ ∃ v : Json, v.Ordered ∧ m.kept t = insertMember key v (m.kept s)
  | _, .nil, _, _, _, _, _, _, _ => Or.inl rfl
  | _, .cons key format fallback hidden rest, levels, k, s, t, b, c, h => by
    obtain ⟨o, s⟩ : Option _ × rest.State := s
    replace h : ((Members.cons key format fallback hidden rest).offer k (o, s)).read k (o, s) levels b =
      .ok (t, c) := h
    by_cases hk : k = key
    · subst hk
      cases o with
      | none =>
        rw [offer_cons_self] at h
        obtain ⟨c', -, h⟩ := bind_eq_ok_iff.1 h
        obtain ⟨⟨a, c''⟩, -, h⟩ := bind_eq_ok_iff.1 h
        obtain ⟨rfl, -⟩ := Prod.mk.inj (Except.ok.inj h)
        exact Or.inl rfl
      | some a =>
        rw [offer_cons_repeated] at h
        cases h
    · rw [offer_cons_of_ne hk] at h
      obtain ⟨t', rfl, hread⟩ := Offer.read_lift_iff.1 h
      refine (rest.kept_value hread).imp_right (And.imp_left fun hname => ?_)
      exact List.not_mem_cons_of_ne_of_not_mem hk hname
  | _, .others, levels, key, s, t, b, c, h => by
    obtain ⟨c', -, h⟩ := bind_eq_ok_iff.1 h
    obtain ⟨⟨v, c''⟩, hv, h⟩ := bind_eq_ok_iff.1 h
    obtain ⟨rfl, -⟩ := Prod.mk.inj (Except.ok.inj h)
    exact Or.inr ⟨List.not_mem_nil, v, ordered_readAny hv, rfl⟩

/-- The members that have been kept are the others of the record. -/
theorem extras_finish : {σ : Type} → (m : Members σ) → {t : m.State} → {s : σ} →
    m.finish t = .ok s → m.extras s = m.kept t
  | _, .nil, _, _, _ => rfl
  | _, .cons key format fallback hidden rest, t, s, h => by
    obtain ⟨o, t⟩ : Option _ × rest.State := t
    rw [finish_cons] at h
    obtain ⟨a, -, h⟩ := bind_eq_ok_iff.1 h
    obtain ⟨s', hs, h⟩ := bind_eq_ok_iff.1 h
    obtain rfl := Except.ok.inj h
    exact rest.extras_finish hs
  | _, .others, _, _, h => by
    obtain rfl := Except.ok.inj h
    rfl

end Members

/-- What is read of a document is read at its beginning. -/
theorem Format.readJson_of_ofJson {α : Type} {format : Format α} {b : Bytes} {a : α}
    (h : format.ofJson b = .ok a) : ∃ rest, format.readJson maxLevels b = .ok (a, rest) := by
  unfold ofJson at h
  split at h
  · rename_i a' hdocument
    obtain rfl := Except.ok.inj h
    obtain ⟨⟨a, rest⟩, hread, hfinish⟩ := bind_eq_ok_iff.1 hdocument
    unfold finish at hfinish
    split at hfinish
    · obtain rfl := Except.ok.inj hfinish
      exact ⟨rest, hread⟩
    · cases hfinish
  · cases h

/-- **The members that a record keeps are tidy**, whatever it is read from. -/
theorem Format.tidy_of_readJson {σ α : Type} {name : String} {members : Members σ} {build : σ → α}
    {parts : α → σ} {hbuild : ∀ a, build (parts a) = a} (hopen : members.isOpen = true)
    {levels : Nat} {b rest : Bytes} {a : α}
    (h : (Format.record name members build parts hbuild).readJson levels b = .ok (a, rest)) :
    ∃ s, a = build s ∧ Tidy members.names (members.extras s) := by
  rw [readJson] at h
  obtain ⟨head, -, h⟩ := bind_eq_ok_iff.1 h
  cases head with
  | scalar s c => cases h
  | list here =>
    -- A list has no keys, and so a record that keeps other members is not read from one.
    replace h : (if members.isOpen then _ else _) = _ := h
    rw [if_pos hopen] at h
    cases h
  | object here =>
    cases levels with
    | zero => cases h
    | succ levels =>
      obtain ⟨⟨t, c⟩, hmembers, h⟩ := bind_eq_ok_iff.1 h
      have htidy : Tidy members.names (members.kept t) := by
        refine of_readMembers (P := fun t => Tidy members.names (members.kept t))
          (fun key s b t rest hs hvalue => ?_) ?_ hmembers
        · rcases members.kept_value hvalue with hkept | ⟨hkey, v, hv, hkept⟩
          · rwa [hkept]
          · rw [hkept]
            exact hs.insert hkey hv
        · rw [members.kept_start]
          exact tidy_nil _
      dsimp only at h
      cases hs : members.finish t with
      | error e =>
        rw [hs] at h
        cases h
      | ok s =>
        rw [hs] at h
        refine ⟨s, (Prod.mk.inj (Except.ok.inj h)).1.symm, ?_⟩
        rwa [members.extras_finish hs]

end HealthService
