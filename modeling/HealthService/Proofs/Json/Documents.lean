import HealthService.Proofs.Json.Skipping

/-!
# Documents and their texts

What a text of JSON says is a tree (`Doc`), which keeps the members of objects in the order in which they
stand and knows nothing of the values that are only passed over.  One tree has many texts
(`Doc.Renders`): there may be blanks between its parts, and its strings and numbers can be spelled in
several ways.

* `readItems_renders`, `readMembers_renders` — **whichever text a reader is given of the items of a list or
  of the members of an object**, it reads the same.
* `renders_of_readItems`, `renders_of_readMembers` — **whatever a reader accepts** as items or as members is
  the text of some trees.
-/

namespace HealthService.Json

/-! ## Trees and texts -/

/-- What a text says. -/
inductive Doc where
  | scalar (s : Scalar)
  /-- A value that is only passed over. -/
  | ignored
  | list (items : List Doc)
  | object (members : List (String × Doc))

/-- What stands before an item: blanks, and a comma unless it is the first. -/
def Separates (first : Bool) (s : Bytes) : Prop :=
  if first then Blanks s else ∃ ws ws', Blanks ws ∧ Blanks ws' ∧ s = ws ++ 0x2C :: ws'

mutual

/-- The texts of a value, without blanks before or after them. -/
inductive Doc.Renders : Doc → Bytes → Prop where
  | scalar {s : Scalar} {t : Bytes} (hbegins : Begins t)
      (hread : ∀ r, Stops r → readHead (t ++ r) = .ok (.scalar s r)) : Doc.Renders (.scalar s) t
  | ignored {t : Bytes} (hbegins : Begins t) (hskip : ∀ r, Stops r → skipValue (t ++ r) = .ok r) :
      Doc.Renders .ignored t
  | list {ds : List Doc} {t : Bytes} (h : RendersItems true ds t) : Doc.Renders (.list ds) (0x5B :: t)
  | object {ms : List (String × Doc)} {t : Bytes} (h : RendersMembers true ms t) :
      Doc.Renders (.object ms) (0x7B :: t)

/-- The texts of items up to and including the end of their list. -/
inductive RendersItems : Bool → List Doc → Bytes → Prop where
  | close {first : Bool} {ws : Bytes} (hws : Blanks ws) : RendersItems first [] (ws ++ [0x5D])
  | item {first : Bool} {s t u : Bytes} {d : Doc} {ds : List Doc} (hs : Separates first s)
      (hd : Doc.Renders d t) (h : RendersItems false ds u) : RendersItems first (d :: ds) (s ++ (t ++ u))

/-- The texts of members up to and including the end of their object. -/
inductive RendersMembers : Bool → List (String × Doc) → Bytes → Prop where
  | close {first : Bool} {ws : Bytes} (hws : Blanks ws) : RendersMembers first [] (ws ++ [0x7D])
  | member {first : Bool} {s l ws ws' t u : Bytes} {key : String} {d : Doc} {ms : List (String × Doc)}
      (hs : Separates first s) (hkey : ∀ r, readText (l ++ r) = .ok (key, r)) (hws : Blanks ws)
      (hws' : Blanks ws') (hd : Doc.Renders d t) (h : RendersMembers false ms u) :
      RendersMembers first ((key, d) :: ms) (s ++ 0x22 :: (l ++ (ws ++ 0x3A :: (ws' ++ (t ++ u)))))

end

/-- The texts of a whole document, with blanks before and after it. -/
def Doc.RendersWhole (d : Doc) (b : Bytes) : Prop :=
  ∃ ws t ws', Blanks ws ∧ d.Renders t ∧ Blanks ws' ∧ b = ws ++ (t ++ ws')

/-- A reader reads some value whichever text of a tree it is given. -/
def Reads {α : Type} (read : Bytes → Except Fault (α × Bytes)) (d : Doc) (a : α) : Prop :=
  ∀ ws t r, Blanks ws → d.Renders t → Stops r → read (ws ++ (t ++ r)) = .ok (a, r)

/-- What a reader accepts is the text of a tree that stands in some relation to what it read. -/
def Tells {α : Type} (read : Bytes → Except Fault (α × Bytes)) (P : Doc → α → Prop) : Prop :=
  ∀ b a r, read b = .ok (a, r) →
    ∃ ws t d, Blanks ws ∧ d.Renders t ∧ b = ws ++ (t ++ r) ∧ P d a

/-! ## How texts begin -/

/-- A text begins neither with a blank nor like the end of a list. -/
theorem Doc.Renders.begins {d : Doc} {t : Bytes} (h : d.Renders t) :
    ∃ c t', t = c :: t' ∧ Blank.isJsonByte c = false ∧ c ≠ 0x5D := by
  cases h with
  | scalar hbegins hread =>
    obtain ⟨c, t', rfl, hc⟩ := hbegins
    refine ⟨c, t', rfl, hc, ?_⟩
    rintro rfl
    cases hread [] (by simp [Stops])
  | ignored hbegins hskip =>
    obtain ⟨c, t', rfl, hc⟩ := hbegins
    refine ⟨c, t', rfl, hc, ?_⟩
    rintro rfl
    cases hskip [] (by simp [Stops])
  | list h => exact ⟨0x5B, _, rfl, by decide, by decide⟩
  | object h => exact ⟨0x7B, _, rfl, by decide, by decide⟩

theorem Doc.Renders.skipBlank {d : Doc} {t : Bytes} (h : d.Renders t) (r : Bytes) :
    skipBlank (t ++ r) = t ++ r := by
  obtain ⟨c, t', rfl, hc, -⟩ := h.begins
  exact skipBlank_of_not hc _

theorem Separates.append {first : Bool} {s ws : Bytes} (h : Separates first s) (hws : Blanks ws) :
    Separates first (s ++ ws) := by
  cases first with
  | true => exact Blanks.append h hws
  | false =>
    obtain ⟨ws₁, ws₂, h₁, h₂, rfl⟩ := h
    exact ⟨ws₁, ws₂ ++ ws, h₁, h₂.append hws, by simp⟩

/-- Further items begin with a comma or with the end of their list, and no number goes on so. -/
theorem RendersItems.stops {ds : List Doc} {t : Bytes} (h : RendersItems false ds t) (r : Bytes) :
    Stops (t ++ r) := by
  cases h with
  | close hws =>
    rw [List.append_assoc]
    exact stops_blanks hws (stops_cons _ (by decide))
  | item hs =>
    obtain ⟨ws, ws', hws, -, rfl⟩ := hs
    simp only [List.append_assoc, List.cons_append]
    exact stops_blanks hws (stops_cons _ (by decide))

theorem RendersMembers.stops {ms : List (String × Doc)} {t : Bytes} (h : RendersMembers false ms t)
    (r : Bytes) : Stops (t ++ r) := by
  cases h with
  | close hws =>
    rw [List.append_assoc]
    exact stops_blanks hws (stops_cons _ (by decide))
  | member hs =>
    obtain ⟨ws, ws', hws, -, rfl⟩ := hs
    simp only [List.append_assoc, List.cons_append]
    exact stops_blanks hws (stops_cons _ (by decide))

/-- What begins with the end of a list goes on without further items. -/
theorem RendersItems.eq_nil_of_close {ds : List Doc} {t r r' : Bytes} (h : RendersItems false ds t)
    (ht : 0x5D :: r' = t ++ r) : ds = [] ∧ r' = r := by
  have hskip : skipBlank (t ++ r) = 0x5D :: r' := by rw [← ht, skipBlank_of_not (by decide)]
  cases h with
  | close hws =>
    rw [List.append_assoc, skipBlank_append hws, List.singleton_append, skipBlank_of_not (by decide)] at hskip
    exact ⟨rfl, (List.cons.inj hskip).2.symm⟩
  | item hs =>
    obtain ⟨ws, ws', hws, -, rfl⟩ := hs
    rw [List.append_assoc, List.append_assoc, skipBlank_append hws, List.cons_append,
      skipBlank_of_not (by decide)] at hskip
    cases (List.cons.inj hskip).1

theorem RendersItems.length_lt {first : Bool} {ds : List Doc} {t : Bytes} (h : RendersItems first ds t) :
    ds.length < t.length := by
  induction ds generalizing first t with
  | nil =>
    cases h with
    | close hws => simp
  | cons d ds ih =>
    cases h with
    | item hs hd h =>
      obtain ⟨c, t', rfl, -⟩ := hd.begins
      have hmore := ih h
      simp only [List.length_append, List.length_cons]
      omega

theorem RendersMembers.length_lt {first : Bool} {ms : List (String × Doc)} {t : Bytes}
    (h : RendersMembers first ms t) : ms.length < t.length := by
  induction ms generalizing first t with
  | nil =>
    cases h with
    | close hws => simp
  | cons m ms ih =>
    cases h with
    | member hs hkey hws hws' hd h =>
      have hmore := ih h
      simp only [List.length_append, List.length_cons]
      omega

/-- A list has more bytes than items, so that its bytes bound the steps of its reader. -/
theorem RendersItems.length_lt_cons {first : Bool} {ds : List Doc} {t : Bytes} (h : RendersItems first ds t)
    (c : UInt8) (r : Bytes) : ds.length < (c :: (t ++ r)).length := by
  have hlength := h.length_lt
  rw [List.length_cons, List.length_append]
  omega

theorem RendersMembers.length_lt_cons {first : Bool} {ms : List (String × Doc)} {t : Bytes}
    (h : RendersMembers first ms t) (c : UInt8) (r : Bytes) : ms.length < (c :: (t ++ r)).length := by
  have hlength := h.length_lt
  rw [List.length_cons, List.length_append]
  omega

/-! ## Heads -/

theorem readHead_list {ws : Bytes} (hws : Blanks ws) (b : Bytes) :
    readHead (ws ++ 0x5B :: b) = .ok (.list (0x5B :: b)) := by
  rw [readHead_append hws]
  rfl

theorem readHead_object {ws : Bytes} (hws : Blanks ws) (b : Bytes) :
    readHead (ws ++ 0x7B :: b) = .ok (.object (0x7B :: b)) := by
  rw [readHead_append hws]
  rfl

/-- A head that is read as some scalar is that scalar. -/
theorem head_of_bind {α : Type} {x : Except Fault α} {f : α → Scalar} {g : α → Bytes} {head : Head}
    (h : (x.bind fun a => .ok (Head.scalar (f a) (g a))) = .ok head) :
    ∃ a, x = .ok a ∧ head = .scalar (f a) (g a) := by
  obtain ⟨a, ha, heq⟩ := bind_eq_ok_iff.1 h
  exact ⟨a, ha, (Except.ok.inj heq).symm⟩

/-- What comes next is known by its first byte: a bracket, a brace, or something else. -/
theorem readHead_cases {b : Bytes} {head : Head} (h : readHead b = .ok head) :
    (∃ s r, head = .scalar s r) ∨
      (∃ ws rest, Blanks ws ∧ b = ws ++ 0x5B :: rest ∧ head = .list (0x5B :: rest)) ∨
      ∃ ws rest, Blanks ws ∧ b = ws ++ 0x7B :: rest ∧ head = .object (0x7B :: rest) := by
  unfold readHead at h
  split at h
  · cases h
  · rename_i c rest hskip
    obtain ⟨ws, hws, rfl, -⟩ := blanks_of_skipBlank hskip
    split_ifs at h with hn ht hf hnumber hquote hlist hobject
    · obtain ⟨r, -, rfl⟩ := head_of_bind (f := fun _ => .null) (g := id) h
      exact Or.inl ⟨_, _, rfl⟩
    · obtain ⟨r, -, rfl⟩ := head_of_bind (f := fun _ => .bool true) (g := id) h
      exact Or.inl ⟨_, _, rfl⟩
    · obtain ⟨r, -, rfl⟩ := head_of_bind (f := fun _ => .bool false) (g := id) h
      exact Or.inl ⟨_, _, rfl⟩
    · obtain ⟨r, -, rfl⟩ := head_of_bind (f := fun r => .number r.1) (g := Prod.snd) h
      exact Or.inl ⟨_, _, rfl⟩
    · obtain ⟨r, -, rfl⟩ := head_of_bind (f := fun r => .text r.1) (g := Prod.snd) h
      exact Or.inl ⟨_, _, rfl⟩
    · rw [hlist] at h ⊢
      exact Or.inr (Or.inl ⟨ws, rest, hws, rfl, (Except.ok.inj h).symm⟩)
    · rw [hobject] at h ⊢
      exact Or.inr (Or.inr ⟨ws, rest, hws, rfl, (Except.ok.inj h).symm⟩)
    · cases h

/-- A text of a tree is read as what the tree is. -/
theorem Doc.Renders.readHead_scalar {s : Scalar} {t : Bytes} (h : (Doc.scalar s).Renders t) {ws r : Bytes}
    (hws : Blanks ws) (hr : Stops r) : readHead (ws ++ (t ++ r)) = .ok (.scalar s r) := by
  cases h with
  | scalar hbegins hread => rw [readHead_append hws, hread r hr]

theorem renders_of_readHead {b r : Bytes} {s : Scalar} (h : readHead b = .ok (.scalar s r)) :
    ∃ ws t, Blanks ws ∧ (Doc.scalar s).Renders t ∧ b = ws ++ (t ++ r) := by
  obtain ⟨ws, t, hws, ht, rfl, hread⟩ := spans_readHead h
  exact ⟨ws, t, hws, .scalar ht hread, rfl⟩

/-- A text begins with a quote, and with a literal after it. -/
theorem readHead_text_iff {b r : Bytes} {s : String} : readHead b = .ok (.scalar (.text s) r) ↔
    ∃ ws b', Blanks ws ∧ b = ws ++ 0x22 :: b' ∧ readText b' = .ok (s, r) := by
  constructor
  · intro h
    unfold readHead at h
    split at h
    · cases h
    · rename_i c rest hskip
      obtain ⟨ws, hws, rfl, -⟩ := blanks_of_skipBlank hskip
      split_ifs at h with hn ht hf hnumber hquote
      · obtain ⟨r, -, heq⟩ := head_of_bind (f := fun _ => .null) (g := id) h
        cases heq
      · obtain ⟨r, -, heq⟩ := head_of_bind (f := fun _ => .bool true) (g := id) h
        cases heq
      · obtain ⟨r, -, heq⟩ := head_of_bind (f := fun _ => .bool false) (g := id) h
        cases heq
      · obtain ⟨r, -, heq⟩ := head_of_bind (f := fun r => .number r.1) (g := Prod.snd) h
        cases heq
      · subst hquote
        obtain ⟨⟨s', r'⟩, htext, heq⟩ := bind_eq_ok_iff.1 h
        obtain ⟨hs, rfl⟩ := Head.scalar.inj (Except.ok.inj heq)
        obtain rfl := Scalar.text.inj hs
        exact ⟨ws, rest, hws, rfl, htext⟩
      · cases h
      · cases h
      · cases h
  · rintro ⟨ws, b', hws, rfl, htext⟩
    rw [readHead_append hws]
    show (readText b').bind _ = _
    rw [htext]
    rfl

/-- Only the word for nothing begins like it. -/
theorem Doc.Renders.eq_null_iff {s : Scalar} {t : Bytes} (h : (Doc.scalar s).Renders t) :
    s = .null ↔ ∃ t', t = 0x6E :: t' := by
  cases h with
  | scalar hbegins hread =>
    obtain ⟨c, t', rfl, hc⟩ := hbegins
    have hhead := hread [] (by simp [Stops])
    rw [List.append_nil] at hhead
    unfold readHead at hhead
    rw [skipBlank_of_not hc] at hhead
    dsimp only at hhead
    split_ifs at hhead with hn ht hf hnumber hquote
    · obtain ⟨r, -, heq⟩ := head_of_bind (f := fun _ => .null) (g := id) hhead
      simp [(Head.scalar.inj heq).1, hn]
    · obtain ⟨r, -, heq⟩ := head_of_bind (f := fun _ => .bool true) (g := id) hhead
      simp [(Head.scalar.inj heq).1, hn]
    · obtain ⟨r, -, heq⟩ := head_of_bind (f := fun _ => .bool false) (g := id) hhead
      simp [(Head.scalar.inj heq).1, hn]
    · obtain ⟨r, -, heq⟩ := head_of_bind (f := fun r => .number r.1) (g := Prod.snd) hhead
      simp [(Head.scalar.inj heq).1, hn]
    · obtain ⟨r, -, heq⟩ := head_of_bind (f := fun r => .text r.1) (g := Prod.snd) hhead
      simp [(Head.scalar.inj heq).1, hn]
    · cases hhead
    · cases hhead
    · cases hhead

/-! ## Values that are passed over -/

theorem Doc.Renders.skipValue {t : Bytes} (h : Doc.ignored.Renders t) {ws r : Bytes} (hws : Blanks ws)
    (hr : Stops r) : skipValue (ws ++ (t ++ r)) = .ok r := by
  cases h with
  | ignored hbegins hskip => exact skipValue_append hws (hskip r hr)

theorem renders_of_skipValue {b r : Bytes} (h : skipValue b = .ok r) :
    ∃ ws t, Blanks ws ∧ Doc.ignored.Renders t ∧ b = ws ++ (t ++ r) := by
  obtain ⟨ws, t, hws, ht, rfl, hskip⟩ := skips_skipValue h
  exact ⟨ws, t, hws, .ignored ht hskip, rfl⟩

/-! ## From item to item -/

theorem nextItem_close {first : Bool} {ws : Bytes} (hws : Blanks ws) (r : Bytes) :
    nextItem first (ws ++ 0x5D :: r) = .ok (.close (0x5D :: r)) := by
  rw [nextItem, skipBlank_append hws, skipBlank_of_not (by decide)]
  rfl

theorem nextItem_more {first : Bool} {s t : Bytes} {d : Doc} (hs : Separates first s) (hd : d.Renders t)
    (r : Bytes) : nextItem first (s ++ (t ++ r)) = .ok (.more (t ++ r)) := by
  have hskip := hd.skipBlank r
  obtain ⟨c, t', rfl, hc, hclose⟩ := hd.begins
  cases first with
  | true =>
    rw [nextItem, skipBlank_append hs, hskip, List.cons_append]
    dsimp only
    rw [if_neg hclose, if_pos rfl]
  | false =>
    obtain ⟨ws, ws', hws, hws', rfl⟩ := hs
    rw [List.append_assoc, List.cons_append, nextItem, skipBlank_append hws, skipBlank_of_not (by decide)]
    dsimp only
    rw [if_neg (by decide), if_neg (by decide), if_pos rfl, skipBlank_append hws', hskip, List.cons_append]
    dsimp only
    rw [if_neg hclose]

theorem nextItem_cases {first : Bool} {b : Bytes} {next : Next} (h : nextItem first b = .ok next) :
    (∃ ws r, Blanks ws ∧ b = ws ++ 0x5D :: r ∧ next = .close (0x5D :: r)) ∨
      ∃ s r, Separates first s ∧ b = s ++ r ∧ next = .more r := by
  unfold nextItem at h
  split at h
  · cases h
  · rename_i c rest hskip
    obtain ⟨ws, hws, rfl, -⟩ := blanks_of_skipBlank hskip
    split_ifs at h with hclose hfirst hcomma
    · subst hclose
      exact Or.inl ⟨ws, rest, hws, rfl, (Except.ok.inj h).symm⟩
    · exact Or.inr ⟨ws, c :: rest, by rwa [hfirst], rfl, (Except.ok.inj h).symm⟩
    · subst hcomma
      split at h
      · cases h
      · rename_i d rest' hskip'
        obtain ⟨ws', hws', rfl, -⟩ := blanks_of_skipBlank hskip'
        split at h
        · cases h
        · refine Or.inr ⟨ws ++ 0x2C :: ws', d :: rest', ?_, by simp, (Except.ok.inj h).symm⟩
          rw [Bool.not_eq_true] at hfirst
          rw [hfirst]
          exact ⟨ws, ws', hws, hws', rfl⟩
    · cases h

theorem endList_eq_ok_iff {b r : Bytes} :
    endList b = .ok r ↔ ∃ ws, Blanks ws ∧ b = ws ++ 0x5D :: r := by
  constructor
  · intro h
    unfold endList at h
    split at h
    · cases h
    · rename_i c rest hskip
      obtain ⟨ws, hws, rfl, -⟩ := blanks_of_skipBlank hskip
      split_ifs at h with hclose hcomma
      · subst hclose
        obtain rfl := Except.ok.inj h
        exact ⟨ws, hws, rfl⟩
      · split at h
        · cases h
        · split at h <;> cases h
      · cases h
  · rintro ⟨ws, hws, rfl⟩
    unfold endList
    rw [skipBlank_append hws, skipBlank_of_not (by decide)]
    rfl

theorem nextKey_close {first : Bool} {ws : Bytes} (hws : Blanks ws) (r : Bytes) :
    nextKey first (ws ++ 0x7D :: r) = .ok (.close (0x7D :: r)) := by
  rw [nextKey, skipBlank_append hws, skipBlank_of_not (by decide)]
  rfl

theorem nextKey_more {first : Bool} {s : Bytes} (hs : Separates first s) (r : Bytes) :
    nextKey first (s ++ 0x22 :: r) = .ok (.more r) := by
  cases first with
  | true =>
    rw [nextKey, skipBlank_append hs, skipBlank_of_not (by decide)]
    rfl
  | false =>
    obtain ⟨ws, ws', hws, hws', rfl⟩ := hs
    rw [List.append_assoc, List.cons_append, nextKey, skipBlank_append hws, skipBlank_of_not (by decide)]
    dsimp only
    rw [if_neg (by decide), if_neg (by decide), if_pos rfl, skipBlank_append hws',
      skipBlank_of_not (by decide)]
    rfl

theorem openKey_more {b : Bytes} {next : Next} (h : openKey b = .ok next) :
    ∃ r, b = 0x22 :: r ∧ next = .more r := by
  cases b with
  | nil => cases h
  | cons c b =>
    rw [openKey] at h
    split_ifs at h with hquote
    · subst hquote
      exact ⟨b, rfl, (Except.ok.inj h).symm⟩
    · cases h
    · cases h

theorem nextKey_cases {first : Bool} {b : Bytes} {next : Next} (h : nextKey first b = .ok next) :
    (∃ ws r, Blanks ws ∧ b = ws ++ 0x7D :: r ∧ next = .close (0x7D :: r)) ∨
      ∃ s r, Separates first s ∧ b = s ++ 0x22 :: r ∧ next = .more r := by
  unfold nextKey at h
  split at h
  · cases h
  · rename_i c rest hskip
    obtain ⟨ws, hws, rfl, -⟩ := blanks_of_skipBlank hskip
    split_ifs at h with hclose hfirst hcomma
    · subst hclose
      exact Or.inl ⟨ws, rest, hws, rfl, (Except.ok.inj h).symm⟩
    · obtain ⟨r, hr, hnext⟩ := openKey_more h
      obtain ⟨rfl, rfl⟩ := List.cons.inj hr
      exact Or.inr ⟨ws, rest, by rwa [hfirst], rfl, hnext⟩
    · subst hcomma
      obtain ⟨r, hr, hnext⟩ := openKey_more h
      obtain ⟨ws', hws', rfl, -⟩ := blanks_of_skipBlank hr
      refine Or.inr ⟨ws ++ 0x2C :: ws', r, ?_, by simp, hnext⟩
      rw [Bool.not_eq_true] at hfirst
      rw [hfirst]
      exact ⟨ws, ws', hws, hws', rfl⟩
    · cases h

/-! ## Items -/

section Items

variable {α : Type} {item : Bytes → Except Fault (α × Bytes)}

/-- **The items of a list** are read whichever text of them a reader is given. -/
theorem readItems_renders {ds : List Doc} {as : List α} (hread : List.Forall₂ (Reads item) ds as)
    {acc : List α} {first : Bool} (hfirst : acc.isEmpty = first) {t bound : Bytes}
    (h : RendersItems first ds t) (hbound : ds.length < bound.length) (r : Bytes) :
    readItems item bound acc (t ++ r) = .ok (acc.reverse ++ as, r) := by
  subst hfirst
  induction hread generalizing acc t bound with
  | nil =>
    obtain ⟨y, bound, rfl⟩ := List.exists_cons_of_length_pos hbound
    cases h with
    | close hws =>
      rw [List.append_assoc, List.singleton_append, readItems_close (0x5D :: r) (nextItem_close hws r)]
      simp
  | @cons d a ds as hd _ ih =>
    obtain ⟨y, bound, rfl⟩ := List.exists_cons_of_length_pos (Nat.zero_lt_of_lt hbound)
    cases h with
    | @item _ s t u _ _ hs ht h =>
      have hitem := hd [] t (u ++ r) blanks_nil ht (h.stops r)
      have hmore := ih (by simpa using hbound) (show RendersItems (a :: acc).isEmpty ds u from h)
      rw [List.append_assoc, List.append_assoc, readItems_more (nextItem_more hs ht (u ++ r)) hitem, hmore]
      simp

/-- **Whatever is accepted as items** is a text of trees that are the items. -/
theorem renders_of_readItems {P : Doc → α → Prop} (hitem : Tells item P) {bound b r : Bytes}
    {acc as : List α} (h : readItems item bound acc b = .ok (as, r)) :
    ∃ ds as' t, RendersItems acc.isEmpty ds t ∧ b = t ++ r ∧ as = acc.reverse ++ as' ∧
      List.Forall₂ P ds as' := by
  induction bound generalizing acc b with
  | nil => cases h
  | cons y bound ih =>
    obtain ⟨next, hnext, h⟩ := bind_eq_ok_iff.1 h
    rcases nextItem_cases hnext with ⟨ws, r', hws, rfl, rfl⟩ | ⟨s, c, hs, rfl, rfl⟩
    · obtain ⟨rfl, rfl⟩ := Prod.mk.inj (Except.ok.inj h)
      exact ⟨[], [], ws ++ [0x5D], .close hws, by simp, by simp, .nil⟩
    · obtain ⟨⟨a, c'⟩, hread, hmore⟩ := bind_eq_ok_iff.1 h
      obtain ⟨ds, as', u, hu, rfl, rfl, hds⟩ := ih hmore
      obtain ⟨ws, t, d, hws, ht, rfl, hd⟩ := hitem _ _ _ hread
      exact ⟨d :: ds, a :: as', s ++ ws ++ (t ++ u), .item (hs.append hws) ht hu, by simp, by simp,
        .cons hd hds⟩

end Items

/-! ## Members -/

section Members

variable {σ : Type} {value : String → σ → Bytes → Except Fault (σ × Bytes)}
  {put : σ → String → Doc → Option σ}

/-- Members put into a state, one after the other. -/
def putAll (put : σ → String → Doc → Option σ) (s : σ) (ms : List (String × Doc)) : Option σ :=
  ms.foldlM (fun s m => put s m.1 m.2) s

theorem putAll_cons_iff {s u : σ} {m : String × Doc} {ms : List (String × Doc)} :
    putAll put s (m :: ms) = some u ↔ ∃ t, put s m.1 m.2 = some t ∧ putAll put t ms = some u := by
  rw [putAll, List.foldlM_cons]
  exact Option.bind_eq_some_iff

/-- **The members of an object** are read whichever text of them a reader is given. -/
theorem readMembers_renders
    (hvalue : ∀ key d s s', put s key d = some s' →
      ∀ ws, Blanks ws → Reads (fun b => value key s (ws ++ 0x3A :: b)) d s')
    {ms : List (String × Doc)} {s u : σ} (hput : putAll put s ms = some u) {first : Bool}
    {t bound : Bytes} (h : RendersMembers first ms t) (hbound : ms.length < bound.length) (r : Bytes) :
    readMembers value bound first s (t ++ r) = .ok (u, r) := by
  induction ms generalizing s first t bound with
  | nil =>
    obtain ⟨y, bound, rfl⟩ := List.exists_cons_of_length_pos hbound
    obtain rfl := Option.some.inj hput
    cases h with
    | close hws =>
      rw [List.append_assoc, readMembers]
      show (nextKey first (_ ++ 0x7D :: r)).bind _ = _
      rw [nextKey_close hws r]
      rfl
  | cons m ms ih =>
    obtain ⟨y, bound, rfl⟩ := List.exists_cons_of_length_pos (Nat.zero_lt_of_lt hbound)
    obtain ⟨s', hm, hms⟩ := putAll_cons_iff.1 hput
    cases h with
    | @member _ sep l ws ws' t u key d _ hs hkey hws hws' hd h =>
      have hread : value key s (ws ++ 0x3A :: (ws' ++ (t ++ (u ++ r)))) = .ok (s', u ++ r) :=
        hvalue key d s s' hm ws hws ws' t (u ++ r) hws' hd (h.stops r)
      simp only [List.append_assoc, List.cons_append]
      rw [readMembers, nextKey_more hs]
      show (readText (l ++ _)).bind _ = _
      rw [hkey]
      show (value key s _).bind _ = _
      rw [hread]
      exact ih hms h (by simpa using hbound)

/-- **Whatever is accepted as members** is a text of trees that lead from one state to the other. -/
theorem renders_of_readMembers
    (hvalue : ∀ key s b s' r, value key s b = .ok (s', r) →
      ∃ ws ws' t d, Blanks ws ∧ Blanks ws' ∧ d.Renders t ∧ b = ws ++ 0x3A :: (ws' ++ (t ++ r)) ∧
        put s key d = some s')
    {bound b r : Bytes} {first : Bool} {s u : σ} (h : readMembers value bound first s b = .ok (u, r)) :
    ∃ ms t, RendersMembers first ms t ∧ b = t ++ r ∧ putAll put s ms = some u := by
  induction bound generalizing first s b with
  | nil => cases h
  | cons y bound ih =>
    obtain ⟨next, hnext, h⟩ := bind_eq_ok_iff.1 h
    rcases nextKey_cases hnext with ⟨ws, r', hws, rfl, rfl⟩ | ⟨sep, c, hs, rfl, rfl⟩
    · obtain ⟨rfl, rfl⟩ := Prod.mk.inj (Except.ok.inj h)
      exact ⟨[], ws ++ [0x7D], .close hws, by simp, rfl⟩
    · obtain ⟨⟨key, c'⟩, hkey, hafter⟩ := bind_eq_ok_iff.1 h
      obtain ⟨⟨s', c''⟩, hread, hmore⟩ := bind_eq_ok_iff.1 hafter
      obtain ⟨ms, u', hu, rfl, hms⟩ := ih hmore
      obtain ⟨ws, ws', t, d, hws, hws', ht, rfl, hd⟩ := hvalue _ _ _ _ _ hread
      obtain ⟨l, rfl, hl⟩ := spans_readText hkey
      exact ⟨(key, d) :: ms, _, .member hs (fun r => hl r trivial) hws hws' ht hu, by simp,
        putAll_cons_iff.2 ⟨s', hd, hms⟩⟩

end Members

end HealthService.Json
