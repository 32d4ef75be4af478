import HealthService.Proofs.Json.Scalars

/-!
# Values are read back

The printer writes the members of an object in the order in which a value holds them, and the reader
keeps them sorted by key, the last one of several with one key.  So what is read of a printed value is
the value with its objects brought in order (`Json.sorted`).

* `readItems_texts`, `readMembers_fills` — **pieces that are read one by one are read as a list or as
  an object**, for any kind of pieces.
* `readAny_print` — **a value without doubles is read back**, whatever follows it, if it is not nested
  too deeply.
* `ofBytes_print` — so is a document, which ends with a line feed.
* `get?_sorted` — the members of an object that has been read.
-/

namespace HealthService.Json

/-! ## Values without doubles, and values in order -/

/-- A value in which no double occurs. -/
inductive Exact : Json → Prop where
  | null : Exact .null
  | bool (b : Bool) : Exact (.bool b)
  | int (n : WordInt) : Exact (.int n)
  | text (s : String) : Exact (.text s)
  | list {items : List Json} (h : ∀ j ∈ items, Exact j) : Exact (.list items)
  | object {members : Members} (h : ∀ m ∈ members, Exact m.2) : Exact (.object members)

mutual

/-- The value as a reader keeps it: with the members of its objects sorted by key, and of several with
one key only the last. -/
def sorted : Json → Json
  | .list items => .list (sortedItems items)
  | .object members => .object (sortedMembers [] members)
  | j => j

/-- The items of a list as a reader keeps them. -/
def sortedItems : List Json → List Json
  | [] => []
  | j :: rest => sorted j :: sortedItems rest

/-- The members of an object as a reader keeps them, put among others that came before. -/
def sortedMembers (before : Members) : List (String × Json) → Members
  | [] => before
  | (k, j) :: rest => sortedMembers (insertMember k (sorted j) before) rest

end

theorem sortedItems_eq (items : List Json) : sortedItems items = items.map sorted := by
  induction items with
  | nil => rfl
  | cons j items ih => rw [sortedItems, ih, List.map_cons]

theorem sortedMembers_eq (before members : Members) : sortedMembers before members =
    members.foldl (fun acc m => insertMember m.1 (sorted m.2) acc) before := by
  induction members generalizing before with
  | nil => rfl
  | cons m members ih => rw [sortedMembers, ih, List.foldl_cons]

theorem printItems_eq (items : List Json) : printItems items = items.map print := by
  induction items with
  | nil => rfl
  | cons j items ih => rw [printItems, ih, List.map_cons]

theorem printMembers_eq (members : Members) :
    printMembers members = members.map fun m => member m.1 (print m.2) := by
  induction members with
  | nil => rfl
  | cons m members ih => rw [printMembers, ih, List.map_cons]

/-- A list is nested as deeply as its items. -/
theorem depthOfList_le_iff {items : List Json} {n : Nat} :
    depthOfList items ≤ n ↔ ∀ j ∈ items, depth j ≤ n := by
  induction items with
  | nil => simp [depthOfList]
  | cons j items ih => rw [depthOfList, max_le_iff, ih, List.forall_mem_cons]

/-- An object is nested as deeply as the values of its members. -/
theorem depthOfMembers_le_iff {members : Members} {n : Nat} :
    depthOfMembers members ≤ n ↔ ∀ m ∈ members, depth m.2 ≤ n := by
  induction members with
  | nil => simp [depthOfMembers]
  | cons m members ih => rw [depthOfMembers, max_le_iff, ih, List.forall_mem_cons]

/-! ## Pieces with commas between them -/

/-- A text that begins with neither a blank nor the end of a list. -/
def Opens (s : List Char) : Prop :=
  ∃ b bs, Utf8.encode s = b :: bs ∧ Blank.isAsciiByte b = false ∧ b ≠ 0x5D

theorem skipBlank_cons {b : UInt8} (h : Blank.isAsciiByte b = false) (bs : Bytes) :
    skipBlank (b :: bs) = b :: bs := by
  have hjson : Blank.isJsonByte b = false := (Bool.or_eq_false_iff.1 h).1
  rw [skipBlank, List.dropWhile_cons, if_neg (by simp [hjson])]

theorem encode_joinCommas_cons (p : List Char) (ps : List (List Char)) :
    Utf8.encode (joinCommas (p :: ps)) =
      Utf8.encode p ++ ps.flatMap fun q => 0x2C :: Utf8.encode q := by
  induction ps generalizing p with
  | nil => simp [joinCommas]
  | cons q ps ih =>
    rw [joinCommas, Utf8.encode_append, Utf8.encode_cons, ih q]
    · rfl
    · simp

theorem length_le_encode_joinCommas (ps : List (List Char)) :
    ps.length ≤ (Utf8.encode (joinCommas ps)).length + 1 := by
  cases ps with
  | nil => exact Nat.zero_le _
  | cons p ps =>
    have hcommas : ps.length ≤ (ps.flatMap fun q => 0x2C :: Utf8.encode q).length := by
      induction ps with
      | nil => exact le_rfl
      | cons q ps ih =>
        rw [List.flatMap_cons, List.length_append, List.length_cons, List.length_cons]
        omega
    rw [encode_joinCommas_cons, List.length_append, List.length_cons]
    omega

/-- A list or an object has more bytes than pieces, so that its bytes bound the steps of its reader. -/
theorem length_lt_encode {β : Type} (xs : List β) (text : β → List Char) (start close : UInt8)
    (rest : Bytes) :
    xs.length < (start :: (Utf8.encode (joinCommas (xs.map text)) ++ close :: rest)).length := by
  have hpieces := length_le_encode_joinCommas (xs.map text)
  rw [List.length_map] at hpieces
  simp only [List.length_cons, List.length_append]
  omega

/-- What follows a piece does not go on with a number: it is a comma or a closing bracket or brace. -/
theorem stops_commas (ps : List (List Char)) {close : UInt8} (rest : Bytes)
    (hclose : close = 0x5D ∨ close = 0x7D) :
    Stops ((ps.flatMap fun q => 0x2C :: Utf8.encode q) ++ close :: rest) := by
  cases ps with
  | nil => rcases hclose with rfl | rfl <;> exact stops_cons _ (by decide)
  | cons q ps => exact stops_cons _ (by decide)

section Items

variable {α β : Type} {item : Bytes → Except Fault (α × Bytes)} {text : β → List Char} {value : β → α}

theorem readItems_close {x : UInt8} {bound b : Bytes} {acc : List α} (here : Bytes)
    (h : nextItem acc.isEmpty b = .ok (.close here)) :
    readItems item (x :: bound) acc b = .ok (acc.reverse, here.drop 1) := by
  rw [readItems, h]
  rfl

theorem readItems_more {x : UInt8} {bound b c rest : Bytes} {acc : List α} {a : α}
    (h : nextItem acc.isEmpty b = .ok (.more c)) (hitem : item c = .ok (a, rest)) :
    readItems item (x :: bound) acc b = readItems item bound (a :: acc) rest := by
  rw [readItems, h]
  show (item c).bind _ = _
  rw [hitem]
  rfl

/-- The items after the first one, each with a comma before it. -/
theorem readItems_commas {xs : List β} (hopens : ∀ x ∈ xs, Opens (text x))
    (hread : ∀ x ∈ xs, ∀ rest, Stops rest → item (Utf8.encode (text x) ++ rest) = .ok (value x, rest))
    {bound : Bytes} (hbound : xs.length < bound.length) {acc : List α} (hacc : acc ≠ [])
    (rest : Bytes) :
    readItems item bound acc
        (((xs.map text).flatMap fun q => 0x2C :: Utf8.encode q) ++ 0x5D :: rest) =
      .ok (acc.reverse ++ xs.map value, rest) := by
  induction xs generalizing bound acc with
  | nil =>
    obtain ⟨y, bound, rfl⟩ := List.exists_cons_of_length_pos hbound
    rw [readItems_close (0x5D :: rest)]
    · simp
    · rfl
  | cons x xs ih =>
    obtain ⟨y, bound, rfl⟩ := List.exists_cons_of_length_pos (Nat.zero_lt_of_lt hbound)
    obtain ⟨hx, hxs⟩ := List.forall_mem_cons.1 hread
    obtain ⟨⟨b, bs, hbytes, hblank, hne⟩, hopens⟩ := List.forall_mem_cons.1 hopens
    have hnext : ∀ c, nextItem acc.isEmpty (0x2C :: (Utf8.encode (text x) ++ c)) =
        .ok (.more (Utf8.encode (text x) ++ c)) := by
      intro c
      rw [hbytes, List.cons_append, nextItem, skipBlank_cons (by decide)]
      simp only [skipBlank_cons hblank, if_neg hne, List.isEmpty_eq_false_iff.2 hacc]
      rfl
    rw [List.map_cons, List.flatMap_cons, List.append_assoc, List.cons_append,
      readItems_more (hnext _) (hx _ (stops_commas _ rest (Or.inl rfl))),
      ih hopens hxs (by simpa using hbound) (by simp)]
    simp

/-- **Pieces that are read one by one are read as a list.** -/
theorem readItems_texts {xs : List β} (hopens : ∀ x ∈ xs, Opens (text x))
    (hread : ∀ x ∈ xs, ∀ rest, Stops rest → item (Utf8.encode (text x) ++ rest) = .ok (value x, rest))
    {bound : Bytes} (hbound : xs.length < bound.length) (rest : Bytes) :
    readItems item bound [] (Utf8.encode (joinCommas (xs.map text)) ++ 0x5D :: rest) =
      .ok (xs.map value, rest) := by
  obtain ⟨y, bound, rfl⟩ := List.exists_cons_of_length_pos (Nat.zero_lt_of_lt hbound)
  cases xs with
  | nil =>
    rw [readItems_close (0x5D :: rest)]
    · rfl
    · rfl
  | cons x xs =>
    obtain ⟨hx, hxs⟩ := List.forall_mem_cons.1 hread
    obtain ⟨⟨b, bs, hbytes, hblank, hne⟩, hopens⟩ := List.forall_mem_cons.1 hopens
    have hnext : ∀ c, nextItem ([] : List α).isEmpty (Utf8.encode (text x) ++ c) =
        .ok (.more (Utf8.encode (text x) ++ c)) := by
      intro c
      rw [hbytes, List.cons_append, nextItem, skipBlank_cons hblank]
      simp only [if_neg hne, List.isEmpty_nil, if_true]
    rw [List.map_cons, encode_joinCommas_cons, List.append_assoc,
      readItems_more (hnext _) (hx _ (stops_commas _ rest (Or.inl rfl))),
      readItems_commas hopens hxs (by simpa using hbound) (by simp)]
    rfl

end Items

section Members

variable {σ β : Type} {value : String → σ → Bytes → Except Fault (σ × Bytes)}

/-- Keys with the texts of their values: read one after the other they take one state to another. -/
inductive Fills (value : String → σ → Bytes → Except Fault (σ × Bytes)) :
    List (String × List Char) → σ → σ → Prop where
  | nil (s : σ) : Fills value [] s s
  | cons {k : String} {v : List Char} {xs : List (String × List Char)} {s t u : σ}
      (h : ∀ rest, Stops rest → value k s (0x3A :: (Utf8.encode v ++ rest)) = .ok (t, rest))
      (hxs : Fills value xs t u) : Fills value ((k, v) :: xs) s u

/-- Values that are read in every state are read one after the other. -/
theorem fills_foldl {key : β → String} {text : β → List Char} {put : σ → β → σ} {xs : List β}
    (hread : ∀ x ∈ xs, ∀ state rest, Stops rest →
      value (key x) state (0x3A :: (Utf8.encode (text x) ++ rest)) = .ok (put state x, rest))
    (state : σ) : Fills value (xs.map fun x => (key x, text x)) state (xs.foldl put state) := by
  induction xs generalizing state with
  | nil => exact .nil state
  | cons x xs ih =>
    obtain ⟨hx, hxs⟩ := List.forall_mem_cons.1 hread
    exact .cons (hx state) (ih hxs _)

theorem readMembers_close {x : UInt8} {bound b : Bytes} {first : Bool} {state : σ} (here : Bytes)
    (h : nextKey first b = .ok (.close here)) :
    readMembers value (x :: bound) first state b = .ok (state, here.drop 1) := by
  rw [readMembers, h]
  rfl

theorem readMembers_more {x : UInt8} {bound b rest rest' : Bytes} {first : Bool} {state state' : σ}
    {k : String} (h : nextKey first b = .ok (.more (Utf8.encode (escape k.toList) ++ 0x22 :: rest)))
    (hvalue : value k state rest = .ok (state', rest')) :
    readMembers value (x :: bound) first state b = readMembers value bound false state' rest' := by
  rw [readMembers, h]
  show (readText _).bind _ = _
  rw [readText_quote]
  show (value k state rest).bind _ = _
  rw [hvalue]
  rfl

/-- The bytes of a member. -/
theorem encode_member (k : String) (v : List Char) (rest : Bytes) :
    Utf8.encode (member k v) ++ rest =
      0x22 :: (Utf8.encode (escape k.toList) ++ 0x22 :: 0x3A :: (Utf8.encode v ++ rest)) := by
  rw [member, Utf8.encode_append, encode_quote, Utf8.encode_cons]
  simp only [List.cons_append, List.append_assoc]
  rfl

/-- The members after the first one, each with a comma before it. -/
theorem readMembers_commas {xs : List (String × List Char)} {s t : σ} (h : Fills value xs s t)
    {bound : Bytes} (hbound : xs.length < bound.length) (rest : Bytes) :
    readMembers value bound false s
        (((xs.map fun x => member x.1 x.2).flatMap fun q => 0x2C :: Utf8.encode q) ++ 0x7D :: rest) =
      .ok (t, rest) := by
  induction h generalizing bound with
  | nil s =>
    obtain ⟨y, bound, rfl⟩ := List.exists_cons_of_length_pos hbound
    rw [readMembers_close (0x7D :: rest)]
    · rfl
    · rfl
  | cons hx _ ih =>
    obtain ⟨y, bound, rfl⟩ := List.exists_cons_of_length_pos (Nat.zero_lt_of_lt hbound)
    rw [List.map_cons, List.flatMap_cons, List.append_assoc, List.cons_append, encode_member,
      readMembers_more rfl (hx _ (stops_commas _ rest (Or.inr rfl))), ih (by simpa using hbound)]

/-- **Members that are read one after the other are read as an object.** -/
theorem readMembers_fills {xs : List (String × List Char)} {s t : σ} (h : Fills value xs s t)
    {bound : Bytes} (hbound : xs.length < bound.length) (rest : Bytes) :
    readMembers value bound true s
        (Utf8.encode (joinCommas (xs.map fun x => member x.1 x.2)) ++ 0x7D :: rest) =
      .ok (t, rest) := by
  obtain ⟨y, bound, rfl⟩ := List.exists_cons_of_length_pos (Nat.zero_lt_of_lt hbound)
  cases h with
  | nil =>
    rw [readMembers_close (0x7D :: rest)]
    · rfl
    · rfl
  | cons hx hxs =>
    rw [List.map_cons, encode_joinCommas_cons, List.append_assoc, encode_member,
      readMembers_more rfl (hx _ (stops_commas _ rest (Or.inr rfl))),
      readMembers_commas hxs (by simpa using hbound)]

end Members

/-! ## Values -/

/-- What begins an integer is no blank. -/
theorem isAsciiByte_of_begins {b : UInt8} (hb : b = 0x2D ∨ isDigit b = true) :
    Blank.isAsciiByte b = false := by
  simp only [Blank.isAsciiByte, Blank.isJsonByte, Bool.or_eq_false_iff, beq_eq_false_iff_ne]
  exact ⟨⟨⟨⟨ne_of_begins hb (by decide), ne_of_begins hb (by decide)⟩,
    ne_of_begins hb (by decide)⟩, ne_of_begins hb (by decide)⟩, ne_of_begins hb (by decide)⟩

theorem opens_print {j : Json} (h : j.Exact) : Opens (print j) := by
  cases h with
  | null => exact ⟨_, _, rfl, by decide, by decide⟩
  | bool b => cases b <;> exact ⟨_, _, rfl, by decide, by decide⟩
  | text s => exact ⟨_, _, encode_quote s, by decide, by decide⟩
  | list => exact ⟨0x5B, _, rfl, by decide, by decide⟩
  | object => exact ⟨0x7B, _, rfl, by decide, by decide⟩
  | int n =>
    obtain ⟨b, bs, hbytes, hb⟩ := encode_ofInt n.val
    exact ⟨b, bs, hbytes, isAsciiByte_of_begins hb, ne_of_begins hb (by decide)⟩

theorem readHead_int (n : WordInt) {rest : Bytes} (hrest : Stops rest) :
    readHead (Utf8.encode (Decimal.ofInt n.val) ++ rest) = .ok (.scalar (.number (.int n)) rest) := by
  have hread := readNumber_print n hrest
  obtain ⟨b, bs, hbytes, hb⟩ := encode_ofInt n.val
  rw [hbytes, List.cons_append] at hread ⊢
  rw [readHead, skipBlank_cons (isAsciiByte_of_begins hb)]
  dsimp only
  rw [if_neg (ne_of_begins hb (by decide)), if_neg (ne_of_begins hb (by decide)),
    if_neg (ne_of_begins hb (by decide)), if_pos hb, hread]
  rfl

theorem readHead_text (s : String) (rest : Bytes) :
    readHead (Utf8.encode (quote s) ++ rest) = .ok (.scalar (.text s) rest) := by
  rw [encode_quote, List.cons_append, List.append_assoc, readHead, skipBlank_cons (by decide)]
  show (readText _).bind _ = _
  rw [List.singleton_append, readText_quote]
  rfl

theorem readAny_scalar {levels : Nat} {b rest : Bytes} {s : Scalar}
    (h : readHead b = .ok (.scalar s rest)) : readAny levels b = .ok (s.toJson, rest) := by
  unfold readAny
  rw [h]
  rfl

/-- The bytes of a list. -/
theorem encode_bracket (items : List (List Char)) (rest : Bytes) :
    Utf8.encode (bracket items) ++ rest =
      0x5B :: (Utf8.encode (joinCommas items) ++ 0x5D :: rest) := by
  rw [bracket, Utf8.encode_cons, Utf8.encode_append]
  simp only [List.append_assoc]
  rfl

/-- The bytes of an object. -/
theorem encode_brace (members : List (List Char)) (rest : Bytes) :
    Utf8.encode (brace members) ++ rest =
      0x7B :: (Utf8.encode (joinCommas members) ++ 0x7D :: rest) := by
  rw [brace, Utf8.encode_cons, Utf8.encode_append]
  simp only [List.append_assoc]
  rfl

/-- How the members of an object are read: the value of each is put among those before it. -/
def readMember (value : Bytes → Except Fault (Json × Bytes)) (key : String) (acc : Members)
    (b : Bytes) : Except Fault (Members × Bytes) := do
  let rest ← readColon b
  let (v, rest) ← value rest
  .ok (insertMember key v acc, rest)

/-- **A value without doubles is read back**, with its objects in order, whatever follows it that does
not go on with a number. -/
theorem readAny_print {j : Json} (h : j.Exact) {levels : Nat} (hlevels : j.depth ≤ levels)
    {rest : Bytes} (hrest : Stops rest) :
    readAny levels (Utf8.encode (print j) ++ rest) = .ok (j.sorted, rest) := by
  induction h generalizing levels rest with
  | null => exact readAny_scalar (s := .null) rfl
  | bool b => cases b <;> exact readAny_scalar (s := .bool _) rfl
  | int n => exact readAny_scalar (readHead_int n hrest)
  | text s => exact readAny_scalar (readHead_text s rest)
  | @list items hall ih =>
    rw [depth] at hlevels
    obtain ⟨l, rfl⟩ : ∃ l, levels = l + 1 := ⟨levels - 1, by omega⟩
    have hread : ∀ j ∈ items, ∀ rest, Stops rest →
        readAny l (Utf8.encode (print j) ++ rest) = .ok (sorted j, rest) :=
      fun j hj rest hrest => ih j hj (depthOfList_le_iff.1 (by omega) j hj) hrest
    rw [print, printItems_eq, encode_bracket, sorted, sortedItems_eq]
    unfold readAny
    show (readItems (readAny l) _ [] _).bind _ = _
    rw [List.drop_one, List.tail_cons,
      readItems_texts (fun j hj => opens_print (hall j hj)) hread (length_lt_encode items print _ _ _)]
    rfl
  | @object members hall ih =>
    rw [depth] at hlevels
    obtain ⟨l, rfl⟩ : ∃ l, levels = l + 1 := ⟨levels - 1, by omega⟩
    have hread : ∀ m ∈ members, ∀ acc rest, Stops rest →
        readMember (readAny l) m.1 acc (0x3A :: (Utf8.encode (print m.2) ++ rest)) =
          .ok (insertMember m.1 (sorted m.2) acc, rest) := by
      intro m hm acc rest hrest
      show (readAny l _).bind _ = _
      rw [ih m hm (depthOfMembers_le_iff.1 (by omega) m hm) hrest]
      rfl
    have hmembers : (members.map fun m => member m.1 (print m.2)) =
        (members.map fun m => (m.1, print m.2)).map fun x => member x.1 x.2 := by
      rw [List.map_map]
      rfl
    rw [print, printMembers_eq, hmembers, encode_brace, sorted, sortedMembers_eq]
    unfold readAny
    show (readMembers (readMember (readAny l)) _ true [] _).bind _ = _
    rw [List.drop_one, List.tail_cons,
      readMembers_fills (fills_foldl hread []) (length_lt_encode _ _ _ _ _)]
    rfl

/-- **A document without doubles is read back**, with its objects in order. -/
theorem ofBytes_print {j : Json} (h : j.Exact) (hlevels : j.depth ≤ maxLevels) :
    ofBytes (Utf8.encode (print j ++ ['\n'])) = .ok j.sorted := by
  have hread := readAny_print h hlevels (stops_cons (b := 0x0A) [] (by decide))
  rw [Utf8.encode_append]
  show (readAny maxLevels (_ ++ [0x0A])).bind finish = _
  rw [hread]
  rfl

/-! ## Members -/

theorem lookup_cons_eq (key other : String) (value : Json) (members : Members) :
    List.lookup other ((key, value) :: members) =
      if other = key then some value else members.lookup other := by
  rw [List.lookup_cons]
  by_cases h : other = key
  · simp [h]
  · simp [h, beq_eq_false_iff_ne.2 h]

theorem lookup_insertMember (key other : String) (value : Json) (members : Members) :
    (insertMember key value members).lookup other =
      if other = key then some value else members.lookup other := by
  induction members with
  | nil => exact lookup_cons_eq ..
  | cons m members ih =>
    obtain ⟨k, v⟩ := m
    unfold insertMember
    split
    · rename_i heq
      subst heq
      rw [lookup_cons_eq, lookup_cons_eq]
      split <;> rfl
    · rename_i hne
      split
      · exact lookup_cons_eq ..
      · rw [lookup_cons_eq, lookup_cons_eq, ih]
        split
        · rename_i heq
          rw [if_neg (heq ▸ Ne.symm hne)]
        · rfl

theorem lookup_sortedMembers {key : String} {before members : Members}
    (h : ∀ m ∈ members, m.1 ≠ key) :
    (sortedMembers before members).lookup key = before.lookup key := by
  induction members generalizing before with
  | nil => rfl
  | cons m members ih =>
    obtain ⟨hm, hmembers⟩ := List.forall_mem_cons.1 h
    rw [sortedMembers, ih hmembers, lookup_insertMember, if_neg (Ne.symm hm)]

/-- **Of the members with one key a reader keeps the last.** -/
theorem get?_sorted {key : String} {value : Json} {before after : Members}
    (h : ∀ m ∈ after, m.1 ≠ key) :
    (sorted (.object (before ++ (key, value) :: after))).get? key = some value.sorted := by
  rw [sorted, get?, sortedMembers_eq, List.foldl_append, List.foldl_cons, ← sortedMembers_eq,
    lookup_sortedMembers h, lookup_insertMember, if_pos rfl]

end HealthService.Json
