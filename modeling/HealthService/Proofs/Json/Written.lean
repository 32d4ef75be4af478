import HealthService.Proofs.Json.Documents

/-!
# Every document can be written

A document has a text unless there are doubles in it, for which it is not known how they are read: one text
is that without any blanks (`Doc.print`), in which nothing stands for what is only passed over.

* `Doc.renders_print` — **the printed text of a document is one of its texts**.
-/

namespace HealthService.Json

/-- A document in which no double occurs. -/
inductive Doc.Exact : Doc → Prop where
  | scalar {s : Scalar} (h : s.toJson.Exact) : Doc.Exact (.scalar s)
  | ignored : Doc.Exact .ignored
  | list {ds : List Doc} (h : ∀ d ∈ ds, Doc.Exact d) : Doc.Exact (.list ds)
  | object {ms : List (String × Doc)} (h : ∀ m ∈ ms, Doc.Exact m.2) : Doc.Exact (.object ms)

mutual

/-- A text of a document. -/
def Doc.print : Doc → List Char
  | .scalar s => Json.print s.toJson
  | .ignored => Json.print .null
  | .list ds => bracket (Doc.printItems ds)
  | .object ms => brace (Doc.printMembers ms)

/-- Texts of the items of a list. -/
def Doc.printItems : List Doc → List (List Char)
  | [] => []
  | d :: ds => Doc.print d :: Doc.printItems ds

/-- Texts of the members of an object. -/
def Doc.printMembers : List (String × Doc) → List (List Char)
  | [] => []
  | (key, d) :: ms => member key (Doc.print d) :: Doc.printMembers ms

end

theorem begins_of_opens {s : List Char} (h : Opens s) : Begins (Utf8.encode s) := by
  obtain ⟨b, bs, hs, hb, -⟩ := h
  exact ⟨b, bs, hs, (Bool.or_eq_false_iff.1 hb).1⟩

theorem renders_print_scalar {s : Scalar} (h : s.toJson.Exact) :
    (Doc.scalar s).Renders (Utf8.encode (Json.print s.toJson)) := by
  refine .scalar (begins_of_opens (opens_print h)) fun r hr => ?_
  cases s with
  | null => rfl
  | bool b => cases b <;> rfl
  | text s => exact readHead_text s r
  | number n =>
    cases n with
    | int n => exact readHead_int n hr
    | float bits => cases h

theorem renders_print_ignored : Doc.ignored.Renders (Utf8.encode (Json.print .null)) :=
  .ignored (begins_of_opens (opens_print .null)) fun _ _ => rfl

section Items

variable {ds : List Doc} (h : ∀ d ∈ ds, d.Renders (Utf8.encode d.print))

include h in
/-- The items after the first one, each with a comma before it. -/
theorem rendersItems_commas :
    RendersItems false ds (((Doc.printItems ds).flatMap fun q => 0x2C :: Utf8.encode q) ++ [0x5D]) := by
  induction ds with
  | nil => exact .close blanks_nil
  | cons d ds ih =>
    obtain ⟨hd, hds⟩ := List.forall_mem_cons.1 h
    have hcomma : Separates false [0x2C] := ⟨[], [], blanks_nil, blanks_nil, rfl⟩
    have hitems := RendersItems.item hcomma hd (ih hds)
    rwa [Doc.printItems, List.flatMap_cons, List.append_assoc]

include h in
theorem rendersItems_print :
    RendersItems true ds (Utf8.encode (joinCommas (Doc.printItems ds)) ++ [0x5D]) := by
  cases ds with
  | nil => exact .close blanks_nil
  | cons d ds =>
    obtain ⟨hd, hds⟩ := List.forall_mem_cons.1 h
    have hitems := RendersItems.item (show Separates true [] from blanks_nil) hd (rendersItems_commas hds)
    rwa [Doc.printItems, encode_joinCommas_cons, List.append_assoc]

end Items

section Members

/-- A printed member is a key, a colon and a value. -/
theorem rendersMembers_member (key : String) {first : Bool} {s u : Bytes} {d : Doc}
    {ms : List (String × Doc)} (hs : Separates first s) (hd : d.Renders (Utf8.encode d.print))
    (h : RendersMembers false ms u) :
    RendersMembers first ((key, d) :: ms) (s ++ (Utf8.encode (member key d.print) ++ u)) := by
  have hkey : ∀ r, readText ((Utf8.encode (escape key.toList) ++ [0x22]) ++ r) = .ok (key, r) := by
    intro r
    rw [List.append_assoc]
    exact readText_quote key r
  have hmember := RendersMembers.member hs hkey blanks_nil blanks_nil hd h
  rw [encode_member]
  simpa only [List.append_assoc, List.cons_append, List.nil_append] using hmember

variable {ms : List (String × Doc)} (h : ∀ m ∈ ms, m.2.Renders (Utf8.encode m.2.print))

include h in
/-- The members after the first one, each with a comma before it. -/
theorem rendersMembers_commas : RendersMembers false ms
    (((Doc.printMembers ms).flatMap fun q => 0x2C :: Utf8.encode q) ++ [0x7D]) := by
  induction ms with
  | nil => exact .close blanks_nil
  | cons m ms ih =>
    obtain ⟨key, d⟩ := m
    obtain ⟨hd, hms⟩ := List.forall_mem_cons.1 h
    have hcomma : Separates false [0x2C] := ⟨[], [], blanks_nil, blanks_nil, rfl⟩
    have hmembers := rendersMembers_member key hcomma hd (ih hms)
    rwa [Doc.printMembers, List.flatMap_cons, List.append_assoc]

include h in
theorem rendersMembers_print :
    RendersMembers true ms (Utf8.encode (joinCommas (Doc.printMembers ms)) ++ [0x7D]) := by
  cases ms with
  | nil => exact .close blanks_nil
  | cons m ms =>
    obtain ⟨key, d⟩ := m
    obtain ⟨hd, hms⟩ := List.forall_mem_cons.1 h
    have hmembers := rendersMembers_member key (show Separates true [] from blanks_nil) hd
      (rendersMembers_commas hms)
    rwa [Doc.printMembers, encode_joinCommas_cons, List.append_assoc]

end Members

/-- **The printed text of a document is one of its texts.** -/
theorem Doc.renders_print {d : Doc} (h : d.Exact) : d.Renders (Utf8.encode d.print) := by
  induction h with
  | scalar h => exact renders_print_scalar h
  | ignored => exact renders_print_ignored
  | @list ds _ ih =>
    have htext := encode_bracket (Doc.printItems ds) []
    rw [List.append_nil] at htext
    rw [Doc.print, htext]
    exact .list (rendersItems_print ih)
  | @object ms _ ih =>
    have htext := encode_brace (Doc.printMembers ms) []
    rw [List.append_nil] at htext
    rw [Doc.print, htext]
    exact .object (rendersMembers_print ih)

theorem Doc.rendersWhole_print {d : Doc} (h : d.Exact) : d.RendersWhole (Utf8.encode d.print) :=
  ⟨[], Utf8.encode d.print, [], blanks_nil, d.renders_print h, blanks_nil, by simp⟩

end HealthService.Json
