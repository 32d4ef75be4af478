import HealthService.Proofs.Text.Utf8
import HealthService.Render

/-!
# Rendered documents that nobody may store

Whether a document can be written or not, the response to a health request has its status and the same
four header lines.  They are put in place of all others of their names, so that no older line of such a
name is left for somebody on the way to go by.

* `Headers.insertAll_eq` — lines put in place of others: what is left, and then these lines.
* `Headers.values_insertAll`, `Headers.insertAll_idem` — the values of every name afterwards, and that it
  makes no difference to do it again.
* `renders_unstored` — **what is rendered of any value, and what becomes of any response** that nobody
  may store.
-/

namespace HealthService

namespace Headers

/-- With these lines in place of all others of their names. -/
def insertAll (h lines : Headers) : Headers := lines.foldl (fun h l => h.insert l.1 l.2) h

variable {lines : Headers}

/-- **What is left of the other names, and then these lines**, if their names are different. -/
theorem insertAll_eq (hnames : (lines.map Prod.fst).Nodup) (h : Headers) :
    h.insertAll lines = (h.filter fun l => l.1 ∉ lines.map Prod.fst) ++ lines := by
  induction lines generalizing h with
  | nil =>
    rw [List.append_nil, List.filter_eq_self.2 (fun l _ => by simp)]
    rfl
  | cons line lines ih =>
    obtain ⟨name, value⟩ := line
    rw [List.map_cons, List.nodup_cons] at hnames
    have hrest : ((name, value) :: lines).map Prod.fst = name :: lines.map Prod.fst := rfl
    have hboth : ∀ l : String × Bytes, (decide (l.1 ∉ lines.map Prod.fst) && decide (l.1 ≠ name)) =
        decide (l.1 ∉ name :: lines.map Prod.fst) := by
      intro l
      rw [← Bool.decide_and]
      exact decide_eq_decide.2 (by rw [List.mem_cons, not_or, and_comm])
    calc h.insertAll ((name, value) :: lines)
      _ = (h.insert name value).insertAll lines := rfl
      _ = ((h.erase name ++ [(name, value)]).filter fun l => l.1 ∉ lines.map Prod.fst) ++ lines :=
        ih hnames.2 _
      _ = ((h.erase name).filter fun l => l.1 ∉ lines.map Prod.fst) ++ ((name, value) :: lines) := by
        rw [List.filter_append, List.filter_cons_of_pos (by simpa using hnames.1), List.append_assoc]
        rfl
      _ = _ := by
        rw [erase, List.filter_filter, hrest]
        simp only [hboth]

/-- A name has just the values of these lines if they have any, and otherwise keeps its own. -/
theorem values_insertAll (hnames : (lines.map Prod.fst).Nodup) (h : Headers) (name : String) :
    (h.insertAll lines).values name =
      if name ∈ lines.map Prod.fst then lines.values name else h.values name := by
  have hnone : name ∉ lines.map Prod.fst → lines.values name = [] := by
    intro hname
    rw [values, List.filter_eq_nil_iff.2, List.map_nil]
    intro l hl he
    exact hname (of_decide_eq_true he ▸ List.mem_map_of_mem hl)
  rw [insertAll_eq hnames, values, List.filter_append, List.map_append, List.filter_filter]
  split
  · rename_i hname
    rw [List.filter_eq_nil_iff.2, List.map_nil, List.nil_append, values]
    intro l _ hl
    simp only [Bool.and_eq_true, decide_eq_true_eq] at hl
    exact hl.2 (hl.1 ▸ hname)
  · rename_i hname
    have hkept : ∀ l ∈ h, (decide (l.1 = name) && decide (l.1 ∉ lines.map Prod.fst)) =
        decide (l.1 = name) := by
      intro l _
      by_cases hl : l.1 = name
      · simp only [hl, hname, not_false_eq_true, decide_true, Bool.and_self]
      · simp only [hl, decide_false, Bool.false_and]
    rw [List.filter_congr hkept, ← values, ← values, hnone hname, List.append_nil]

/-- Lines with different names have one value each. -/
theorem values_of_mem (hnames : (lines.map Prod.fst).Nodup)
    {line : String × Bytes} (hline : line ∈ lines) : lines.values line.1 = [line.2] := by
  induction lines with
  | nil => cases hline
  | cons first lines ih =>
    rw [List.map_cons, List.nodup_cons] at hnames
    rcases List.mem_cons.1 hline with rfl | hline
    · have hrest : (lines.filter fun l => l.1 = line.1) = [] := by
        rw [List.filter_eq_nil_iff]
        intro l hl he
        exact hnames.1 (of_decide_eq_true he ▸ List.mem_map_of_mem hl)
      rw [values, List.filter_cons_of_pos (by simp), hrest]
      rfl
    · have hne : first.1 ≠ line.1 := fun he => hnames.1 (he ▸ List.mem_map_of_mem hline)
      rw [values, List.filter_cons_of_neg (by simpa using hne)]
      exact ih hnames.2 hline

/-- It makes no difference to put lines in place of others again. -/
theorem insertAll_idem (hnames : (lines.map Prod.fst).Nodup) (h : Headers) :
    (h.insertAll lines).insertAll lines = h.insertAll lines := by
  have hgone : (lines.filter fun l => l.1 ∉ lines.map Prod.fst) = [] := by
    rw [List.filter_eq_nil_iff]
    intro l hl
    simpa using List.mem_map_of_mem (f := Prod.fst) hl
  rw [insertAll_eq hnames (h.insertAll lines), insertAll_eq hnames, List.filter_append, hgone,
    List.filter_filter, List.append_nil]
  simp only [Bool.and_self]

end Headers

/-! ## The lines of a health response -/

/-- The lines that forbid to store a response. -/
def storeLines : Headers :=
  [("cache-control", Utf8.ofString "no-store, no-cache"), ("pragma", Utf8.ofString "no-cache"),
    ("expires", Utf8.ofString "Thu, 01 Jan 1970 00:00:00 GMT")]

/-- The lines of a health response: those that forbid to store it, and the one that says what it is. -/
def healthLines : Headers := storeLines ++ [("content-type", Utf8.ofString "application/json")]

theorem nodup_healthLines : (healthLines.map Prod.fst).Nodup := by decide

theorem nodup_storeLines : (storeLines.map Prod.fst).Nodup := by decide

theorem uncached_eq (h : Headers) : uncached h = h.insertAll storeLines := rfl

theorem headers_renderJson (status : Nat) (document : Except String (List Char)) (route : String) :
    (renderJson status document route).1.headers = Headers.insertAll [] healthLines := by
  cases document <;> rfl

/-! ## What has to come of documents and responses -/

/-- What has to come of a document, or of the reason why there is none: the response and what is logged
about it. -/
structure Response.Renders (x : Response) (entries : List Entry) (status : Nat)
    (document : Except String (List Char)) (route : String) : Prop where
  status_eq : x.status = status
  written : ∀ text, document = .ok text → x.body = Utf8.encode (text ++ ['\n']) ∧ entries = []
  failed : ∀ reason, document = .error reason → x.body = [] ∧ ∃ event : Event,
    entries = [⟨event, []⟩] ∧ event.level = .error ∧
      event.message = "failed to encode health response" ∧
      event.fields = [("route", .text route), ("status", .number status), ("err", .text reason)]
  empty_iff : x.body = [] ↔ ∃ reason, document = .error reason
  lines : ∀ line ∈ healthLines, x.headers.values line.1 = [line.2]

/-- What has to become of a response that nobody may store. -/
structure Response.Unstored (y x : Response) : Prop where
  lines : ∀ line ∈ storeLines, y.headers.values line.1 = [line.2]
  others : ∀ name ∉ storeLines.map Prod.fst, y.headers.values name = x.headers.values name
  status_eq : y.status = x.status
  body_eq : y.body = x.body

theorem renders_renderJson (status : Nat) (document : Except String (List Char)) (route : String) :
    (renderJson status document route).1.Renders (renderJson status document route).2 status document
      route where
  status_eq := by cases document <;> rfl
  written := by
    rintro text rfl
    exact ⟨rfl, rfl⟩
  failed := by
    rintro reason rfl
    exact ⟨rfl, .encodingFailed route status reason, rfl, rfl, rfl, rfl⟩
  empty_iff := by
    cases document with
    | error reason => exact ⟨fun _ => ⟨reason, rfl⟩, fun _ => rfl⟩
    | ok text =>
      -- a document that has been written ends with a line feed
      have hbody : (renderJson status (.ok text) route).1.body = Utf8.encode text ++ [0x0A] :=
        Utf8.encode_append text ['\n']
      rw [hbody]
      simp
  lines := by
    intro line hline
    rw [headers_renderJson, Headers.values_insertAll nodup_healthLines,
      if_pos (List.mem_map_of_mem hline), Headers.values_of_mem nodup_healthLines hline]

theorem unstored_disableCache (x : Response) : (disableCache x).Unstored x where
  lines := by
    intro line hline
    rw [disableCache, uncached_eq, Headers.values_insertAll nodup_storeLines,
      if_pos (List.mem_map_of_mem hline), Headers.values_of_mem nodup_storeLines hline]
  others := by
    intro name hname
    rw [disableCache, uncached_eq, Headers.values_insertAll nodup_storeLines, if_neg hname]
  status_eq := rfl
  body_eq := rfl

/-- **What is rendered of any value, and what becomes of any response that nobody may store.**

* A value is written by some encoder, which may fail.  The response has the status that was asked for and
  one line each for the three names of the cache and for the type, whether the encoder failed or not.  Its
  body is the text and a line feed, or empty if there is no text; just then one event tells the route, the
  status and the reason.
* Whatever lines a response has, in whatever order and however often, it has afterwards one line for each of
  the three names, and everything else of it is as it was.  To do this again changes nothing. -/
theorem renders_unstored :
    (∀ (α : Type) (encode : α → Except String (List Char)) (value : α) (status : Nat) (route : String),
      (renderJson status (encode value) route).1.Renders (renderJson status (encode value) route).2
        status (encode value) route) ∧
    ∀ x : Response, (disableCache x).Unstored x ∧ disableCache (disableCache x) = disableCache x := by
  refine ⟨fun α encode value status route => renders_renderJson status (encode value) route,
    fun x => ⟨unstored_disableCache x, ?_⟩⟩
  rw [disableCache, disableCache, uncached_eq, uncached_eq, Headers.insertAll_idem nodup_storeLines]

end HealthService
