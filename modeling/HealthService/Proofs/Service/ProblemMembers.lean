import HealthService.Proofs.Service.ProblemSteps

/-!
# The members of a problem

A problem is written as an object.  Each step writes one member of it or, if it is an extension with the name of
a standard member, none.

* `Step.written?` — the value that a step writes to a member.
* `get?_document_apply`, `get?_document_after` — what one step does to a member, and what any number of
  them do.
* `Separate.apply`, `Separate.after` — no extension is ever called like a standard member.
* `Separate.eq_of_get?` — a problem is known by its members.
* `members_after_steps` — **the last step that writes a member decides about it**, no member is written
  twice, and only the order of steps that write the same member counts.
-/

namespace HealthService.Problem

open Json

/-! ## What a step writes -/

/-- The value that a step writes to a member. An extension that is called like a standard member is not
written. -/
def Step.written? (key : String) : Step → Option Json
  | .type uri => if key = "type" then some (.text uri) else none
  | .detail words => if key = "detail" then some (.text words) else none
  | .occurrence uri => if key = "instance" then some (.text uri) else none
  | .extension name value => if key = name ∧ name ∉ reservedNames then some value else none

/-- Whether a step writes a member. -/
def Step.writes (key : String) (step : Step) : Bool := (step.written? key).isSome

/-- The value that the last of the steps that write a member writes to it. -/
def lastWritten? (key : String) (steps : List Step) : Option Json :=
  (steps.filterMap (Step.written? key)).getLast?

/-- What a step logs. -/
def Step.remark : Step → List Entry
  | .extension key _ => if key ∈ reservedNames then [⟨.reservedExtension key, []⟩] else []
  | _ => []

/-- What is logged while a problem goes through some steps. -/
def journal : Problem → List Step → List Entry
  | _, [] => []
  | p, step :: steps => (p.apply step).2 ++ journal (p.apply step).1 steps

theorem lastWritten?_cons (key : String) (step : Step) (steps : List Step) :
    lastWritten? key (step :: steps) = (lastWritten? key steps).or (step.written? key) := by
  unfold lastWritten?
  cases hstep : step.written? key with
  | none => rw [List.filterMap_cons_none hstep, Option.or_none]
  | some value =>
    rw [List.filterMap_cons_some hstep, List.getLast?_cons]
    cases (steps.filterMap (Step.written? key)).getLast? <;> rfl

/-- Only the steps that write a member count for it. -/
theorem lastWritten?_filter (key : String) (steps : List Step) :
    lastWritten? key (steps.filter (·.writes key)) = lastWritten? key steps := by
  unfold lastWritten?
  rw [List.filterMap_filter]
  congr 1
  apply List.filterMap_congr
  intro step _
  cases hstep : step.written? key <;> simp [Step.writes, hstep]

theorem withExtension_reserved (p : Problem) {key : String} (value : Json) (hkey : key ∈ reservedNames) :
    p.withExtension key value = (p, [⟨.reservedExtension key, []⟩]) := by
  rw [withExtension, if_pos (List.contains_iff_mem.2 hkey)]

theorem withExtension_new (p : Problem) {key : String} (value : Json) (hkey : key ∉ reservedNames) :
    p.withExtension key value =
      ({ p with extensions := Json.insertMember key value p.extensions }, []) := by
  rw [withExtension, if_neg (fun hmem => hkey (List.contains_iff_mem.1 hmem))]

/-- What a step logs does not depend on the problem. -/
theorem apply_snd (p : Problem) (step : Step) : (p.apply step).2 = step.remark := by
  cases step with
  | extension key value =>
    show (p.withExtension key value).2 = _
    by_cases hkey : key ∈ reservedNames
    · rw [withExtension_reserved p value hkey, Step.remark, if_pos hkey]
    · rw [withExtension_new p value hkey, Step.remark, if_neg hkey]
  | _ => rfl

/-- **An extension that is ignored is logged**, each once and in order, and nothing else is. -/
theorem journal_eq (p : Problem) (steps : List Step) : p.journal steps = steps.flatMap Step.remark := by
  induction steps generalizing p with
  | nil => rfl
  | cons step steps ih => rw [journal, apply_snd, ih, List.flatMap_cons]

/-! ## Members -/

/-- The members of a problem that are not extensions. -/
def standard (p : Problem) : Json.Members :=
  p.leading ++ ("status", Json.ofNat p.status.toNat) ::
    (textMember "detail" p.detail ++ textMember "instance" p.occurrence)

theorem document_eq (p : Problem) : p.document = .object (p.standard ++ p.extensions) := by
  simp [document, standard, trailing]

theorem get?_document (p : Problem) (key : String) :
    p.document.get? key = (p.standard.lookup key).or (p.extensions.lookup key) := by
  rw [document_eq, get?, List.lookup_append]

/-- The values of the standard members. -/
theorem lookup_standard (p : Problem) (key : String) : p.standard.lookup key =
    if key = "type" then p.kind.map .text
    else if key = "title" then some (.text p.title)
    else if key = "status" then some (Json.ofNat p.status.toNat)
    else if key = "detail" then p.detail.map .text
    else if key = "instance" then p.occurrence.map .text
    else none := by
  have htext (name : String) (value : Option String) :
      (textMember name value).lookup key = if key = name then value.map .text else none := by
    cases value with
    | none => simp [textMember]
    | some words => simpa [textMember] using lookup_cons_eq name key (.text words) []
  simp only [standard, leading, List.lookup_append, lookup_cons_eq, htext]
  by_cases htype : key = "type"
  · simp [htype]
  · by_cases hdetail : key = "detail"
    · simp [hdetail]
    · by_cases htitle : key = "title" <;> simp [htype, hdetail, htitle]

theorem lookup_standard_eq_none (p : Problem) {key : String} (hkey : key ∉ reservedNames) :
    p.standard.lookup key = none := by
  simp only [reservedNames, List.mem_cons, List.not_mem_nil, or_false, not_or] at hkey
  simp [lookup_standard, hkey]

/-- Each standard member is written once. -/
theorem nodup_standard (p : Problem) : (p.standard.map Prod.fst).Nodup := by
  obtain ⟨kind, title, status, detail, occurrence, extensions⟩ := p
  cases kind <;> cases detail <;> cases occurrence <;> simp [standard, leading, textMember]

theorem mem_reserved_of_standard {p : Problem} {m : String × Json} (hm : m ∈ p.standard) :
    m.1 ∈ reservedNames := by
  by_contra hname
  have hlookup := List.lookup_eq_none_iff.1 (p.lookup_standard_eq_none hname) m hm
  simp at hlookup

/-- **What a step does to a member**: it writes it, or leaves it as it is. -/
theorem get?_document_apply (p : Problem) (step : Step) (key : String) :
    (p.apply step).1.document.get? key = (step.written? key).or (p.document.get? key) := by
  rw [get?_document, get?_document]
  cases step with
  | type uri =>
    show ((p.withType uri).standard.lookup key).or (p.extensions.lookup key) = _
    rw [lookup_standard, lookup_standard, Step.written?]
    by_cases hkey : key = "type" <;> simp [hkey, withType]
  | detail words =>
    show ((p.withDetail words).standard.lookup key).or (p.extensions.lookup key) = _
    rw [lookup_standard, lookup_standard, Step.written?]
    by_cases hkey : key = "detail" <;> simp [hkey, withDetail]
  | occurrence uri =>
    show ((p.withInstance uri).standard.lookup key).or (p.extensions.lookup key) = _
    rw [lookup_standard, lookup_standard, Step.written?]
    by_cases hkey : key = "instance" <;> simp [hkey, withInstance]
  | extension name value =>
    show ((p.withExtension name value).1.standard.lookup key).or
      ((p.withExtension name value).1.extensions.lookup key) = _
    by_cases hname : name ∈ reservedNames
    · rw [withExtension_reserved p value hname, Step.written?, if_neg (by simp [hname]), Option.none_or]
    · rw [withExtension_new p value hname, Step.written?, lookup_insertMember]
      show (p.standard.lookup key).or _ = _
      by_cases hkey : key = name
      · -- No standard member is in the way of the extension.
        rw [hkey, if_pos rfl, if_pos ⟨rfl, hname⟩, lookup_standard_eq_none p hname]
        rfl
      · rw [if_neg hkey, if_neg (by simp [hkey]), Option.none_or]

/-- **What any number of steps do to a member**: the last that writes it decides. -/
theorem get?_document_after (p : Problem) (steps : List Step) (key : String) :
    (p.after steps).document.get? key = (lastWritten? key steps).or (p.document.get? key) := by
  induction steps generalizing p with
  | nil => rfl
  | cons step steps ih =>
    rw [lastWritten?_cons, Option.or_assoc, ← get?_document_apply, ← ih]
    rfl

theorem title_apply (p : Problem) (step : Step) : (p.apply step).1.title = p.title := by
  cases step with
  | extension key value =>
    show (p.withExtension key value).1.title = p.title
    unfold withExtension
    split <;> rfl
  | _ => rfl

/-- No step changes the title. -/
theorem title_after (p : Problem) (steps : List Step) : (p.after steps).title = p.title := by
  induction steps generalizing p with
  | nil => rfl
  | cons step steps ih => exact (ih _).trans (title_apply p step)

/-! ## Extensions apart from the standard members -/

/-- The extensions of a problem have their places, and none is called like a standard member. -/
structure Separate (p : Problem) : Prop where
  order : InOrder p.extensions
  unnamed : ∀ m ∈ p.extensions, m.1 ∉ reservedNames

theorem WellFormed.separate {p : Problem} (h : p.WellFormed) : p.Separate := ⟨h.order, h.unnamed⟩

namespace Separate

variable {p q : Problem}

/-- A step keeps the extensions apart, whatever value it brings. -/
theorem apply (h : p.Separate) (step : Step) : (p.apply step).1.Separate := by
  cases step with
  | type uri => exact ⟨h.order, h.unnamed⟩
  | detail text => exact ⟨h.order, h.unnamed⟩
  | occurrence uri => exact ⟨h.order, h.unnamed⟩
  | extension key value =>
    show (p.withExtension key value).1.Separate
    by_cases hkey : key ∈ reservedNames
    · rw [withExtension_reserved p value hkey]
      exact h
    · rw [withExtension_new p value hkey]
      refine ⟨ordered_insertMember key value h.order, ?_⟩
      intro m hm
      rcases mem_insertMember hm with rfl | hm
      · exact hkey
      · exact h.unnamed m hm

/-- Any number of steps keep them apart. -/
theorem after (h : p.Separate) (steps : List Step) : (p.after steps).Separate := by
  induction steps generalizing p with
  | nil => exact h
  | cons step steps ih => exact ih (h.apply step)

/-- **No member is written twice.** -/
theorem nodup (h : p.Separate) : ((p.standard ++ p.extensions).map Prod.fst).Nodup := by
  rw [List.map_append, List.nodup_append]
  refine ⟨p.nodup_standard, ?_, ?_⟩
  · rw [List.Nodup, List.pairwise_map]
    exact h.order.imp fun hlt => hlt.ne
  · intro key hkey key' hkey' heq
    obtain ⟨m, hm, rfl⟩ := List.mem_map.1 hkey
    obtain ⟨m', hm', rfl⟩ := List.mem_map.1 hkey'
    exact h.unnamed m' hm' (heq ▸ mem_reserved_of_standard hm)

/-- An extension is not among the standard members. -/
theorem lookup_reserved (h : p.Separate) {key : String} (hkey : key ∈ reservedNames) :
    p.extensions.lookup key = none := by
  rw [List.lookup_eq_none_iff]
  intro m hm
  have hne : key ≠ m.1 := fun heq => h.unnamed m hm (heq ▸ hkey)
  simpa using hne

/-- **A problem is known by its members**, besides its title and its status. -/
theorem eq_of_get? (h : p.Separate) (h' : q.Separate) (htitle : p.title = q.title)
    (hstatus : p.status = q.status) (hget : ∀ key, p.document.get? key = q.document.get? key) :
    p = q := by
  have htext : Function.Injective (Option.map Json.text) :=
    Option.map_injective fun _ _ => Json.text.inj
  have hstandard (key : String) (hkey : key ∈ reservedNames) :
      p.standard.lookup key = q.standard.lookup key := by
    have hkeys := hget key
    rwa [get?_document, get?_document, h.lookup_reserved hkey, h'.lookup_reserved hkey, Option.or_none,
      Option.or_none] at hkeys
  have hkind : p.kind = q.kind := by
    have hvalue := hstandard "type" (by decide)
    rw [lookup_standard, lookup_standard, if_pos rfl, if_pos rfl] at hvalue
    exact htext hvalue
  have hdetail : p.detail = q.detail := by
    have hvalue := hstandard "detail" (by decide)
    simp only [lookup_standard, String.reduceEq, if_false, if_true] at hvalue
    exact htext hvalue
  have hoccurrence : p.occurrence = q.occurrence := by
    have hvalue := hstandard "instance" (by decide)
    simp only [lookup_standard, String.reduceEq, if_false, if_true] at hvalue
    exact htext hvalue
  have hextensions : p.extensions = q.extensions := by
    apply eq_of_lookup h.order h'.order
    intro key
    by_cases hkey : key ∈ reservedNames
    · rw [h.lookup_reserved hkey, h'.lookup_reserved hkey]
    · have hkeys := hget key
      rwa [get?_document, get?_document, lookup_standard_eq_none p hkey, lookup_standard_eq_none q hkey,
        Option.none_or, Option.none_or] at hkeys
  obtain ⟨kind, title, status, detail, occurrence, extensions⟩ := p
  obtain ⟨kind', title', status', detail', occurrence', extensions'⟩ := q
  rw [Problem.mk.injEq]
  exact ⟨hkind, htitle, hstatus, hdetail, hoccurrence, hextensions⟩

end Separate

/-! ## Steps in another order -/

/-- **Only the order of steps that write the same member counts.** -/
theorem after_congr {start : Problem} (h : start.Separate) {steps steps' : List Step}
    (horder : ∀ key, steps'.filter (·.writes key) = steps.filter (·.writes key)) :
    start.after steps' = start.after steps := by
  apply (h.after steps').eq_of_get? (h.after steps)
  · rw [title_after, title_after]
  · rw [status_after, status_after]
  · intro key
    rw [get?_document_after, get?_document_after, ← lastWritten?_filter key steps', horder key,
      lastWritten?_filter]

/-- **The last step that writes a member decides about it.**  A problem is made or read, and goes through any
steps.

* No extension is called like a standard member, and what is written is an object without two members of
  one name.
* Each member has the value that the last step writes to it or, if no step does, the value from the start;
  title and status stay as they were.
* For every step that would give an extension the name of a standard member this is logged, and nothing
  else is.
* If other steps write each member in the same order, the same text is written, and the same response. -/
theorem members_after_steps {start : Problem} (hstart : Starts start) (steps : List Step) :
    let p := start.after steps
    (∀ m ∈ p.extensions, m.1 ∉ ["type", "title", "status", "detail", "instance"]) ∧
      (∃ members : Json.Members, format.printJson p = Json.print (.object members) ∧
        (members.map Prod.fst).Nodup ∧
        ∀ key, members.lookup key = (lastWritten? key steps).or (start.document.get? key)) ∧
      p.title = start.title ∧ p.status = start.status ∧
      start.journal steps = steps.flatMap Step.remark ∧
      ∀ steps' : List Step, (∀ key, steps'.filter (·.writes key) = steps.filter (·.writes key)) →
        format.printJson (start.after steps') = format.printJson p ∧
          (start.after steps').toResponse = p.toResponse := by
  intro p
  have hseparate : start.Separate := hstart.wellFormed.separate
  refine ⟨(hseparate.after steps).unnamed, ⟨p.standard ++ p.extensions, ?_, ?_, ?_⟩,
    title_after start steps, status_after start steps, journal_eq start steps, ?_⟩
  · rw [printJson_document, document_eq]
  · exact (hseparate.after steps).nodup
  · intro key
    rw [← get?_document_after, document_eq]
    rfl
  · intro steps' horder
    rw [after_congr hseparate horder]
    exact ⟨rfl, rfl⟩

/-- Two extensions of one name and one that is ignored, and the same in another order. -/
theorem members_after_five_steps :
    let start : Problem := ofStatus 404
    let steps : List Step := [.type "/a", .extension "status" .null, .extension "n" (.bool true),
      .type "/b", .extension "n" .null]
    let steps' : List Step := [.extension "n" (.bool true), .extension "n" .null, .type "/a", .type "/b",
      .extension "title" .null]
    let p := start.after steps
    p.document.get? "type" = some (.text "/b") ∧ p.document.get? "n" = some .null ∧
      p.status = 404 ∧ start.journal steps = [⟨.reservedExtension "status", []⟩] ∧
      format.printJson (start.after steps') = format.printJson p := by
  intro start steps steps' p
  have hstart : Starts start := Or.inl (.ofStatus (by decide))
  obtain ⟨-, -, -, hstatus, hjournal, hreorder⟩ := members_after_steps hstart steps
  have horder : ∀ key, steps'.filter (·.writes key) = steps.filter (·.writes key) := by
    intro key
    by_cases hn : key = "n"
    · subst hn
      rfl
    · by_cases htype : key = "type"
      · subst htype
        rfl
      · simp [steps, steps', Step.writes, Step.written?, hn, htype, reservedNames]
  exact ⟨rfl, rfl, hstatus, hjournal, (hreorder steps' horder).1⟩

end HealthService.Problem
