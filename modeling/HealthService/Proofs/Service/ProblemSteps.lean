import HealthService.Proofs.Format.Extras
import HealthService.Proofs.Service.Documents
import HealthService.Proofs.Service.Problems

/-!
# Problems are read back

A problem is made for a status code or read from a document, and then changed step by step.  Whatever
happens to it, its extensions stay tidy (`Problem.WellFormed`): sorted, each once, and none with the name
of a standard member.  So no extension is taken for a standard member when the problem is read again.

* `wellFormed_of_made`, `wellFormed_of_read` — where a problem may come from.
* `WellFormed.apply`, `WellFormed.after` — what one step keeps, and what any number of them keep.
* `legible_of_wellFormed` — such a problem is legible, if its extensions are.
* `read_back_after_steps` — **the response that carries a problem is read back as the problem**, and its
  status is that of the problem if that is a status code.
-/

namespace HealthService.Problem

open Json

/-! ## Where a problem comes from -/

/-- A problem as one is made for a status code: with a title, with the usual title, or with the usual
title and a detail. -/
inductive Made : Problem → Prop where
  | new {status : Nat} (title : String) (h : isStatusCode status = true) : Made (new status title)
  | ofStatus {status : Nat} (h : isStatusCode status = true) : Made (ofStatus status)
  | detailed {status : Nat} (detail : String) (h : isStatusCode status = true) :
      Made (detailed status detail)

/-- A problem that was made, or read from a document. -/
def Starts (p : Problem) : Prop := Made p ∨ ∃ b, format.ofJson b = .ok p

/-- The problem after some steps. -/
def after (p : Problem) (steps : List Step) : Problem :=
  steps.foldl (fun p step => (p.apply step).1) p

/-- The extensions of a problem are in order, and none is called like a standard member. -/
def WellFormed (p : Problem) : Prop := Tidy reservedNames p.extensions

theorem wellFormed_of_made {p : Problem} (h : Made p) : p.WellFormed := by
  cases h <;> exact tidy_nil _

theorem wellFormed_of_read {b : Bytes} {p : Problem} (h : format.ofJson b = .ok p) :
    p.WellFormed := by
  obtain ⟨rest, hread⟩ := Format.readJson_of_ofJson h
  obtain ⟨s, rfl, htidy⟩ := Format.tidy_of_readJson rfl hread
  exact htidy

theorem Starts.wellFormed {p : Problem} (h : Starts p) : p.WellFormed := by
  rcases h with h | ⟨b, h⟩
  · exact wellFormed_of_made h
  · exact wellFormed_of_read h

/-- The status for which a problem is made is a status code. -/
theorem isStatusCode_of_made {p : Problem} (h : Made p) : isStatusCode p.status.toNat = true := by
  have hkeep : ∀ status, isStatusCode status = true →
      isStatusCode (UInt16.ofNat status).toNat = true := by
    intro status h
    have hbounds : 100 ≤ status ∧ status ≤ 999 := by simpa [isStatusCode] using h
    rwa [UInt16.toNat_ofNat', Nat.mod_eq_of_lt (by omega)]
  cases h with
  | new title h => exact hkeep _ h
  | ofStatus h => exact hkeep _ h
  | detailed detail h => exact hkeep _ h

/-! ## What the steps keep -/

/-- **A step keeps a problem well-formed**: an extension with the name of a standard member is
ignored. -/
theorem WellFormed.apply {p : Problem} (h : p.WellFormed) {step : Step}
    (hstep : ∀ key value, step = .extension key value → value.Ordered) :
    (p.apply step).1.WellFormed := by
  cases step with
  | type uri => exact h
  | detail text => exact h
  | occurrence uri => exact h
  | extension key value =>
    show (p.withExtension key value).1.WellFormed
    unfold withExtension
    split
    · exact h
    · rename_i hkey
      exact h.insert (fun hmem => hkey (List.contains_iff_mem.2 hmem)) (hstep key value rfl)

/-- **Any number of steps keep it so.** -/
theorem WellFormed.after {p : Problem} (h : p.WellFormed) {steps : List Step}
    (hsteps : ∀ key value, .extension key value ∈ steps → value.Ordered) :
    (p.after steps).WellFormed := by
  induction steps generalizing p with
  | nil => exact h
  | cons step steps ih =>
    refine ih (h.apply fun key value heq => ?_) fun key value hmem => ?_
    · exact hsteps key value (heq ▸ List.mem_cons_self)
    · exact hsteps key value (List.mem_cons_of_mem _ hmem)

theorem status_apply (p : Problem) (step : Step) : (p.apply step).1.status = p.status := by
  cases step with
  | extension key value =>
    show (p.withExtension key value).1.status = p.status
    unfold withExtension
    split <;> rfl
  | _ => rfl

/-- No step changes the status. -/
theorem status_after (p : Problem) (steps : List Step) : (p.after steps).status = p.status := by
  induction steps generalizing p with
  | nil => rfl
  | cons step steps ih => exact (ih _).trans (status_apply p step)

/-! ## What is read -/

/-- A well-formed problem is legible, if its extensions hold no number that is not a whole one and are
not nested too deeply. -/
theorem legible_of_wellFormed {p : Problem} (h : p.WellFormed)
    (hextensions : ∀ m ∈ p.extensions, m.2.Exact ∧ m.2.depth < maxLevels) :
    format.Legible maxLevels p := by
  refine Format.legible_record.2 ⟨by decide, ⟨by decide, h.unnamed⟩, ?_⟩
  have hothers : Members.others.Legible (maxLevels - 1) p.extensions :=
    ⟨h.order, fun m hm => ⟨(hextensions m hm).1, h.ordered m hm,
      Nat.le_sub_one_of_lt (hextensions m hm).2⟩⟩
  simpa using hothers

/-- **The response that carries a problem is read back as the problem**, whether it was made or read, and
whatever steps it has gone through.  Its extensions may hold no number that is not a whole one, and may
not be nested deeper than a document allows; a value that is added is one whose objects are in order, as
objects are kept.

* What is read of its body is the problem, however the body is cut, and as a plain document.
* Its status is that of the problem if that is a status code, as it is unless the problem was read, and
  else 500.  The document has the status of the problem all the same. -/
theorem read_back_after_steps {start : Problem} (hstart : Starts start) {steps : List Step}
    (hsteps : ∀ key value, .extension key value ∈ steps → value.Ordered)
    (hextensions : ∀ m ∈ (start.after steps).extensions, m.2.Exact ∧ m.2.depth < maxLevels) :
    let p := start.after steps
    let response := p.toResponse
    (response.ReadAs format p ∧ format.ofJson response.body = .ok p) ∧
      response.status = (if 100 ≤ p.status.toNat ∧ p.status.toNat ≤ 999 then p.status.toNat else 500) ∧
      (Made start → 100 ≤ p.status.toNat ∧ p.status.toNat ≤ 999) ∧
      ∃ document, Json.ofBytes response.body = .ok document ∧
        document.get? "status" = some (Json.ofNat p.status.toNat) := by
  intro p response
  have hwell : p.WellFormed := hstart.wellFormed.after hsteps
  have hlegible : format.Legible maxLevels p := legible_of_wellFormed hwell hextensions
  refine ⟨⟨fun limit chunks => Body.decodeJson_carried hlegible, ?_⟩, ?_, fun hmade => ?_, ?_⟩
  · have hread := Format.ofJson_printJson hlegible [0x0A] (List.forall_mem_singleton.2 rfl)
    rwa [show response.body = _ from Utf8.encode_append _ _]
  · show p.statusCode = _
    simp [statusCode, isStatusCode]
  · have hcode := isStatusCode_of_made hmade
    rw [← status_after start steps] at hcode
    simpa [isStatusCode] using hcode
  · refine document_toResponse (fun m hm => (hextensions m hm).1) (fun m hm => (hextensions m hm).2)
      fun m hm hname => ?_
    exact hwell.unnamed m hm (hname ▸ by decide)

/-- A problem whose status is no status code is read from a document with a blank at its end; one extension
then takes the place of another, and one is ignored because of its name. -/
theorem read_back_after_three_steps :
    let start : Problem := ⟨none, "T", 42, some "", none, [("a", .list [.null, .text "é"])]⟩
    let steps : List Step := [.extension "a" (.object [("b", .bool true)]), .occurrence "/1",
      .extension "status" (.text "x")]
    let p : Problem := ⟨none, "T", 42, some "", some "/1", [("a", .object [("b", .bool true)])]⟩
    format.ofJson (Utf8.encode (format.printJson start) ++ [0x20]) = .ok start ∧
      start.after steps = p ∧ format.ofJson p.toResponse.body = .ok p ∧
      p.toResponse.status = 500 := by
  intro start steps p
  have hitems : ∀ j ∈ [Json.null, .text "é"], j.Exact ∧ j.Ordered :=
    List.forall_mem_cons.2 ⟨⟨.null, .null⟩, List.forall_mem_singleton.2 ⟨.text _, .text _⟩⟩
  have hwell : start.WellFormed :=
    (tidy_nil _).insert (by decide) (.list fun j hj => (hitems j hj).2)
  have hlegible : format.Legible maxLevels start := legible_of_wellFormed hwell
    (List.forall_mem_singleton.2 ⟨.list fun j hj => (hitems j hj).1, by decide⟩)
  have hread := Format.ofJson_printJson hlegible [0x20] (List.forall_mem_singleton.2 rfl)
  have hordered : ∀ key value, .extension key value ∈ steps → value.Ordered := by
    intro key value h
    simp only [steps, List.mem_cons, Step.extension.injEq, reduceCtorEq, List.not_mem_nil, or_false,
      false_or] at h
    rcases h with ⟨-, rfl⟩ | ⟨-, rfl⟩
    · exact .object (List.pairwise_singleton _ _) (List.forall_mem_singleton.2 (.bool true))
    · exact .text "x"
  have hextensions : ∀ m ∈ (start.after steps).extensions, m.2.Exact ∧ m.2.depth < maxLevels :=
    List.forall_mem_singleton.2 ⟨.object (List.forall_mem_singleton.2 (.bool true)), by decide⟩
  have h := read_back_after_steps (Or.inr ⟨_, hread⟩) hordered hextensions
  exact ⟨hread, rfl, h.1.2, h.2.1⟩

end HealthService.Problem
