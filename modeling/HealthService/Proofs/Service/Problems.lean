import HealthService.Problem
import HealthService.Proofs.Json.ReadBack

/-!
# Responses that carry a problem

`Problem.toResponse` writes the text of a problem by its format.  That text is the text of a value,
`Problem.document`, and so it is read back; the members of what is read say the same as the response.

* `printJson_document` — what is written of a problem is a document.
* `document_toResponse` — the body of the response is that document.
* `isProblem_toResponse` — **the response that carries a problem is a problem document whose `status`
  is its own status**, if the status of the problem is a status code.
* `isProblem_insert` — other headers make no difference.
-/

namespace HealthService

/-- A response that is a problem document: it says so in its content type, its body is the text of a
JSON value, and the member `status` of that value is the status of the response. -/
def Response.IsProblem (x : Response) : Prop :=
  x.headers.values "content-type" = [Utf8.ofString "application/problem+json"] ∧
    ∃ document, Json.ofBytes x.body = .ok document ∧
      document.get? "status" = some (Json.ofNat x.status)

/-- More headers make no difference. -/
theorem Response.isProblem_insert {x : Response} (h : x.IsProblem) {name : String}
    (hname : name ≠ "content-type") (value : Bytes) :
    Response.IsProblem { x with headers := x.headers.insert name value } := by
  refine ⟨?_, h.2⟩
  rw [Headers.values_insert, if_neg hname]
  exact h.1

namespace Problem

open Json

/-- A member that is left out if there is nothing. -/
def textMember (key : String) (value : Option String) : Json.Members :=
  match value with
  | some s => [(key, .text s)]
  | none => []

/-- What is written of a problem before its status. -/
def leading (p : Problem) : Json.Members := textMember "type" p.kind ++ [("title", .text p.title)]

/-- What is written of a problem after its status. -/
def trailing (p : Problem) : Json.Members :=
  textMember "detail" p.detail ++ textMember "instance" p.occurrence ++ p.extensions

/-- The value as which a problem is written, with the members in the order of the format. -/
def document (p : Problem) : Json :=
  .object (p.leading ++ ("status", Json.ofNat p.status.toNat) :: p.trailing)

theorem toNat_ofNat_status (status : UInt16) :
    (UInt64.ofNat status.toNat).toNat = status.toNat := by
  rw [UInt64.toNat_ofNat', Nat.mod_eq_of_lt]
  exact status.toNat_lt.trans (by decide)

/-- What is written of a problem is the text of its document. -/
theorem printJson_document (p : Problem) : format.printJson p = Json.print p.document := by
  have hstatus : Decimal.ofNat p.status.toNat = Json.print (Json.ofNat p.status.toNat) := by
    show _ = Decimal.ofInt ((UInt64.ofNat p.status.toNat).toNat : Int)
    rw [toNat_ofNat_status]
    rfl
  obtain ⟨kind, title, status, detail, occurrence, extensions⟩ := p
  rw [document, Json.print, printMembers_eq]
  cases kind <;> cases detail <;> cases occurrence <;>
    simp [format, Members.required, Members.omitted, Format.printJson, Members.printJson,
      Format.uint16, leading, trailing, textMember, hstatus, printMembers_eq, Json.print]

/-- The members of a problem are texts and its status, apart from the extensions. -/
theorem mem_document {p : Problem} {m : String × Json}
    (hm : m ∈ p.leading ++ ("status", Json.ofNat p.status.toNat) :: p.trailing) :
    (∃ s, m.2 = .text s) ∨ m.2 = Json.ofNat p.status.toNat ∨ m ∈ p.extensions := by
  have htext : ∀ key value, m ∈ textMember key value → ∃ s, m.2 = .text s := by
    intro key value h
    cases value with
    | none => cases h
    | some s =>
      obtain rfl := List.mem_singleton.1 h
      exact ⟨s, rfl⟩
  simp only [leading, trailing, List.mem_append, List.mem_cons, List.not_mem_nil, or_false] at hm
  rcases hm with (hm | rfl) | rfl | (hm | hm) | hm
  · exact Or.inl (htext _ _ hm)
  · exact Or.inl ⟨_, rfl⟩
  · exact Or.inr (Or.inl rfl)
  · exact Or.inl (htext _ _ hm)
  · exact Or.inl (htext _ _ hm)
  · exact Or.inr (Or.inr hm)

section ReadBack

variable {p : Problem} (hexact : ∀ m ∈ p.extensions, m.2.Exact)
  (hdepth : ∀ m ∈ p.extensions, m.2.depth < maxLevels)

include hexact in
theorem exact_document : p.document.Exact := by
  refine .object fun m hm => ?_
  rcases mem_document hm with ⟨s, hs⟩ | hstatus | hm
  · rw [hs]
    exact .text s
  · rw [hstatus]
    exact .int _
  · exact hexact m hm

include hdepth in
theorem depth_document : p.document.depth ≤ maxLevels := by
  rw [document, depth]
  refine Nat.succ_le_succ (depthOfMembers_le_iff.2 fun m hm => ?_)
  rcases mem_document hm with ⟨s, hs⟩ | hstatus | hm
  · rw [hs]
    exact Nat.zero_le _
  · rw [hstatus]
    exact Nat.zero_le _
  · exact Nat.le_of_lt_succ (hdepth m hm)

include hexact hdepth in
/-- The body of the response that carries a problem is its document, with its own status. -/
theorem document_toResponse (hname : ∀ m ∈ p.extensions, m.1 ≠ "status") :
    ∃ document, ofBytes p.toResponse.body = .ok document ∧
      document.get? "status" = some (Json.ofNat p.status.toNat) := by
  refine ⟨p.document.sorted, ?_, ?_⟩
  · show ofBytes (Utf8.encode (format.printJson p ++ _)) = _
    rw [printJson_document]
    exact ofBytes_print (exact_document hexact) (depth_document hdepth)
  · have hother : ∀ m ∈ p.trailing, m.1 ≠ "status" := by
      intro m hm
      simp only [trailing, List.mem_append] at hm
      rcases hm with (hm | hm) | hm
      · cases hdetail : p.detail <;> simp_all [textMember]
      · cases hinstance : p.occurrence <;> simp_all [textMember]
      · exact hname m hm
    rw [document, get?_sorted hother]
    rfl

include hexact hdepth in
/-- **The response that carries a problem is a problem document with its status**, whatever the texts
of the problem are.  Its status has to be a status code, and no extension may be called `status`. -/
theorem isProblem_toResponse (hname : ∀ m ∈ p.extensions, m.1 ≠ "status")
    (hstatus : isStatusCode p.status.toNat = true) : p.toResponse.IsProblem := by
  refine ⟨rfl, ?_⟩
  have hcode : p.toResponse.status = p.status.toNat := if_pos hstatus
  rw [hcode]
  exact document_toResponse hexact hdepth hname

end ReadBack

end Problem
end HealthService
