import HealthService.Proofs.Body.Reading
import HealthService.Proofs.Format.ReadBack
import HealthService.Render

/-!
# Health responses are read back

What a health route writes is a document of the format by which a client may read it, so nothing of it
is lost on the way: no text, whatever its characters, and no difference between a member that is missing
and one that is empty.

* `Body.decodeJson_carried` — a document in a body is read back, however the body is cut.
* `ReadyResponse.legible`, `LiveResponse.legible` — which responses are legible: all of them, but for
  a point in time whose text would not be understood.
* `rendered_read_back` — **what is rendered is read back**, and its status says whether all is in order.
-/

namespace HealthService

open Json

namespace Body

/-- Chunks without a failure that bring certain bytes. -/
def Carries (chunks : List Chunk) (b : Bytes) : Prop := brokenBy chunks = none ∧ arrived chunks = b

/-- **A document in a body is read back**, if it is within the bound. -/
theorem decodeJson_carried {α : Type} {format : Format α} {a : α}
    (h : format.Legible maxLevels a) {limit : Nat} {chunks : List Chunk}
    (hchunks : Carries chunks (Utf8.encode (format.printJson a ++ ['\n'])))
    (hlimit : (Utf8.encode (format.printJson a ++ ['\n'])).length ≤ limit) :
    decodeJson format limit chunks = .ok a := by
  obtain ⟨hwhole, hbytes⟩ := hchunks
  have hread := Format.ofJson_printJson h [0x0A] (List.forall_mem_singleton.2 rfl)
  obtain ⟨b, bs, hbegins, hblank, -⟩ := format.begins h
  have hend : Utf8.encode (format.printJson a ++ ['\n']) =
      Utf8.encode (format.printJson a) ++ [0x0A] := Utf8.encode_append _ _
  rw [(decodes_decodeJson limit format).whole chunks (by rwa [hbytes]) hwhole, hbytes, hend, ofJson,
    if_neg, hread]
  · rfl
  · rw [hbegins]
    simp [hblank]

end Body

/-! ## Legible responses -/

theorem CheckResult.legible (r : CheckResult) {levels : Nat} (h : 0 < levels) :
    CheckResult.format.Legible levels r := by
  refine (Format.legible_closed rfl (by decide)).2 ⟨h, ?_⟩
  simp [Status.format]

/-- A text that is not written when it is empty is put in as the empty text. -/
theorem Members.legible_unless_empty {β : Type} {key : String} {rest : Members β} {levels : Nat}
    {text : String} {s : β} :
    (Members.cons key .text (some "") String.isEmpty rest).Legible levels (text, s) ↔
      rest.Legible levels s := by
  refine and_iff_right ?_
  by_cases h : text.isEmpty = true
  · rw [if_pos h, String.isEmpty_iff.1 h]
    rfl
  · rw [if_neg h]
    trivial

/-- **Every readiness response is legible.** -/
theorem ReadyResponse.legible (r : ReadyResponse) :
    ReadyResponse.format.Legible maxLevels r := by
  refine (Format.legible_closed rfl (by decide)).2 ⟨by decide, ?_⟩
  have hchecks : ∀ c ∈ r.checks, CheckResult.format.Legible (maxLevels - 1 - 1) c :=
    fun c _ => c.legible (by decide)
  simpa [Status.format, Format.legible_list, Members.legible_unless_empty, maxLevels] using hchecks

/-- **A liveness response is legible** unless it names a point in time whose text is not understood as
the same. -/
theorem LiveResponse.legible (r : LiveResponse)
    (h : ∀ t ∈ r.startedAt, DateTime.parse t.print = .ok t) :
    LiveResponse.format.Legible maxLevels r := by
  refine (Format.legible_closed rfl (by decide)).2 ⟨by decide, ?_⟩
  have hstarted : ∀ t ∈ r.startedAt, dateTime.Legible (maxLevels - 1) t := by
    intro t ht
    refine Format.legible_parsed.2 ?_
    rw [String.toList_ofList, h t ht]
  simpa [Status.format, Members.legible_omitted (show dateTime.isPresent = true from rfl)] using hstarted

/-! ## What is claimed -/

/-- The body of a response is read as a value, however it is cut and whatever the bound, if that is not
below its length. -/
def Response.ReadAs {α : Type} (x : Response) (format : Format α) (a : α) : Prop :=
  ∀ limit chunks, Body.Carries chunks x.body → x.body.length ≤ limit →
    Body.decodeJson format limit chunks = .ok a

/-- **What is rendered is read back.**

* A readiness response, whatever its texts and however many checks it lists, comes out of the body of
  its rendering as it was, and its status code is 200 if the service is ready and 503 if not.
* So does a liveness response, if the text of the time at which the service was started is understood as
  that time. -/
theorem rendered_read_back :
    (∀ r : ReadyResponse, (renderReady r).1.ReadAs ReadyResponse.format r ∧
      ((renderReady r).1.status = 200 ↔ r.status = .ok) ∧
      (r.status ≠ .ok → (renderReady r).1.status = 503)) ∧
    ∀ r : LiveResponse, (∀ t ∈ r.startedAt, DateTime.parse t.print = .ok t) →
      (renderLive r).1.ReadAs LiveResponse.format r ∧ (renderLive r).1.status = 200 := by
  constructor
  · intro r
    refine ⟨fun limit chunks => Body.decodeJson_carried r.legible, ?_⟩
    show (r.statusCode = 200 ↔ r.status = .ok) ∧ (r.status ≠ .ok → r.statusCode = 503)
    unfold ReadyResponse.statusCode
    cases r.status <;> simp [Status.isOk]
  · intro r h
    exact ⟨fun limit chunks => Body.decodeJson_carried (r.legible h), rfl⟩

/-- A response with an empty text, a quote and control characters, in three chunks, the second of them
empty; and one that names a point in time. -/
theorem rendered_read_back_in_chunks :
    let ready : ReadyResponse :=
      ⟨.error, [⟨"", .ok, none, "1ms"⟩, ⟨"b\"\x00\n", .error, some "", "µ"⟩], "", "é\\"⟩
    let body := (renderReady ready).1.body
    let live : LiveResponse := ⟨.ok, "", "1s", "h", "", some ⟨1700000000, 123000000⟩⟩
    Body.decodeJson ReadyResponse.format body.length
        [.data (body.take 7), .data [], .data (body.drop 7)] = .ok ready ∧
      Body.decodeJson LiveResponse.format 1000 [.data (renderLive live).1.body] = .ok live := by
  intro ready body live
  have hcut : body.take 7 ++ ([] ++ (body.drop 7 ++ [])) = body := by simp
  have hlive : ∀ t ∈ live.startedAt, DateTime.parse t.print = .ok t := by
    intro t ht
    obtain rfl := Option.some.inj ht
    decide
  constructor
  · exact (rendered_read_back.1 ready).1 _ _ ⟨rfl, hcut⟩ le_rfl
  · refine (rendered_read_back.2 live hlive).1 _ _ ⟨rfl, List.append_nil _⟩ ?_
    decide

end HealthService
