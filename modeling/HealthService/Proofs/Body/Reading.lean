import HealthService.Body
import Mathlib.Data.List.Induction

/-!
# Reading a body up to a bound

A body is cut into chunks by whoever sends it, and it may break off.  The state of the reader after some
chunks is given by their bytes alone (`Body.Takes`), and so is the answer to the whole body
(`Body.read_eq`).  A decoder that reads a body first inherits this (`Body.Decodes`).

* `read_eq` — **the answer to a body**: it is too long if the bytes before the first failure are more than
  the bound; otherwise it is broken if there is a failure; otherwise it is those bytes.
* `takes_iff`, `read_of_takes` — which chunks a reader takes, and that from then on all depends on what it
  holds and on the chunks to come.
* `ends_read`, `not_takes_of_decides` — a reading ends with all chunks taken or with one that decides, which
  is the last one that is looked at.
* `bounded_decoding` — **what the two decoders answer to any body with any bound**, and how their errors
  are told to a client.
-/

namespace HealthService.Body

/-! ## Chunks -/

/-- The bytes that arrive before the first failure. -/
def arrived : List Chunk → Bytes
  | .data b :: rest => b ++ arrived rest
  | _ => []

/-- Why a body breaks off, if it does. -/
def brokenBy : List Chunk → Option String
  | [] => none
  | .failure reason :: _ => some reason
  | .data _ :: rest => brokenBy rest

theorem arrived_append {pre : List Chunk} (hpre : brokenBy pre = none) (rest : List Chunk) :
    arrived (pre ++ rest) = arrived pre ++ arrived rest := by
  induction pre with
  | nil => rfl
  | cons c pre ih =>
    cases c with
    | failure reason => cases hpre
    | data b => rw [List.cons_append, arrived, arrived, ih hpre, List.append_assoc]

/-- One more chunk after chunks without a failure. -/
theorem arrived_concat {pre : List Chunk} (hpre : brokenBy pre = none) (b : Bytes) :
    arrived (pre ++ [.data b]) = arrived pre ++ b := by
  have hlast : arrived [.data b] = b := List.append_nil b
  rw [arrived_append hpre, hlast]

theorem brokenBy_append {pre : List Chunk} (hpre : brokenBy pre = none) (rest : List Chunk) :
    brokenBy (pre ++ rest) = brokenBy rest := by
  induction pre with
  | nil => rfl
  | cons c pre ih =>
    cases c with
    | failure reason => cases hpre
    | data b => exact ih hpre

/-- A body whose beginning breaks off does so itself. -/
theorem brokenBy_of_append {pre rest : List Chunk} (h : brokenBy (pre ++ rest) = none) :
    brokenBy pre = none := by
  induction pre with
  | nil => rfl
  | cons c pre ih =>
    cases c with
    | failure reason => cases h
    | data b => exact ih h

/-! ## The answer to a body -/

/-- The answer of a reader that holds some bytes and has counted them.  The induction is on the chunks to
come; what the reader holds is within the bound. -/
theorem readAux_eq {limit : Nat} {held : Bytes} (hheld : held.length ≤ limit) (chunks : List Chunk) :
    readAux limit held.length held chunks =
      if limit < held.length + (arrived chunks).length then .error (.tooLarge limit)
      else match brokenBy chunks with
        | some reason => .error (.read reason)
        | none => .ok (held.reverse ++ arrived chunks) := by
  induction chunks generalizing held with
  | nil =>
    have hfits : ¬ limit < held.length + (arrived []).length := by
      simpa [arrived] using hheld
    rw [if_neg hfits]
    simp [readAux, brokenBy, arrived]
  | cons c chunks ih =>
    cases c with
    | failure reason =>
      have hfits : ¬ limit < held.length + (arrived (.failure reason :: chunks)).length := by
        simpa [arrived] using hheld
      rw [if_neg hfits]
      rfl
    | data b =>
      have htotal : held.length + (arrived (.data b :: chunks)).length =
          held.length + b.length + (arrived chunks).length := by
        rw [arrived, List.length_append, Nat.add_assoc]
      rw [readAux, htotal]
      by_cases hlarge : limit < held.length + b.length
      · rw [if_pos hlarge, if_pos (by omega)]
      · have hlength : (b.reverse ++ held).length = held.length + b.length := by
          rw [List.length_append, List.length_reverse, Nat.add_comm]
        have hnext := @ih (b.reverse ++ held) (by omega)
        rw [hlength] at hnext
        rw [if_neg hlarge, hnext]
        simp [brokenBy, arrived]

/-- **The answer to a body** depends on its bytes before the first failure, and on the failure. -/
theorem read_eq (limit : Nat) (chunks : List Chunk) :
    read limit chunks =
      if limit < (arrived chunks).length then .error (.tooLarge limit)
      else match brokenBy chunks with
        | some reason => .error (.read reason)
        | none => .ok (arrived chunks) := by
  have h := @readAux_eq limit [] (Nat.zero_le limit) chunks
  rw [List.length_nil, Nat.zero_add] at h
  exact h

/-! ## The reader on its way -/

/-- A reader has taken some chunks and goes on; it holds some bytes, newest first, and has counted them. -/
inductive Takes (limit : Nat) : List Chunk → Nat → Bytes → Prop
  | start : Takes limit [] 0 []
  | more {pre : List Chunk} {size : Nat} {held b : Bytes} (h : Takes limit pre size held)
      (hfits : size + b.length ≤ limit) :
      Takes limit (pre ++ [.data b]) (size + b.length) (b.reverse ++ held)

/-- How a reader ends at a chunk when it has counted so many bytes. -/
inductive Decides (limit size : Nat) : Chunk → BodyError → Prop
  | failure (reason : String) : Decides limit size (.failure reason) (.read reason)
  | tooLarge {b : Bytes} (h : limit < size + b.length) :
      Decides limit size (.data b) (.tooLarge limit)

variable {limit size : Nat} {held : Bytes} {pre : List Chunk}

/-- From here on all depends on what the reader holds and on the chunks to come. -/
theorem read_of_takes (h : Takes limit pre size held) (rest : List Chunk) :
    read limit (pre ++ rest) = readAux limit size held rest := by
  induction h generalizing rest with
  | start => rfl
  | @more pre size held b _ hfits ih =>
    have hfits : ¬ limit < size + b.length := by omega
    rw [List.append_assoc, List.singleton_append, ih, readAux, if_neg hfits]

/-- **What a reader holds on its way**: the bytes that have arrived, which are within the bound. -/
theorem takes_iff : Takes limit pre size held ↔
    brokenBy pre = none ∧ size = (arrived pre).length ∧ held = (arrived pre).reverse ∧
      (arrived pre).length ≤ limit := by
  constructor
  · intro h
    induction h with
    | start => exact ⟨rfl, rfl, rfl, Nat.zero_le _⟩
    | @more pre size held b _ hfits ih =>
      obtain ⟨hwhole, hsize, hheld, -⟩ := ih
      have harrived := arrived_concat hwhole b
      refine ⟨?_, ?_, ?_, ?_⟩
      · rw [brokenBy_append hwhole]
        rfl
      · rw [harrived, List.length_append, hsize]
      · rw [harrived, List.reverse_append, hheld]
      · rw [harrived, List.length_append, ← hsize]
        exact hfits
  · rintro ⟨hwhole, rfl, rfl, hlength⟩
    induction pre using List.reverseRecOn with
    | nil => exact .start
    | append_singleton pre c ih =>
      have hpre := brokenBy_of_append hwhole
      rw [brokenBy_append hpre] at hwhole
      cases c with
      | failure reason => cases hwhole
      | data b =>
        have harrived := arrived_concat hpre b
        rw [harrived, List.length_append] at hlength ⊢
        rw [List.reverse_append]
        exact .more (ih hpre (by omega)) hlength

/-- A chunk that decides is never taken. -/
theorem not_takes_of_decides {c : Chunk} {e : BodyError} (h : Takes limit pre size held)
    (hc : Decides limit size c e) (more : List Chunk) {size' : Nat} {held' : Bytes} :
    ¬ Takes limit (pre ++ c :: more) size' held' := by
  intro htakes
  obtain ⟨hpre, hsize, -⟩ := takes_iff.1 h
  obtain ⟨hwhole, -, -, hlength⟩ := takes_iff.1 htakes
  cases hc with
  | failure reason =>
    rw [brokenBy_append hpre] at hwhole
    cases hwhole
  | @tooLarge b hlarge =>
    rw [arrived_append hpre, arrived, List.length_append, List.length_append] at hlength
    omega

/-- What follows a chunk that decides makes no difference. -/
theorem read_of_decides {c : Chunk} {e : BodyError} (h : Takes limit pre size held)
    (hc : Decides limit size c e) (rest : List Chunk) : read limit (pre ++ c :: rest) = .error e := by
  rw [read_of_takes h]
  cases hc with
  | failure reason => rfl
  | tooLarge hlarge => rw [readAux, if_pos hlarge]

/-- How the reading of a body ends: all chunks are taken, or there is one that decides. -/
inductive Ends (limit : Nat) (chunks : List Chunk) : Except BodyError Bytes → Prop
  | whole {size : Nat} {held : Bytes} (h : Takes limit chunks size held) :
      Ends limit chunks (.ok held.reverse)
  | decided {pre rest : List Chunk} {c : Chunk} {size : Nat} {held : Bytes} {e : BodyError}
      (hchunks : chunks = pre ++ c :: rest) (h : Takes limit pre size held)
      (hc : Decides limit size c e) : Ends limit chunks (.error e)

/-- **Every reading ends in one of these ways.** -/
theorem ends_read (limit : Nat) (chunks : List Chunk) : Ends limit chunks (read limit chunks) := by
  have hends : (∃ size held, Takes limit chunks size held) ∨ ∃ pre c rest size held e,
      chunks = pre ++ c :: rest ∧ Takes limit pre size held ∧ Decides limit size c e := by
    induction chunks using List.reverseRecOn with
    | nil => exact Or.inl ⟨0, [], .start⟩
    | append_singleton chunks c ih =>
      rcases ih with ⟨size, held, htakes⟩ | ⟨pre, d, rest, size, held, e, rfl, htakes, hd⟩
      · cases c with
        | failure reason =>
          exact Or.inr ⟨chunks, _, [], size, held, _, rfl, htakes, .failure reason⟩
        | data b =>
          by_cases hlarge : limit < size + b.length
          · exact Or.inr ⟨chunks, _, [], size, held, _, rfl, htakes, .tooLarge hlarge⟩
          · exact Or.inl ⟨_, _, .more htakes (by omega)⟩
      · refine Or.inr ⟨pre, d, rest ++ [c], size, held, e, ?_, htakes, hd⟩
        rw [List.append_assoc, List.cons_append]
  rcases hends with ⟨size, held, htakes⟩ | ⟨pre, c, rest, size, held, e, hchunks, htakes, hc⟩
  · have hread := read_of_takes htakes []
    rw [List.append_nil] at hread
    rw [hread]
    exact .whole htakes
  · have hread := read_of_decides htakes hc rest
    rw [← hchunks] at hread
    rw [hread]
    exact .decided hchunks htakes hc

/-- How many bytes an object in memory may have on a machine of 64 bits: half of what a word can count. -/
def maxObject : Nat := 9223372036854775807

/-- Words that count the bytes of objects in memory are added up without loss. -/
theorem add_of_le_maxObject {m n : Nat} (hm : m ≤ maxObject) (hn : n ≤ maxObject) :
    (UInt64.ofNat m + UInt64.ofNat n).toNat = m + n := by
  unfold maxObject at hm hn
  rw [UInt64.toNat_add, UInt64.toNat_ofNat', UInt64.toNat_ofNat']
  omega

/-- What a reader holds after some chunks: the bytes that have arrived, within the bound, and their
number, to which that of the next chunk can be added. -/
structure Holds (limit : Nat) (pre : List Chunk) (size : Nat) (held : Bytes) : Prop where
  arrived : held.reverse = arrived pre
  counted : size = held.length
  bounded : held.length ≤ limit
  added : ∀ b : Bytes, held.length ≤ maxObject → b.length ≤ maxObject →
    (UInt64.ofNat size + UInt64.ofNat b.length).toNat = size + b.length

theorem holds_of_takes (h : Takes limit pre size held) : Holds limit pre size held := by
  obtain ⟨-, rfl, rfl, hlength⟩ := takes_iff.1 h
  refine ⟨List.reverse_reverse _, (List.length_reverse ..).symm, ?_, ?_⟩
  · rw [List.length_reverse]
    exact hlength
  · intro b hheld hb
    rw [List.length_reverse] at hheld
    exact add_of_le_maxObject hheld hb

/-! ## Decoders -/

variable {α : Type}

/-- An error that the bytes of a body give rise to, not their number or their way here. -/
def OfContent : BodyError → Prop
  | .tooLarge _ | .read _ => False
  | _ => True

/-- A decoder of bodies that goes by the bytes of a whole body, if it is within the bound. -/
structure Decodes (limit : Nat) (ofWhole : Bytes → Except BodyError α)
    (decode : List Chunk → Except BodyError α) : Prop where
  tooLarge_iff : ∀ chunks n, decode chunks = .error (.tooLarge n) ↔
    n = limit ∧ limit < (arrived chunks).length
  read_iff : ∀ chunks reason, decode chunks = .error (.read reason) ↔
    (arrived chunks).length ≤ limit ∧ brokenBy chunks = some reason
  whole : ∀ chunks, (arrived chunks).length ≤ limit → brokenBy chunks = none →
    decode chunks = ofWhole (arrived chunks)
  recut : ∀ chunks chunks', brokenBy chunks = none → brokenBy chunks' = none →
    arrived chunks = arrived chunks' → decode chunks = decode chunks'

/-- **A decoder that reads first inherits what is known of reading.** -/
theorem decodes_of_read {limit : Nat} {ofWhole : Bytes → Except BodyError α}
    {decode : List Chunk → Except BodyError α}
    (hcontent : ∀ b e, ofWhole b = .error e → OfContent e)
    (hdecode : ∀ chunks, decode chunks = (read limit chunks).bind ofWhole) :
    Decodes limit ofWhole decode := by
  -- The answer in the three cases of `read_eq`.
  have hlarge : ∀ chunks, limit < (arrived chunks).length →
      decode chunks = .error (.tooLarge limit) := by
    intro chunks h
    rw [hdecode, read_eq, if_pos h]
    rfl
  have hbroken : ∀ chunks reason, (arrived chunks).length ≤ limit → brokenBy chunks = some reason →
      decode chunks = .error (.read reason) := by
    intro chunks reason h hreason
    rw [hdecode, read_eq, if_neg (by omega), hreason]
    rfl
  have hwhole : ∀ chunks, (arrived chunks).length ≤ limit → brokenBy chunks = none →
      decode chunks = ofWhole (arrived chunks) := by
    intro chunks h hnone
    rw [hdecode, read_eq, if_neg (by omega), hnone]
    rfl
  refine ⟨?_, ?_, hwhole, ?_⟩
  · intro chunks n
    constructor
    · intro h
      by_cases hlength : limit < (arrived chunks).length
      · rw [hlarge chunks hlength] at h
        cases h
        exact ⟨rfl, hlength⟩
      · cases hreason : brokenBy chunks with
        | some reason =>
          rw [hbroken chunks reason (by omega) hreason] at h
          cases h
        | none =>
          rw [hwhole chunks (by omega) hreason] at h
          exact absurd (hcontent _ _ h) id
    · rintro ⟨rfl, hlength⟩
      exact hlarge chunks hlength
  · intro chunks reason
    constructor
    · intro h
      by_cases hlength : limit < (arrived chunks).length
      · rw [hlarge chunks hlength] at h
        cases h
      · cases hreason : brokenBy chunks with
        | some reason' =>
          rw [hbroken chunks reason' (by omega) hreason] at h
          cases h
          exact ⟨by omega, rfl⟩
        | none =>
          rw [hwhole chunks (by omega) hreason] at h
          exact absurd (hcontent _ _ h) id
    · rintro ⟨hlength, hreason⟩
      exact hbroken chunks reason hlength hreason
  · intro chunks chunks' hnone hnone' harrived
    by_cases hlength : limit < (arrived chunks).length
    · rw [hlarge chunks hlength, hlarge chunks' (harrived ▸ hlength)]
    · rw [hwhole chunks (by omega) hnone, hwhole chunks' (by rw [← harrived]; omega) hnone', harrived]

/-- What a whole body is as JSON text: nothing if it is blank. -/
def ofJson (format : Format α) (b : Bytes) : Except BodyError α :=
  if b.all Blank.isAsciiByte then .error .empty else (format.ofJson b).mapError .invalidJson

/-- What a whole body is as form data. -/
def ofForm (ofPairs : List (String × String) → Except Mismatch α) (b : Bytes) : Except BodyError α :=
  (ofPairs (Form.pairs b)).mapError .invalidForm

theorem decodes_decodeJson (limit : Nat) (format : Format α) :
    Decodes limit (ofJson format) (decodeJson format limit) := by
  apply decodes_of_read
  · intro b e h
    unfold ofJson at h
    by_cases hblank : b.all Blank.isAsciiByte = true
    · rw [if_pos hblank] at h
      cases h
      trivial
    · rw [if_neg hblank] at h
      cases hjson : format.ofJson b with
      | ok a =>
        rw [hjson] at h
        cases h
      | error err =>
        rw [hjson] at h
        cases h
        trivial
  · intro chunks
    unfold decodeJson
    cases read limit chunks with
    | error e => rfl
    | ok b =>
      dsimp only [bind, Except.bind, ofJson]
      cases format.ofJson b <;> rfl

theorem decodes_decodeForm (limit : Nat)
    (ofPairs : List (String × String) → Except Mismatch α) :
    Decodes limit (ofForm ofPairs) (decodeForm ofPairs limit) := by
  apply decodes_of_read
  · intro b e h
    unfold ofForm at h
    cases hpairs : ofPairs (Form.pairs b) with
    | ok a =>
      rw [hpairs] at h
      cases h
    | error m =>
      rw [hpairs] at h
      cases h
      trivial
  · intro chunks
    unfold decodeForm
    cases read limit chunks with
    | error e => rfl
    | ok b =>
      dsimp only [bind, Except.bind, ofForm]
      cases ofPairs (Form.pairs b) <;> rfl

/-- A body of JSON text is empty just if there is nothing but ASCII white space in it. -/
theorem ofJson_eq_empty_iff (format : Format α) (b : Bytes) :
    ofJson format b = .error .empty ↔ ∀ x ∈ b, x ∈ [0x20, 0x09, 0x0A, 0x0C, 0x0D] := by
  have hblank : b.all Blank.isAsciiByte = true ↔ ∀ x ∈ b, x ∈ [0x20, 0x09, 0x0A, 0x0C, 0x0D] := by
    rw [List.all_eq_true]
    apply forall₂_congr
    intro x _
    simp only [Blank.isAsciiByte, Blank.isJsonByte, Bool.or_eq_true, beq_iff_eq, List.mem_cons,
      List.not_mem_nil, or_false]
    tauto
  rw [← hblank, ofJson]
  by_cases h : b.all Blank.isAsciiByte = true
  · simp [h]
  · rw [if_neg h]
    cases format.ofJson b <;> simp [Except.mapError, h]

/-! ## What is claimed -/

/-- A client is told that a body is too long by a status of its own, and of every other error as of a bad
request; the error in words is the detail. -/
theorem problem_of_error (e : BodyError) :
    (e.toProblem.status = 413 ↔ ∃ n, e = .tooLarge n) ∧
      (e.toProblem.status ≠ 413 → e.toProblem.status = 400) ∧
      e.toProblem.detail = some e.message := by
  have hother : (400 : UInt16) ≠ 413 := by decide
  cases e with
  | tooLarge n => exact ⟨⟨fun _ => ⟨n, rfl⟩, fun _ => rfl⟩, fun h => absurd rfl h, rfl⟩
  | _ =>
    refine ⟨⟨fun h => absurd h hother, ?_⟩, fun _ => rfl, rfl⟩
    rintro ⟨n, h⟩
    cases h

/-- **Bodies are decoded within a bound**, however they are cut, and whatever is decoded.

* Both decoders call a body too long just if more bytes than the bound arrive before the first failure;
  otherwise broken just if there is a failure; and otherwise they answer what is made of its bytes, in
  particular if these are as many as the bound allows.  The cuts make no difference.
* As JSON text a body is empty just if there is nothing but ASCII white space in it.
* A reader that has taken some chunks holds their bytes, never more than the bound, and the number of
  bytes of the next chunk is added to theirs without loss, since both are objects in memory.
* Either it takes all chunks, or there is one that decides; then whatever follows makes no difference
  and is never taken.
* The error is told to a client with status 413 if the body is too long and with 400 otherwise. -/
theorem bounded_decoding (limit : Nat) :
    (∀ (α : Type) (format : Format α), Decodes limit (ofJson format) (decodeJson format limit)) ∧
    (∀ (α : Type) (ofPairs : List (String × String) → Except Mismatch α),
      Decodes limit (ofForm ofPairs) (decodeForm ofPairs limit)) ∧
    (∀ (α : Type) (format : Format α) (b : Bytes), ofJson format b = .error .empty ↔
      ∀ x ∈ b, x ∈ [0x20, 0x09, 0x0A, 0x0C, 0x0D]) ∧
    (∀ pre size held, Takes limit pre size held → Holds limit pre size held ∧
      ∀ rest, read limit (pre ++ rest) = readAux limit size held rest) ∧
    (∀ chunks, Ends limit chunks (read limit chunks)) ∧
    (∀ pre size held c e, Takes limit pre size held → Decides limit size c e →
      (∀ rest, read limit (pre ++ c :: rest) = .error e) ∧
      ∀ more size' held', ¬ Takes limit (pre ++ c :: more) size' held') ∧
    ∀ e : BodyError, (e.toProblem.status = 413 ↔ ∃ n, e = .tooLarge n) ∧
      (e.toProblem.status ≠ 413 → e.toProblem.status = 400) ∧
      e.toProblem.detail = some e.message := by
  refine ⟨fun _ => decodes_decodeJson limit, fun _ => decodes_decodeForm limit,
    fun _ => ofJson_eq_empty_iff, ?_, ends_read limit, ?_, problem_of_error⟩
  · intro pre size held htakes
    exact ⟨holds_of_takes htakes, read_of_takes htakes⟩
  · intro pre size held c e htakes hc
    exact ⟨read_of_decides htakes hc, fun more _ _ => not_takes_of_decides htakes hc more⟩

/-- The bound is reached by an empty chunk and passed by the next byte, before the failure. -/
example : read 3 [.data [1, 2], .data [3], .data [], .data [4], .failure "reset"] =
    .error (.tooLarge 3) := rfl

end HealthService.Body
