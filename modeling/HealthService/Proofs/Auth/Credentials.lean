import HealthService.Auth.Credentials
import HealthService.Proofs.Http.Texts
import HealthService.Proofs.Text.Base64

/-!
# What a client shows

A client that knows a name and a password shows them as `Credentials.shown` says.  What the other side
makes of it is a name and a password again, and of these it compares the digests.

* `agree_iff` — **digests agree just if they are the same bytes.**
* `admits_new_iff` — **credentials admit a header just if the name and the password in it have the digests
  of the expected ones.**
* `decode_shown` — what is shown is read back, up to the first colon as a name and from there on as a
  password.
-/

namespace HealthService.Credentials

/-! ## Digests -/

/-- No difference is lost when differences are put together. -/
theorem foldl_or_eq_zero_iff {xs : Bytes} {acc : UInt8} :
    xs.foldl (· ||| ·) acc = 0 ↔ acc = 0 ∧ ∀ x ∈ xs, x = 0 := by
  induction xs generalizing acc with
  | nil => simp
  | cons x xs ih => rw [List.foldl_cons, ih, UInt8.or_eq_zero_iff, List.forall_mem_cons, and_assoc]

theorem zipWith_xor_eq_zero_iff {a b : Bytes} (h : a.length = b.length) :
    (∀ x ∈ List.zipWith (· ^^^ ·) a b, x = 0) ↔ a = b := by
  induction a generalizing b with
  | nil =>
    have hb : b = [] := List.length_eq_zero_iff.1 h.symm
    simp [hb]
  | cons x a ih =>
    cases b with
    | nil => simp at h
    | cons y b =>
      have hlength : a.length = b.length := by simpa using h
      rw [List.zipWith_cons_cons, List.forall_mem_cons, ih hlength, UInt8.xor_eq_zero_iff,
        List.cons.injEq]

/-- **Digests agree just if they are the same bytes.** -/
theorem agree_iff {a b : Bytes} (h : a.length = b.length) : agree a b = true ↔ a = b := by
  rw [agree, decide_eq_true_iff, foldl_or_eq_zero_iff, zipWith_xor_eq_zero_iff h]
  simp

theorem agree_digest_iff {s t : String} :
    agree (digest s) (digest t) = true ↔ digest s = digest t := by
  have hlength : (digest s).length = (digest t).length := by
    rw [digest, digest, Sha256.length_digest, Sha256.length_digest]
  exact agree_iff hlength

/-- **Whom credentials admit**: those who show a name and a password with the expected digests. -/
theorem admits_new_iff {username password : String} {realm : Option String} {value : Option Bytes} :
    (new username password realm).admits value = true ↔
      ∃ name word, value.bind decode = some (name, word) ∧
        digest username = digest name ∧ digest password = digest word := by
  unfold admits
  split
  · rename_i name word hread
    rw [Bool.and_eq_true]
    constructor
    · rintro ⟨hname, hword⟩
      exact ⟨name, word, hread, agree_digest_iff.1 hname, agree_digest_iff.1 hword⟩
    · rintro ⟨name', word', hread', hname, hword⟩
      obtain ⟨rfl, rfl⟩ : name = name' ∧ word = word' := by simpa [hread] using hread'
      exact ⟨agree_digest_iff.2 hname, agree_digest_iff.2 hword⟩
  · rename_i hnone
    simp [hnone]

/-! ## Reading what is shown -/

/-- What a client shows who knows a name and a password. -/
def shown (username password : String) : Bytes :=
  Utf8.ofString "Basic " ++ Base64.encode (Utf8.ofString (username ++ ":" ++ password))

/-- A text is split where the mark stands for the first time. -/
theorem splitFirst_append {mark : Char} {cs : List Char} (h : mark ∉ cs) (ds : List Char) :
    splitFirst mark (cs ++ mark :: ds) = some (cs, ds) := by
  induction cs with
  | nil => simp [splitFirst]
  | cons c cs ih =>
    rw [List.mem_cons, not_or] at h
    rw [List.cons_append, splitFirst, if_neg (Ne.symm h.1), ih h.2]
    rfl

theorem dropWhile_of_none {p : Char → Bool} {cs : List Char} (h : ∀ c ∈ cs, p c = false) :
    cs.dropWhile p = cs := by
  cases cs with
  | nil => rfl
  | cons c cs => rw [List.dropWhile_cons_of_neg (by simp [h c])]

/-- Nothing is trimmed off a text without blanks. -/
theorem trim_of_none {cs : List Char} (h : ∀ c ∈ cs, Blank.isUnicode c = false) :
    Blank.trim cs = cs := by
  have hreverse : ∀ c ∈ cs.reverse, Blank.isUnicode c = false := by
    intro c hc
    exact h c (List.mem_reverse.1 hc)
  rw [Blank.trim, dropWhile_of_none h, dropWhile_of_none hreverse, List.reverse_reverse]

/-- The characters of base64. -/
def base64Text (bs : Bytes) : List Char := (Base64.encode bs).map fun b => Char.ofNat b.toNat

theorem isText_base64 (bs : Bytes) : Headers.IsText (Base64.encode bs) := by
  intro b hb
  have hvisible := Base64.visible_of_mem_encode hb
  exact Or.inr ⟨hvisible.1.le, hvisible.2⟩

theorem encode_base64Text (bs : Bytes) : Utf8.encode (base64Text bs) = Base64.encode bs := by
  have hbytes := (isText_base64 bs).ofString_eq
  rwa [Utf8.ofString, String.toList_ofList] at hbytes

theorem isUnicode_base64Text (bs : Bytes) : ∀ c ∈ base64Text bs, Blank.isUnicode c = false := by
  intro c hc
  obtain ⟨b, hb, rfl⟩ := List.mem_map.1 hc
  have hvisible := Base64.visible_of_mem_encode hb
  have hall : ∀ n < 0x7F, 0x20 < n → Blank.isUnicode (Char.ofNat n) = false := by decide
  exact hall b.toNat hvisible.2 hvisible.1

theorem trim_base64Text (bs : Bytes) : Blank.trim (base64Text bs) = base64Text bs :=
  trim_of_none (isUnicode_base64Text bs)

/-- The text of the header in which something is shown. -/
theorem text?_shown (username password : String) :
    Headers.text? (shown username password) = some (String.ofList
      ("Basic".toList ++ ' ' :: base64Text (Utf8.ofString (username ++ ":" ++ password)))) := by
  have hscheme : Headers.IsText (Utf8.ofString "Basic ") := Headers.isText_iff.2 rfl
  have htext : Headers.IsText (shown username password) := by
    intro b hb
    rcases List.mem_append.1 hb with hb | hb
    · exact hscheme b hb
    · exact isText_base64 _ b hb
  rw [Headers.text?, if_pos (Headers.isText_iff.1 htext), shown, List.map_append]
  rfl

/-- **What is shown is read back**, up to the first colon as a name and from there on as a password. -/
theorem decode_shown (username password : String) :
    decode (shown username password) =
      (splitFirst ':' (username.toList ++ ':' :: password.toList)).map
        fun (name, word) => (String.ofList name, String.ofList word) := by
  have hscheme : Headers.lower (String.ofList "Basic".toList) = "basic" := by decide
  have hjoined : (username ++ ":" ++ password).toList = username.toList ++ ':' :: password.toList := by
    simp
  have hdecoded : Utf8.decode? (Utf8.ofString (username ++ ":" ++ password)) =
      some (username.toList ++ ':' :: password.toList) := by
    rw [Utf8.ofString, Utf8.decode?_encode, hjoined]
  unfold decode
  rw [text?_shown]
  simp only [Option.bind_eq_bind, Option.bind_some, String.toList_ofList]
  rw [splitFirst_append (by decide)]
  simp only [Option.bind_some, hscheme, if_true]
  rw [trim_base64Text, encode_base64Text, Base64.decode_encode]
  simp only [Option.bind_some, hdecoded]
  cases splitFirst ':' (username.toList ++ ':' :: password.toList) <;> rfl

/-- A name without a colon is read back as it is. -/
theorem decode_shown_of_notMem {username : String} (h : ':' ∉ username.toList) (password : String) :
    decode (shown username password) = some (username, password) := by
  rw [decode_shown, splitFirst_append h]
  simp

/-- A name with a colon is read back as a shorter one. -/
theorem decode_shown_of_mem {username : String} (h : ':' ∈ username.toList) (password : String) :
    ∃ name word, decode (shown username password) = some (name, word) ∧ name ≠ username := by
  obtain ⟨front, back, hsplit, hfront⟩ := List.eq_append_cons_of_mem h
  refine ⟨String.ofList front, String.ofList (back ++ ':' :: password.toList), ?_, ?_⟩
  · rw [decode_shown, hsplit, List.append_assoc, List.cons_append, splitFirst_append hfront]
    rfl
  · rintro rfl
    rw [String.toList_ofList] at h
    exact hfront h

end HealthService.Credentials
