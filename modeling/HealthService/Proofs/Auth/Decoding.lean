import HealthService.Proofs.Auth.Credentials
import HealthService.Proofs.Text.Utf8
import HealthService.Service.Layer

/-!
# Which headers open the door

The value of a header passes through six readers before a digest is compared: it has to be a text, to have
a space in it, to begin with the right word, to be base64, to be UTF-8 and to have a colon in it.  Each of
these readers takes just one kind of text, and so do all of them together.

* `Shows` — what a header has to look like that shows a name and a password.
* `decode_eq_some_iff` — **what is read from a header is what it shows.**
* `admits_shows_iff` — credentials admit just the headers that show what has the right digests.
* `opens_to_shows` — **who gets through to the service, and what everybody else is told.**
-/

namespace HealthService

/-! ## Splitting and trimming -/

/-- A text is split where the mark stands for the first time, and nowhere else. -/
theorem Credentials.splitFirst_eq_some_iff {mark : Char} {cs front back : List Char} :
    splitFirst mark cs = some (front, back) ↔ mark ∉ front ∧ cs = front ++ mark :: back := by
  constructor
  · intro h
    induction cs generalizing front with
    | nil => cases h
    | cons c cs ih =>
      rw [splitFirst] at h
      split at h
      · rename_i hc
        obtain ⟨rfl, rfl⟩ : [] = front ∧ cs = back := by simpa using h
        exact ⟨by simp, by rw [hc]; rfl⟩
      · rename_i hc
        obtain ⟨⟨front', back'⟩, hrest, hpair⟩ := Option.map_eq_some_iff.1 h
        obtain ⟨rfl, rfl⟩ : c :: front' = front ∧ back' = back := by simpa using hpair
        obtain ⟨hmark, rfl⟩ := ih hrest
        exact ⟨by simp [Ne.symm hc, hmark], rfl⟩
  · rintro ⟨hmark, rfl⟩
    exact splitFirst_append hmark back

namespace Blank

/-- What `trim` takes away stands at the two ends and is white space. -/
theorem exists_trim (cs : List Char) : ∃ before after, cs = before ++ trim cs ++ after ∧
    (∀ c ∈ before, isUnicode c = true) ∧ ∀ c ∈ after, isUnicode c = true := by
  have hsplit (ds : List Char) : ∃ front, ds = front ++ ds.dropWhile isUnicode ∧
      ∀ c ∈ front, isUnicode c = true := by
    refine ⟨ds.takeWhile isUnicode, List.takeWhile_append_dropWhile.symm, fun c hc => ?_⟩
    exact List.all_eq_true.1 List.all_takeWhile c hc
  obtain ⟨before, hbefore, hblank⟩ := hsplit cs
  obtain ⟨after, hafter, hblank'⟩ := hsplit (cs.dropWhile isUnicode).reverse
  refine ⟨before, after.reverse, ?_, hblank, fun c hc => hblank' c (List.mem_reverse.1 hc)⟩
  have hcore : cs.dropWhile isUnicode = trim cs ++ after.reverse := by
    rw [trim, ← List.reverse_append, ← hafter, List.reverse_reverse]
  rw [List.append_assoc, ← hcore]
  exact hbefore

/-- White space around a text without any is taken away. -/
theorem trim_append {before core after : List Char} (hbefore : ∀ c ∈ before, isUnicode c = true)
    (hcore : ∀ c ∈ core, isUnicode c = false) (hafter : ∀ c ∈ after, isUnicode c = true) :
    trim (before ++ core ++ after) = core := by
  have hreverse : ∀ c ∈ after.reverse, isUnicode c = true := fun c hc =>
    hafter c (List.mem_reverse.1 hc)
  have hcore' : ∀ c ∈ core.reverse, isUnicode c = false := fun c hc => hcore c (List.mem_reverse.1 hc)
  rw [trim, List.append_assoc, List.dropWhile_append_of_pos hbefore]
  cases core with
  | nil =>
    have hnone : (after ++ []).dropWhile isUnicode = [] := List.dropWhile_append_of_pos hafter
    rw [List.append_nil] at hnone
    simp [hnone]
  | cons c core =>
    rw [List.cons_append, List.dropWhile_cons_of_neg (by simp [hcore c]), ← List.cons_append,
      List.reverse_append, List.dropWhile_append_of_pos hreverse, Credentials.dropWhile_of_none hcore',
      List.reverse_reverse]

end Blank

namespace Headers

/-- The characters of a text in a header. -/
theorem IsText.chars {s : String} (h : IsText (Utf8.ofString s)) :
    ∀ c ∈ s.toList, c = '\t' ∨ (0x20 ≤ c.toNat ∧ c.toNat < 0x7F) := by
  refine (Utf8.all_encode_iff ?_ ?_ ?_ s.toList).1 h
  · rintro b hb (rfl | hlt)
    · exact absurd hb (by decide)
    · omega
  · rintro c hc (rfl | hlt)
    · exact absurd hc (by decide)
    · omega
  · decide

/-- Of white space only spaces and tabs are found in headers. -/
theorem IsText.blank {s : String} (h : IsText (Utf8.ofString s)) {c : Char} (hc : c ∈ s.toList)
    (hblank : Blank.isUnicode c = true) : c = ' ' ∨ c = '\t' := by
  have hascii : ∀ n < 0x7F, 0x20 ≤ n → Blank.isUnicode (Char.ofNat n) = true → n = 0x20 := by decide
  rcases h.chars c hc with htab | ⟨hge, hlt⟩
  · exact Or.inr htab
  · have hn := hascii c.toNat hlt hge (by rwa [Char.ofNat_toNat])
    exact Or.inl (by rw [← Char.ofNat_toNat c, hn])

/-- Letters are put in lower case as the library does it. -/
theorem lowerChar_eq (c : Char) : lowerChar c = c.toLower := by
  have hascii : ∀ n < 0x80, lowerChar (Char.ofNat n) = (Char.ofNat n).toLower := by decide
  by_cases h : c.toNat < 0x80
  · have hc := hascii c.toNat h
    rwa [Char.ofNat_toNat] at hc
  · have hupper : ¬ (c.val ≥ 'A'.val ∧ c.val ≤ 'Z'.val) := by
      rintro ⟨-, hle⟩
      exact h (lt_of_le_of_lt (UInt32.le_iff_toNat_le.1 hle) (by decide))
    have hupper' : ¬ ('A' ≤ c ∧ c ≤ 'Z') := hupper
    have htoLower : c.toLower = c := dif_neg hupper
    rw [lowerChar, if_neg hupper', htoLower]

theorem lower_eq (s : String) : lower s = s.toLower := by
  have htoLower : s.toLower = s.map Char.toLower := rfl
  rw [← String.toList_inj, lower, String.toList_ofList, htoLower, String.toList_map]
  exact List.map_congr_left fun c _ => lowerChar_eq c

end Headers

namespace Credentials

/-! ## What a header shows -/

/-- Spaces and tabs. -/
def Blanks (s : String) : Prop := ∀ c ∈ s.toList, c = ' ' ∨ c = '\t'

/-- A header value that shows a name and a password.  It is a text; up to its first space stands the word
`basic`, in letters of any case; what follows is, apart from blanks around it, the base64 text of the name,
a colon and the password; and there is no other colon before this one. -/
structure Shows (value : Bytes) (name word : String) : Prop where
  isText : Headers.IsText value
  form : ∃ scheme before after : String, ' ' ∉ scheme.toList ∧ scheme.toLower = "basic" ∧
    Blanks before ∧ Blanks after ∧ value = Utf8.ofString (scheme ++ " " ++ before) ++
      Base64.encode (Utf8.ofString (name ++ ":" ++ word)) ++ Utf8.ofString after
  notMem : ':' ∉ name.toList

/-- What is shown, character by character. -/
theorem ofString_form (scheme before after : String) (bs : Bytes) :
    Utf8.ofString (scheme ++ " " ++ before) ++ Base64.encode bs ++ Utf8.ofString after =
      Utf8.encode (scheme.toList ++ ' ' :: (before.toList ++ base64Text bs ++ after.toList)) := by
  have hspace : Utf8.encode [' '] = Utf8.encode " ".toList := rfl
  rw [← List.singleton_append]
  simp only [Utf8.encode_append, encode_base64Text, Utf8.ofString, String.toList_append, hspace,
    List.append_assoc]

/-- Reading a header, step by step. -/
theorem decode_steps {value : Bytes} {name word : String} : decode value = some (name, word) ↔
    ∃ (text : String) (scheme encoded : List Char), Headers.IsText value ∧
      value = Utf8.ofString text ∧ ' ' ∉ scheme ∧ text.toList = scheme ++ ' ' :: encoded ∧
      (String.ofList scheme).toLower = "basic" ∧
      Utf8.encode (Blank.trim encoded) = Base64.encode (Utf8.ofString (name ++ ":" ++ word)) ∧
      ':' ∉ name.toList := by
  have hjoined : (name ++ ":" ++ word).toList = name.toList ++ ':' :: word.toList := by simp
  unfold decode
  simp only [Option.bind_eq_bind, Option.bind_eq_some_iff, Prod.exists, Headers.text?_eq_some_iff,
    splitFirst_eq_some_iff, Headers.lower_eq, Base64.decode_eq_some_iff, Utf8.decode?_eq_some_iff,
    Option.ite_none_right_eq_some, Option.some.injEq, Prod.mk.injEq]
  constructor
  · rintro ⟨text, ⟨htext, hvalue⟩, scheme, encoded, ⟨hspace, hsplit⟩, hscheme, bytes, hbytes, decoded,
      rfl, front, back, ⟨hcolon, rfl⟩, rfl, rfl⟩
    rw [String.toList_ofList, String.toList_ofList] at hjoined
    refine ⟨text, scheme, encoded, htext, hvalue, hspace, hsplit, hscheme, ?_, ?_⟩
    · rw [hbytes, Utf8.ofString, hjoined]
    · rwa [String.toList_ofList]
  · rintro ⟨text, scheme, encoded, htext, hvalue, hspace, hsplit, hscheme, hbytes, hcolon⟩
    refine ⟨text, ⟨htext, hvalue⟩, scheme, encoded, ⟨hspace, hsplit⟩, hscheme, _, hbytes, _, rfl,
      name.toList, word.toList, ⟨hcolon, hjoined⟩, ?_, ?_⟩
    · exact String.ofList_toList
    · exact String.ofList_toList

/-- **What is read from a header is what it shows.** -/
theorem decode_eq_some_iff {value : Bytes} {name word : String} :
    decode value = some (name, word) ↔ Shows value name word := by
  rw [decode_steps]
  constructor
  · rintro ⟨text, scheme, encoded, htext, rfl, hspace, hsplit, hscheme, hbytes, hcolon⟩
    obtain ⟨before, after, hencoded, hbefore, hafter⟩ := Blank.exists_trim encoded
    have hcore : Blank.trim encoded = base64Text (Utf8.ofString (name ++ ":" ++ word)) :=
      Utf8.encode_injective (hbytes.trans (encode_base64Text _).symm)
    rw [hcore] at hencoded
    rw [hencoded] at hsplit
    have hblank {c : Char} (hc : c ∈ before ++ after) (hwhite : Blank.isUnicode c = true) :
        c = ' ' ∨ c = '\t' := by
      refine htext.blank ?_ hwhite
      rw [hsplit]
      simp only [List.mem_append, List.mem_cons] at hc ⊢
      tauto
    refine ⟨htext, ⟨String.ofList scheme, String.ofList before, String.ofList after, ?_, hscheme,
      ?_, ?_, ?_⟩, hcolon⟩
    · rwa [String.toList_ofList]
    · intro c hc
      rw [String.toList_ofList] at hc
      exact hblank (List.mem_append_left _ hc) (hbefore c hc)
    · intro c hc
      rw [String.toList_ofList] at hc
      exact hblank (List.mem_append_right _ hc) (hafter c hc)
    · rw [ofString_form, Utf8.ofString, hsplit, String.toList_ofList, String.toList_ofList,
        String.toList_ofList]
  · rintro ⟨htext, ⟨scheme, before, after, hspace, hscheme, hbefore, hafter, hvalue⟩, hcolon⟩
    have hwhite {c : Char} (hc : c = ' ' ∨ c = '\t') : Blank.isUnicode c = true := by
      rcases hc with rfl | rfl <;> rfl
    rw [ofString_form] at hvalue
    refine ⟨String.ofList _, scheme.toList, _, htext, hvalue.trans (Utf8.ofString_ofList _).symm,
      hspace, String.toList_ofList, ?_, ?_, hcolon⟩
    · rwa [String.ofList_toList]
    · rw [Blank.trim_append (fun c hc => hwhite (hbefore c hc)) (isUnicode_base64Text _)
        (fun c hc => hwhite (hafter c hc)), encode_base64Text]

-- The word may be written in any case, and blanks may stand around the base64 text.
example : Shows (Utf8.ofString "bAsIc \t b3BzOnMzY3JldA== ") "ops" "s3cret" :=
  decode_eq_some_iff.1 (by decide)

/-! ## Who gets through -/

/-- A header that opens the door to those who know this name and this password: it shows a name and a
password of the same digests. -/
def Opens (username password : String) (value : Option Bytes) : Prop :=
  ∃ v name word, value = some v ∧ Shows v name word ∧ digest name = digest username ∧
    digest word = digest password

/-- **Credentials admit just the headers that open the door.** -/
theorem admits_shows_iff {username password : String} {realm : Option String} {value : Option Bytes} :
    (new username password realm).admits value = true ↔ Opens username password value := by
  rw [admits_new_iff]
  constructor
  · rintro ⟨name, word, hread, hname, hword⟩
    obtain ⟨v, hv, hread⟩ := Option.bind_eq_some_iff.1 hread
    exact ⟨v, name, word, hv, decode_eq_some_iff.1 hread, hname.symm, hword.symm⟩
  · rintro ⟨v, name, word, rfl, hshows, hname, hword⟩
    exact ⟨name, word, decode_eq_some_iff.2 hshows, hname.symm, hword.symm⟩

/-- A header shows one name and one password. -/
theorem Shows.unique {v : Bytes} {name word name' word' : String} (h : Shows v name word)
    (h' : Shows v name' word') : name = name' ∧ word = word' := by
  have hread := decode_eq_some_iff.2 h
  rw [decode_eq_some_iff.2 h', Option.some.injEq, Prod.mk.injEq] at hread
  exact ⟨hread.1.symm, hread.2.symm⟩

/-- Where digests tell texts apart, the door is open to one name and one password. -/
theorem opens_iff_eq {username password name word : String} {v : Bytes} (hshows : Shows v name word)
    (hname : digest name = digest username → name = username)
    (hword : digest word = digest password → word = password) :
    Opens username password (some v) ↔ name = username ∧ word = password := by
  constructor
  · rintro ⟨v', name', word', hv, hshows', hdigest, hdigest'⟩
    obtain rfl := Option.some.inj hv
    obtain ⟨rfl, rfl⟩ := hshows.unique hshows'
    exact ⟨hname hdigest, hword hdigest'⟩
  · rintro ⟨rfl, rfl⟩
    exact ⟨v, name, word, rfl, hshows, rfl, rfl⟩

/-- Digests agree just if each of their bytes does. -/
theorem agree_iff_bytes {n : Nat} {a b : Bytes} (ha : a.length = n) (hb : b.length = n) :
    agree a b = true ↔ ∀ i < n, a[i]? = b[i]? := by
  rw [agree_iff (ha.trans hb.symm)]
  constructor
  · rintro rfl i -
    rfl
  · intro hall
    refine List.ext_getElem? fun i => ?_
    by_cases hi : i < n
    · exact hall i hi
    · rw [List.getElem?_eq_none (by omega), List.getElem?_eq_none (by omega)]

/-- **Who gets through to the service, and what everybody else is told**, for every name and password that
are asked for, every request, every service behind the layer and every state of it.

* If the first authorization header opens the door, the service is called.
* In all other cases it is not: its state stays as it is, and the answer has status 401 and the challenge.
* Two digests agree just if all their 32 bytes do.
* A name and a password whose digests are not mistaken for those of the right ones open the door only if they
  are the right ones, and then they do. -/
theorem opens_to_shows (username password : String) (realm : Option String) (call : Call) :
    let credentials := new username password realm
    let value := call.request.headers.first? "authorization"
    let refused := Layer.unauthorized credentials
    (∀ {σ : Type} (s : Service σ) (state : σ),
      (Opens username password value →
        ((Layer.auth credentials).wrap s).call call state = s.call call state) ∧
      (¬ Opens username password value →
        ((Layer.auth credentials).wrap s).call call state =
          ({ outcome := .answered refused }, state))) ∧
    refused.status = 401 ∧ refused.headers.values "www-authenticate" = [credentials.challenge] ∧
    (∀ a b : Bytes, a.length = 32 → b.length = 32 → (agree a b = true ↔ ∀ i < 32, a[i]? = b[i]?)) ∧
    ∀ v name word, value = some v → Shows v name word →
      (digest name = digest username → name = username) →
      (digest word = digest password → word = password) →
      (Opens username password value ↔ name = username ∧ word = password) := by
  intro credentials value refused
  refine ⟨fun s state => ⟨fun hopens => ?_, fun hopens => ?_⟩, rfl, ?_, fun a b ha hb =>
    agree_iff_bytes ha hb, ?_⟩
  · have hadmits : credentials.admits value = true := admits_shows_iff.2 hopens
    exact if_pos hadmits
  · have hadmits : ¬ credentials.admits value = true := fun h => hopens (admits_shows_iff.1 h)
    exact if_neg hadmits
  · exact (Headers.values_insert _ _ _ _).trans (if_pos rfl)
  · intro v name word hvalue hshows hname hword
    rw [hvalue]
    exact opens_iff_eq hshows hname hword

end Credentials
end HealthService
