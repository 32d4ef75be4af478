import HealthService.Proofs.Config.ReadBack
import HealthService.Proofs.Format.Defaults

/-!
# Defaults of configurations

What holds of a section when it is left out is said in one place, and what holds of each of its members when
that is left out in another.  The two agree: a section that is left out is as good as an empty one, and as
good as one with all its defaults.

* `Config.presumes_section` — **a section of which nothing is said** may be put in, empty or spelled out.
* `Config.read_eq_ok_iff` — a text of JSON is accepted just if it is one of a document with a meaning.
* `Config.parse_edited` — **defaults agree whichever way they are reached**: what is accepted stays accepted
  as the same configuration when members are left out or put in that have their defaults.
-/

namespace HealthService

open Json

/-- Where nothing is said of a member, some value of it may be put in. -/
def Format.Presumes {α : Type} (format : Format α) (key : String) (v : Doc) : Prop :=
  ∀ xs ys : List (String × Doc), Unsaid key (xs ++ ys) →
    format.Edit (.object (xs ++ ys)) (.object (xs ++ (key, v) :: ys))

namespace Config

/-! ## Defaults spelled out -/

/-- A natural number in a document. -/
def numeral (n : Nat) : Doc := .scalar (.number (.int (.ofUInt64 (.ofNat n))))

/-- The server's section with all its defaults. -/
def Server.spelledOut : Doc :=
  .object [("host", .scalar (.text "0.0.0.0")), ("port", numeral 8080),
    ("shutdown_timeout_secs", numeral 20), ("read_header_timeout_secs", numeral 10),
    ("write_timeout_secs", numeral 10), ("idle_timeout_secs", numeral 120), ("tls", .scalar .null)]

/-- The section on checks with all its defaults. -/
def Health.spelledOut : Doc :=
  .object [("version", .scalar (.text "0.1.0")), ("environment", .scalar (.text "development")),
    ("overall_timeout_ms", numeral 2000), ("per_check_timeout_ms", numeral 800), ("checks", .list [])]

/-- The section on metrics with all its defaults. -/
def Metrics.spelledOut : Doc :=
  .object [("enabled", .scalar (.bool false)), ("port", numeral 9090), ("path", .scalar (.text "/metrics"))]

/-- The section on logging with all its defaults. -/
def Logging.spelledOut : Doc := .object [("format", .scalar (.text "text"))]

/-- The sections that may be left out, with all their defaults. -/
def sections : List (String × Doc) :=
  [("server", Server.spelledOut), ("health", Health.spelledOut), ("metrics", Metrics.spelledOut),
    ("logging", Logging.spelledOut)]

theorem presumes_of_has {α β σ : Type} {name : String} {members : Members σ} {build : σ → α} {parts : α → σ}
    {hbuild : ∀ a, build (parts a) = a} {key : String} {format : Format β} {fallback : Option β} {b : β}
    {v : Doc} (hmember : members.Has key format fallback)
    (hdefault : Members.fill key format fallback = .ok b) (hvalue : format.interpret v = some b) :
    (Format.record name members build parts hbuild).Presumes key v :=
  fun xs ys hunsaid => .putIn xs ys hmember hdefault hvalue hunsaid

/-- **A section of which nothing is said** may be put in, empty or with all its defaults. -/
theorem presumes_section {s : String × Doc} (hs : s ∈ sections) :
    format.Presumes s.1 (.object []) ∧ format.Presumes s.1 s.2 := by
  simp only [sections, List.mem_cons, List.not_mem_nil, or_false] at hs
  rcases hs with rfl | rfl | rfl | rfl
  case inl =>
    have hserver : ∀ v, Server.format.interpret v = some {} → format.Presumes "server" v :=
      fun v => presumes_of_has .here rfl
    exact ⟨hserver _ (by decide +kernel), hserver _ (by decide +kernel)⟩
  case inr.inl =>
    have hhealth : ∀ v, Health.format.interpret v = some {} → format.Presumes "health" v :=
      fun v => presumes_of_has (.there (by decide) .here) rfl
    exact ⟨hhealth _ (by decide +kernel), hhealth _ (by decide +kernel)⟩
  case inr.inr.inl =>
    have hmetrics : ∀ v, Metrics.format.interpret v = some {} → format.Presumes "metrics" v :=
      fun v => presumes_of_has (.there (by decide) <| .there (by decide) <| .there (by decide) .here) rfl
    exact ⟨hmetrics _ (by decide +kernel), hmetrics _ (by decide +kernel)⟩
  case inr.inr.inr =>
    have hlogging : ∀ v, Logging.format.interpret v = some {} → format.Presumes "logging" v :=
      fun v => presumes_of_has
        (.there (by decide) <| .there (by decide) <| .there (by decide) <| .there (by decide) .here) rfl
    exact ⟨hlogging _ (by decide +kernel), hlogging _ (by decide +kernel)⟩

/-- An optional part of which nothing is said may be put in as nothing. -/
theorem presumes_nothing : format.Presumes "auth" (.scalar .null) ∧
    Server.format.Presumes "tls" (.scalar .null) ∧ Auth.format.Presumes "realm" (.scalar .null) ∧
      Probe.format.Presumes "expected_status" (.scalar .null) := by
  have htls : ∀ v, (Format.optional Tls.format).interpret v = some none → Server.format.Presumes "tls" v :=
    fun v => presumes_of_has (.there (by decide) <| .there (by decide) <| .there (by decide) <|
      .there (by decide) <| .there (by decide) <| .there (by decide) .here) rfl
  exact ⟨presumes_of_has (.there (by decide) <| .there (by decide) .here) rfl rfl, htls _ rfl,
    presumes_of_has (.there (by decide) <| .there (by decide) .here) rfl rfl,
    presumes_of_has (.there (by decide) <| .there (by decide) .here) rfl rfl⟩

/-! ## Texts -/

/-- A text of JSON is accepted just if it is one of a document with a meaning. -/
theorem read_eq_ok_iff {text : List Char} {c : Config} : read .json text = .ok c ↔
    ∃ d : Doc, d.RendersWhole (Utf8.encode text) ∧ format.interpret d = some c := by
  rw [← Format.ofJson_eq_ok_iff (by decide) rfl, read]
  cases format.ofJson (Utf8.encode text) <;> simp

/-- A document that is changed means the same, and so do all its texts. -/
theorem parse_edited {text : List Char} {d d' : Doc} {c : Config} (hd : format.interpret d = some c)
    (h : d.RendersWhole (Utf8.encode text)) (hedits : format.Edits d d') {text' : List Char}
    (h' : d'.RendersWhole (Utf8.encode text')) : parse .json text' = parse .json text := by
  have hread : read .json text = .ok c := read_eq_ok_iff.2 ⟨d, h, hd⟩
  have hread' : read .json text' = .ok c := read_eq_ok_iff.2 ⟨d', h', hedits.interpret_eq hd⟩
  rw [parse, parse, hread, hread']

/-- **Defaults agree whichever way they are reached.**  A section of which nothing is said may be put in,
empty or with all its defaults, and an optional part as nothing.  A text that is accepted is one of some
document, and whatever members of that are left out or put in with their defaults, the document that comes
of it has texts, and all of them are parsed as the first one was. -/
theorem defaults_agree :
    (∀ s ∈ sections, format.Presumes s.1 (.object []) ∧ format.Presumes s.1 s.2) ∧
    (format.Presumes "auth" (.scalar .null) ∧ Server.format.Presumes "tls" (.scalar .null) ∧
      Auth.format.Presumes "realm" (.scalar .null) ∧ Probe.format.Presumes "expected_status" (.scalar .null)) ∧
    ∀ text c, read .json text = .ok c →
      (∃ d : Doc, d.RendersWhole (Utf8.encode text) ∧ format.interpret d = some c) ∧
      ∀ d : Doc, d.RendersWhole (Utf8.encode text) → format.interpret d = some c →
        ∀ d', format.Edits d d' → (∃ text', d'.RendersWhole (Utf8.encode text')) ∧
          ∀ text', d'.RendersWhole (Utf8.encode text') → parse .json text' = parse .json text := by
  refine ⟨fun s => presumes_section, presumes_nothing, fun text c h => ⟨read_eq_ok_iff.1 h, ?_⟩⟩
  intro d ht hd d' hedits
  have hexact := format.exact_of_interpret (hedits.interpret_eq hd)
  exact ⟨⟨d'.print, d'.rendersWhole_print hexact⟩, fun text' ht' => parse_edited hd ht hedits ht'⟩

/-- A default that is left out, a section that is put in, and nothing said where nothing was said. -/
theorem defaults_agree_port :
    let text := ("\x7b\"health\":\x7b\"checks\":[\x7b\"name\":\"a\",\"url\":\"http://h\"\x7d]\x7d," ++
      "\"metrics\":\x7b\"port\":9090,\"enabled\":true\x7d,\"x\":null\x7d").toList
    let text' := ("\x7b\"health\":\x7b\"checks\":[\x7b\"name\":\"a\",\"url\":\"http://h\"," ++
      "\"expected_status\":null\x7d]\x7d,\"metrics\":\x7b\"enabled\":true\x7d,\"x\":null," ++
      "\"server\":\x7b\x7d\x7d").toList
    (∃ c, read .json text = .ok c) ∧ parse .json text' = parse .json text := by
  intro text text'
  let probe : List (String × Doc) := [("name", .scalar (.text "a")), ("url", .scalar (.text "http://h"))]
  let health (ms : List (String × Doc)) : String × Doc := ("health", .object [("checks", .list [.object ms])])
  let metrics (ms : List (String × Doc)) : String × Doc :=
    ("metrics", .object (ms ++ [("enabled", .scalar (.bool true))]))
  let d : Doc := .object [health probe, metrics [("port", numeral 9090)], ("x", .ignored)]
  let d₁ : Doc := .object [health probe, metrics [], ("x", .ignored)]
  let d₂ : Doc := .object [health probe, metrics [], ("x", .ignored), ("server", .object [])]
  let probe' := probe ++ [("expected_status", .scalar .null)]
  let d₃ : Doc := .object [health probe', metrics [], ("x", .ignored), ("server", .object [])]
  have hport : format.Edit d d₁ := by
    have hinner : Metrics.format.Edit (metrics [("port", numeral 9090)]).2 (metrics []).2 :=
      .leaveOut [] _ (.there (by decide) .here) rfl (by decide +kernel)
    exact .member [health probe] _ (.there (by decide) <| .there (by decide) <| .there (by decide) .here)
      hinner
  have hserver : format.Edit d₁ d₂ :=
    (presumes_section (s := ("server", Server.spelledOut)) (by simp [sections])).1
      [health probe, metrics [], ("x", .ignored)] [] (by decide)
  have hstatus : format.Edit d₂ d₃ := by
    have hinner : Probe.format.Edit (.object probe) (.object probe') :=
      presumes_nothing.2.2.2 probe [] (by decide)
    have houter : Health.format.Edit (health probe).2 (health probe').2 :=
      .member [] _ (.there (by decide) <| .there (by decide) <| .there (by decide) <|
        .there (by decide) .here) (.item [] _ hinner)
    exact .member [] _ (.there (by decide) .here) houter
  have hedits : format.Edits d d₃ := ((Relation.ReflTransGen.single hport).tail hserver).tail hstatus
  obtain ⟨c, hc⟩ : ∃ c, format.interpret d = some c := Option.isSome_iff_exists.1 (by decide +kernel)
  have ht : d.RendersWhole (Utf8.encode text) := by
    have hprint : d.print = text := by decide +kernel
    rw [← hprint]
    exact d.rendersWhole_print (format.exact_of_interpret hc)
  have ht' : d₃.RendersWhole (Utf8.encode text') := by
    have hprint : d₃.print = text' := by decide +kernel
    rw [← hprint]
    exact d₃.rendersWhole_print (format.exact_of_interpret (hedits.interpret_eq hc))
  have hread : read .json text = .ok c := read_eq_ok_iff.2 ⟨d, ht, hc⟩
  exact ⟨⟨c, hread⟩, ((defaults_agree.2.2 text c hread).2 d ht hc d₃ hedits).2 text' ht'⟩

end Config

end HealthService
