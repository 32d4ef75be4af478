import HealthService.Config.Load
import HealthService.Proofs.Format.ReadBack
import HealthService.Proofs.Net.Addresses

/-!
# Configurations are read back

A configuration that was accepted can be written down as a document of JSON, with everything that holds,
whether it was said or left out.  That document is accepted in its turn as the same configuration.

* `Config.legible` — every configuration is legible whose URLs are.
* `Config.read_printed` — such a configuration is read back.
* `Config.parse_printed` — **what is accepted stays accepted when it is written down**, as the same
  configuration and with the same warnings.
-/

namespace HealthService.Config

open Json

/-! ## The sections -/

@[simp] theorem legible_address (a : IpAddress) {levels : Nat} : addressFormat.Legible levels a := by
  refine Format.legible_parsed.2 ?_
  rw [String.toList_ofList, IpAddress.parse?_print]

theorem legible_url {levels : Nat} {u : Url} (h : Url.parse u.toText.toList = .ok u) :
    urlFormat.Legible levels u := by
  refine Format.legible_parsed.2 ?_
  rw [h]

theorem Tls.legible (t : Tls) {levels : Nat} (h : 0 < levels) : Tls.format.Legible levels t := by
  refine (Format.legible_closed rfl (by decide)).2 ⟨h, ?_⟩
  simp [pathFormat]

theorem Server.legible (s : Server) {levels : Nat} (h : 1 < levels) :
    Server.format.Legible levels s := by
  refine (Format.legible_closed rfl (by decide)).2 ⟨by omega, ?_⟩
  have htls : (Format.optional Tls.format).Legible (levels - 1) s.tls :=
    (Format.legible_optional rfl).2 fun t _ => t.legible (by omega)
  simp [htls]

theorem Probe.legible {p : Probe} (hurl : Url.parse p.url.toText.toList = .ok p.url) {levels : Nat}
    (h : 0 < levels) : Probe.format.Legible levels p := by
  refine (Format.legible_closed rfl (by decide)).2 ⟨h, ?_⟩
  simpa [Format.legible_optional (show Format.uint16.isPresent = true from rfl)] using legible_url hurl

theorem Health.legible {s : Health} (hurls : ∀ p ∈ s.checks, Url.parse p.url.toText.toList = .ok p.url)
    {levels : Nat} (h : 2 < levels) : Health.format.Legible levels s := by
  refine (Format.legible_closed rfl (by decide)).2 ⟨by omega, ?_⟩
  have hchecks : (Format.list Probe.format).Legible (levels - 1) s.checks :=
    Format.legible_list.2 ⟨by omega, fun p hp => Probe.legible (hurls p hp) (by omega)⟩
  simpa using hchecks

theorem Auth.legible (a : Auth) {levels : Nat} (h : 0 < levels) : Auth.format.Legible levels a := by
  refine (Format.legible_closed rfl (by decide)).2 ⟨h, ?_⟩
  simp [Format.legible_optional (show Format.text.isPresent = true from rfl)]

theorem Metrics.legible (m : Metrics) {levels : Nat} (h : 0 < levels) :
    Metrics.format.Legible levels m := by
  refine (Format.legible_closed rfl (by decide)).2 ⟨h, ?_⟩
  simp

theorem Logging.legible (l : Logging) {levels : Nat} (h : 0 < levels) :
    Logging.format.Legible levels l := by
  refine (Format.legible_closed rfl (by decide)).2 ⟨h, ?_⟩
  simp [logFormat]

/-! ## Whole configurations -/

section

variable {c : Config} (hurls : ∀ p ∈ c.health.checks, Url.parse p.url.toText.toList = .ok p.url)

include hurls in
/-- **A configuration is legible** if the texts of its URLs are understood as these. -/
theorem legible : format.Legible maxLevels c := by
  refine (Format.legible_closed rfl (by decide)).2 ⟨by decide, ?_⟩
  have hauth : (Format.optional Auth.format).Legible (maxLevels - 1) c.auth :=
    (Format.legible_optional rfl).2 fun a _ => a.legible (by decide)
  simp only [Members.legible_withDefault, Members.legible_nil, and_true]
  exact ⟨c.server.legible (by decide), Health.legible hurls (by decide), hauth,
    c.metrics.legible (by decide), c.logging.legible (by decide)⟩

include hurls in
/-- A configuration is read back from what is written of it. -/
theorem read_printed : read .json (format.printJson c) = .ok c := by
  have hread := Format.ofJson_printJson (legible hurls) [] (by simp)
  rw [List.append_nil] at hread
  rw [read, hread]

end

/-- A text is accepted as what it is read as, if that is valid. -/
theorem parse_eq_ok_iff {markup : Markup} {text : List Char} {c : Config} {entries : List Entry} :
    parse markup text = (.ok c, entries) ↔
      read markup text = .ok c ∧ c.validate = (.ok (), entries) := by
  unfold parse
  constructor
  · intro h
    split at h
    · cases h
    · rename_i d hread
      split at h
      · rename_i valid warnings hvalid
        obtain ⟨hc, rfl⟩ := Prod.mk.inj h
        obtain rfl := Except.ok.inj hc
        exact ⟨hread, hvalid⟩
      · cases h
  · rintro ⟨hread, hvalid⟩
    rw [hread]
    dsimp only
    rw [hvalid]

/-- **What is accepted stays accepted when it is written down**, as the same configuration and with the
same warnings, whatever was left out of the text and whether that was JSON or YAML.  The texts of the URLs
in it are taken to be understood as these. -/
theorem parse_printed {markup : Markup} {text : List Char} {c : Config} {entries : List Entry}
    (h : parse markup text = (.ok c, entries))
    (hurls : ∀ p ∈ c.health.checks, Url.parse p.url.toText.toList = .ok p.url) :
    parse .json (format.printJson c) = (.ok c, entries) :=
  parse_eq_ok_iff.2 ⟨read_printed hurls, (parse_eq_ok_iff.1 h).2⟩

/-- Two checks of one name, a section of which nothing is said, and a member that nobody asked for. -/
theorem parse_printed_twins :
    let text := ("\x7b\"health\":\x7b\"checks\":[\x7b\"name\":\"a\",\"url\":\"HTTP://h\"\x7d," ++
      "\x7b\"url\":\"https://i:1/\",\"expected_status\":204,\"name\":\"a\"\x7d]\x7d," ++
      "\"auth\":null,\"server\":\x7b\"host\":\"::1\"\x7d,\"x\":[]\x7d").toList
    let first : Url := { scheme := "http", host := some (.domain "h"), path := .segments [""] }
    let second : Url :=
      { scheme := "https", host := some (.domain "i"), port := some 1, path := .segments [""] }
    let c : Config :=
      { server := { host := .v6 [0, 0, 0, 0, 0, 0, 0, 1] rfl }
        health := { checks := [⟨"a", first, none⟩, ⟨"a", second, some 204⟩] } }
    let entries : List Entry := [⟨.duplicateCheckName "a", []⟩]
    parse .json text = (.ok c, entries) ∧ parse .json (format.printJson c) = (.ok c, entries) := by
  intro text first second c entries
  have hread : format.ofJson (Utf8.encode text) = .ok c := by decide +kernel
  have h : parse .json text = (.ok c, entries) := by
    refine parse_eq_ok_iff.2 ⟨?_, by decide +kernel⟩
    rw [read, hread]
  exact ⟨h, parse_printed h (by decide +kernel)⟩

end HealthService.Config
