import HealthService.Config.Validate

/-!
# What makes a configuration valid

Validation asks for seven things and tells the first that is missing.  Here the rules stand side by
side: `Config.faults` are all the rules that a configuration breaks, in their order, and validation is
shown to tell the first of them.

* `Config.faults_eq_nil_iff` — no rule is broken exactly if the configuration is `Valid`.
* `Config.validateChecks_fst` and `Config.validateChecks_snd` — the two results of the loop over the
  checks, from any index on and with any names known.
* `Config.validate_outcome` — **validation accepts the valid configurations, tells the first rule that
  another one breaks, and warns of repeated names** as far as it gets.
-/

namespace HealthService.Config

/-! ## The rules -/

/-- What is wrong if something is the case. -/
def faultIf (p : Prop) [Decidable p] (e : ConfigError) : List ConfigError := if p then [e] else []

/-- The rules that the server's section breaks. -/
def Server.faults (s : Server) : List ConfigError :=
  faultIf (s.port = 0) .zeroPort
    ++ faultIf (∃ t ∈ s.tls, t.certPath = "" ∨ t.keyPath = "") .emptyTlsPath

/-- The rules that the check at some index breaks. -/
def Probe.faults (index : Nat) (p : Probe) : List ConfigError :=
  faultIf (p.name.toList.all Blank.isUnicode) (.emptyCheckName index)
    ++ faultIf (p.url.scheme ≠ "http" ∧ p.url.scheme ≠ "https")
      (.unsupportedScheme p.name p.url.scheme)

/-- The rules that credentials break. -/
def Auth.faults (a : Auth) : List ConfigError :=
  faultIf (a.username = "" ∨ a.password = "") .emptyCredentials

/-- The rules that the section on metrics breaks, given the port of the server. -/
def Metrics.faults (serverPort : UInt16) (m : Metrics) : List ConfigError :=
  faultIf (m.enabled ∧ m.path.toList.head? ≠ some '/') (.invalidMetricsPath m.path)
    ++ faultIf (m.enabled ∧ (m.port = 0 ∨ m.port = serverPort)) .invalidMetricsPort

/-- The rules that checks break, the first of which stands at some index, check by check. -/
def checkFaults (index : Nat) (ps : List Probe) : List ConfigError :=
  (ps.zipIdx index).flatMap fun x => x.1.faults x.2

/-- All the rules that a configuration breaks, in the order of the rules. -/
def faults (c : Config) : List ConfigError :=
  c.server.faults ++ (checkFaults 0 c.health.checks ++
    (c.auth.toList.flatMap Auth.faults ++ c.metrics.faults c.server.port))

/-- A check with a name that is more than blanks, and with a URL that can be asked. -/
structure Probe.Valid (p : Probe) : Prop where
  name : ∃ x ∈ p.name.toList, ¬Blank.isUnicode x
  scheme : p.url.scheme = "http" ∨ p.url.scheme = "https"

/-- A configuration that can be used. -/
structure Valid (c : Config) : Prop where
  port : c.server.port ≠ 0
  tls : ∀ t ∈ c.server.tls, t.certPath ≠ "" ∧ t.keyPath ≠ ""
  checks : ∀ p ∈ c.health.checks, p.Valid
  auth : ∀ a ∈ c.auth, a.username ≠ "" ∧ a.password ≠ ""
  metrics : c.metrics.enabled →
    c.metrics.path.toList.head? = some '/' ∧ c.metrics.port ≠ 0 ∧ c.metrics.port ≠ c.server.port

@[simp] theorem faultIf_eq_nil {p : Prop} [Decidable p] {e : ConfigError} :
    faultIf p e = [] ↔ ¬p := by
  unfold faultIf
  split <;> simp [*]

theorem Probe.faults_eq_nil_iff {index : Nat} {p : Probe} : p.faults index = [] ↔ p.Valid := by
  rw [Probe.faults, List.append_eq_nil_iff, faultIf_eq_nil, faultIf_eq_nil]
  refine ⟨fun ⟨hname, hscheme⟩ => ⟨by simpa using hname, ?_⟩, fun h => ⟨?_, ?_⟩⟩
  · exact Decidable.or_iff_not_not_and_not.2 hscheme
  · simpa using h.name
  · exact Decidable.or_iff_not_not_and_not.1 h.scheme

instance Probe.decidableValid (p : Probe) : Decidable p.Valid :=
  decidable_of_iff (p.faults 0 = []) Probe.faults_eq_nil_iff

theorem checkFaults_cons (index : Nat) (p : Probe) (ps : List Probe) :
    checkFaults index (p :: ps) = p.faults index ++ checkFaults (index + 1) ps := by
  rw [checkFaults, List.zipIdx_cons, List.flatMap_cons, checkFaults]

/-- No check breaks a rule exactly if all are valid, wherever they stand. -/
theorem checkFaults_eq_nil_iff {index : Nat} {ps : List Probe} :
    checkFaults index ps = [] ↔ ∀ p ∈ ps, p.Valid := by
  induction ps generalizing index with
  | nil => simp [checkFaults]
  | cons p ps ih =>
    rw [checkFaults_cons, List.append_eq_nil_iff, Probe.faults_eq_nil_iff, ih, List.forall_mem_cons]

/-- **No rule is broken exactly if the configuration is valid.** -/
theorem faults_eq_nil_iff {c : Config} : c.faults = [] ↔ c.Valid := by
  simp only [faults, Server.faults, Auth.faults, Metrics.faults, List.append_eq_nil_iff,
    checkFaults_eq_nil_iff, List.flatMap_eq_nil_iff, Option.mem_toList, faultIf_eq_nil]
  constructor
  · rintro ⟨⟨hport, htls⟩, hchecks, hauth, hpath, hmetrics⟩
    exact ⟨hport, fun t ht => not_or.1 fun h => htls ⟨t, ht, h⟩, hchecks,
      fun a ha => not_or.1 (hauth a ha), by grind⟩
  · rintro ⟨hport, htls, hchecks, hauth, hmetrics⟩
    exact ⟨⟨hport, fun ⟨t, ht, h⟩ => not_or.2 (htls t ht) h⟩, hchecks,
      fun a ha => not_or.2 (hauth a ha), by grind, by grind⟩

/-! ## The first rule -/

/-- What rules that are broken come to: the first of them is told. -/
def firstFault : List ConfigError → Except ConfigError Unit
  | [] => .ok ()
  | e :: _ => .error e

theorem firstFault_append (es fs : List ConfigError) :
    firstFault (es ++ fs) = (do firstFault es; firstFault fs) := by
  cases es <;> rfl

theorem firstFault_eq_ok_iff {es : List ConfigError} : firstFault es = .ok () ↔ es = [] := by
  cases es <;> simp [firstFault]

theorem firstFault_eq_error_iff {es : List ConfigError} {e : ConfigError} :
    firstFault es = .error e ↔ es.head? = some e := by
  cases es <;> simp [firstFault]

theorem firstFault_faultIf (p : Prop) [Decidable p] (e : ConfigError) :
    firstFault (faultIf p e) = if p then .error e else .ok () := by
  unfold faultIf
  split <;> rfl

theorem firstFault_faultIf_append (p : Prop) [Decidable p] (e : ConfigError) (es : List ConfigError) :
    firstFault (faultIf p e ++ es) = if p then .error e else firstFault es := by
  unfold faultIf
  split <;> rfl

theorem Server.validate_eq (s : Server) : s.validate = firstFault s.faults := by
  rw [Server.validate, Server.faults, firstFault_faultIf_append, firstFault_faultIf]
  cases s.tls <;> simp

theorem Probe.validate_eq (index : Nat) (p : Probe) :
    p.validate index = firstFault (p.faults index) := by
  rw [Probe.validate, Probe.faults, firstFault_faultIf_append, firstFault_faultIf]
  simp [Blank.isBlank]

theorem Auth.validate_eq (a : Auth) : a.validate = firstFault a.faults :=
  (firstFault_faultIf _ _).symm

theorem Metrics.validate_eq (serverPort : UInt16) (m : Metrics) :
    m.validate serverPort = firstFault (m.faults serverPort) := by
  rw [Metrics.validate, Metrics.faults, firstFault_faultIf_append, firstFault_faultIf]
  cases m.enabled <;> simp

/-! ## The loop over the checks -/

/-- **The loop over the checks tells the first rule that one of them breaks**, whatever names are
known. -/
theorem validateChecks_fst (index : Nat) (known : List String) (ps : List Probe) :
    (validateChecks index known ps).1 = firstFault (checkFaults index ps) := by
  induction ps generalizing index known with
  | nil => rfl
  | cons p ps ih =>
    rw [checkFaults_cons, firstFault_append, ← Probe.validate_eq, ← ih _ (p.name :: known),
      validateChecks]
    cases p.validate index with
    | error e => rfl
    | ok =>
      dsimp only
      split <;> rfl

/-- The names that stand further to the front as well, or are known anyway. -/
def repeated (known names : List String) : List String :=
  (names.zipIdx.filter fun x => x.1 ∈ known ++ names.take x.2).map Prod.fst

/-- A name that stands in front of others is known to all of them. -/
theorem repeated_cons (known : List String) (name : String) (names : List String) :
    repeated known (name :: names) =
      (if name ∈ known then [name] else []) ++ repeated (name :: known) names := by
  have hrest : ((names.zipIdx 1).filter fun x => x.1 ∈ known ++ (name :: names).take x.2).map Prod.fst
      = repeated (name :: known) names := by
    rw [repeated, List.zipIdx_succ, List.filter_map, List.map_map]
    have hknown : ∀ x : String × Nat,
        x.1 ∈ known ++ name :: names.take x.2 ↔ x.1 ∈ (name :: known) ++ names.take x.2 := fun x => by
      simp [or_left_comm]
    simp only [Function.comp_def, List.take_succ_cons, hknown]
  rw [repeated, List.zipIdx_cons, List.filter_cons, ← hrest]
  by_cases h : name ∈ known <;> simp [h]

/-- The warning that a name has occurred before. -/
def duplicateWarning (name : String) : Entry := ⟨.duplicateCheckName name, []⟩

/-- **The loop over the checks warns of the names that are repeated** before the first check that
breaks a rule. -/
theorem validateChecks_snd (index : Nat) (known : List String) (ps : List Probe) :
    (validateChecks index known ps).2 =
      (repeated known ((ps.takeWhile fun p => p.Valid).map Probe.name)).map duplicateWarning := by
  induction ps generalizing index known with
  | nil => rfl
  | cons p ps ih =>
    rw [validateChecks, Probe.validate_eq]
    by_cases hp : p.Valid
    · rw [Probe.faults_eq_nil_iff.2 hp, List.takeWhile_cons_of_pos (by simpa using hp), List.map_cons,
        repeated_cons, List.map_append, ← ih (index + 1) (p.name :: known)]
      by_cases h : p.name ∈ known <;> simp [firstFault, h, duplicateWarning]
    · obtain ⟨e, es, h⟩ := List.exists_cons_of_ne_nil (mt Probe.faults_eq_nil_iff.1 hp)
      rw [h, List.takeWhile_cons_of_neg (by simpa using hp)]
      rfl

/-! ## Validation as a whole -/

/-- The checks that validation gets to see without finding fault with them: none if something is
wrong with the server already. -/
def acceptedChecks (c : Config) : List Probe :=
  if c.server.faults = [] then c.health.checks.takeWhile fun p => p.Valid else []

/-- Credentials that are not asked for break no rule. -/
theorem validate_auth (auth : Option Auth) :
    (match auth with | some a => a.validate | none => .ok ()) =
      firstFault (auth.toList.flatMap Auth.faults) := by
  cases auth with
  | none => rfl
  | some a => rw [Option.toList_some, List.flatMap_singleton, ← Auth.validate_eq]

/-- Validation tells the first rule that is broken. -/
theorem validate_fst (c : Config) : c.validate.1 = firstFault c.faults := by
  rw [validate, faults, firstFault_append, firstFault_append, firstFault_append, ← Server.validate_eq,
    ← validateChecks_fst 0 [], ← validate_auth, ← Metrics.validate_eq]
  cases c.server.validate with
  | error e => rfl
  | ok =>
    dsimp only
    cases (validateChecks 0 [] c.health.checks).1 with
    | error e => rfl
    | ok => cases c.auth <;> rfl

/-- Validation warns of the names that are repeated among the checks that it accepts. -/
theorem validate_snd (c : Config) :
    c.validate.2 = (repeated [] (c.acceptedChecks.map Probe.name)).map duplicateWarning := by
  rw [validate, Server.validate_eq, acceptedChecks]
  cases h : c.server.faults with
  | nil => exact validateChecks_snd 0 [] c.health.checks
  | cons e es => rfl

/-- Validation accepts just the valid configurations. -/
theorem validate_eq_ok_iff {c : Config} : c.validate.1 = .ok () ↔ c.Valid := by
  rw [validate_fst, firstFault_eq_ok_iff, faults_eq_nil_iff]

/-- What is set for metrics does not matter while they are off. -/
theorem validate_metrics_off (c : Config) (port port' : UInt16) (path path' : String) :
    ({ c with metrics := ⟨false, port, path⟩ } : Config).validate =
      ({ c with metrics := ⟨false, port', path'⟩ } : Config).validate := rfl

/-- **Validation accepts the valid configurations and tells the first rule that another one breaks.**
It warns of each check that bears the name of one before it, as far as it gets to see the checks, and
settings of metrics that are off do not matter. -/
theorem validate_outcome (c : Config) :
    (c.validate.1 = .ok () ↔ c.Valid)
    ∧ (∀ e, c.validate.1 = .error e ↔ c.faults.head? = some e)
    ∧ c.validate.2 = (repeated [] (c.acceptedChecks.map Probe.name)).map duplicateWarning
    ∧ ∀ (port port' : UInt16) (path path' : String),
      ({ c with metrics := ⟨false, port, path⟩ } : Config).validate =
        ({ c with metrics := ⟨false, port', path'⟩ } : Config).validate := by
  refine ⟨?_, fun e => ?_, c.validate_snd, c.validate_metrics_off⟩
  · rw [validate_fst, firstFault_eq_ok_iff, faults_eq_nil_iff]
  · rw [validate_fst, firstFault_eq_error_iff]

/-- A name that two checks without fault have in common is no reason for a warning where the server's
port is zero: validation does not get as far as the checks. -/
theorem unwarned_at_zero_port :
    let check : Probe := ⟨"a", { scheme := "http", host := some (.domain "h") }, none⟩
    let c : Config := { server := { port := 0 }, health := { checks := [check, check] } }
    check.Valid ∧ repeated [] (c.health.checks.map Probe.name) = ["a"]
      ∧ c.validate = (.error .zeroPort, [])
      ∧ c.validate.2 ≠ (repeated [] ((c.health.checks.takeWhile fun p => p.Valid).map Probe.name)).map
        duplicateWarning :=
  ⟨by decide, by decide, rfl, by decide⟩

end HealthService.Config
