import HealthService.Launch
import HealthService.Metrics.Serving
import HealthService.Proofs.Config.Validity
import Mathlib.Data.List.TakeWhile

/-!
# Where metrics are to be had

Validation looks at the first character of the path of metrics, and the server compares it with the path of
a target.  No target has a path with a query or a fragment, so the two do not agree on every text.

* `Target.path_eq_self_iff`, `Target.exists_path_eq_iff` — a text with a slash at its head is the path of
  itself, or of any target, just if nothing in it begins a query or a fragment.
* `serves_metrics` — **what is answered where a valid configuration asks for metrics**: the metrics on
  targets with its path, and not found on all others.  They can be had just if the path is plain.
* `hides_metrics` — a path with a query is accepted and announced, and answers nobody.
-/

namespace HealthService

/-! ## Targets and their paths -/

namespace Target

/-- Nothing in a text begins a query or a fragment. -/
def Plain (s : String) : Prop := ∀ c ∈ s.toList, c ≠ '?' ∧ c ≠ '#'

instance (s : String) : Decidable (Plain s) := List.decidableBAll (fun c => c ≠ '?' ∧ c ≠ '#') s.toList

theorem plain_beforeQuery (s : List Char) : Plain (String.ofList (beforeQuery s)) := by
  intro c hc
  rw [String.toList_ofList] at hc
  simpa using List.mem_takeWhile_imp hc

theorem plain_cons {c : Char} {s : List Char} (hc : c ≠ '?' ∧ c ≠ '#') (hs : Plain (String.ofList s)) :
    Plain (String.ofList (c :: s)) := by
  rw [Plain, String.toList_ofList] at hs ⊢
  exact List.forall_mem_cons.2 ⟨hc, hs⟩

/-- The path of a target is plain, whatever the target. -/
theorem plain_path (target : String) : Plain (path target) := by
  unfold path
  split
  · decide
  · exact plain_cons (by decide) (plain_beforeQuery _)
  · decide
  · split
    · decide
    · dsimp only
      split
      · decide
      · exact plain_beforeQuery _

/-- **A text with a slash at its head is its own path just if it is plain.** -/
theorem path_eq_self_iff {s : String} (h : s.toList.head? = some '/') : path s = s ↔ Plain s := by
  constructor
  · intro hpath
    rw [← hpath]
    exact plain_path s
  · intro hplain
    obtain ⟨rest, hrest⟩ := List.head?_eq_some_iff.1 h
    have hquery : beforeQuery rest = rest := by
      refine List.takeWhile_eq_self_iff.2 fun c hc => ?_
      simpa using hplain c (hrest ▸ List.mem_cons_of_mem _ hc)
    have hpath : path s = String.ofList ('/' :: beforeQuery rest) := by
      unfold path
      rw [hrest]
      rfl
    rw [hpath, hquery, ← hrest, String.ofList_toList]

/-- Some target has it as its path just if it is plain. -/
theorem exists_path_eq_iff {s : String} (h : s.toList.head? = some '/') :
    (∃ target, path target = s) ↔ Plain s := by
  constructor
  · rintro ⟨target, rfl⟩
    exact plain_path target
  · exact fun hplain => ⟨s, (path_eq_self_iff h).2 hplain⟩

end Target

/-! ## Answers -/

/-- A response that shows all metrics. -/
structure Response.Exposes (x : Response) (m : Metrics) : Prop where
  status : x.status = 200
  content_type : x.headers.values "content-type" = [Utf8.ofString "text/plain; version=0.0.4"]
  body : x.body = Utf8.ofString m.expose

namespace Metrics

variable (m : Metrics) {path target : String}

theorem status_respond_of_ne (h : Target.path target ≠ path) : (m.respond path target).status = 404 := by
  rw [respond, if_neg h]

/-- **The metrics are shown just on the targets that have the path.** -/
theorem exposes_respond_iff : (m.respond path target).Exposes m ↔ Target.path target = path := by
  constructor
  · intro h
    refine Decidable.of_not_not fun hne => ?_
    cases (m.status_respond_of_ne hne).symm.trans h.status
  · intro h
    rw [respond, if_pos h]
    exact ⟨rfl, rfl, rfl⟩

end Metrics

namespace Config

/-- **What is answered where a valid configuration asks for metrics**, whatever the method and whatever
has been counted.

* They are to be had at a port of their own of the server's host, on every target that has the path of
  the configuration; on all other targets nothing is found.
* The path itself, taken as a target, shows them just if nothing in it begins a query or a fragment; and
  if it does not, then no target does.

Only texts that are targets come to be answered at all. -/
theorem serves_metrics {c : Config} (hvalid : c.validate.1 = .ok ()) (henabled : c.metrics.enabled = true) :
    ∃ place, c.metricsPlace = some place ∧ place.path = c.metrics.path ∧
      place.address = ⟨c.server.host, c.metrics.port⟩ ∧ place.address ≠ c.server.address ∧
      ∀ m : HealthService.Metrics,
        (∀ target, Target.path target = place.path → (m.respond place.path target).Exposes m) ∧
        (∀ target, Target.path target ≠ place.path → (m.respond place.path target).status = 404) ∧
        ((m.respond place.path place.path).Exposes m ↔ Target.Plain place.path) ∧
        ((∃ target, (m.respond place.path target).Exposes m) ↔ Target.Plain place.path) := by
  obtain ⟨hslash, -, hport⟩ := (validate_eq_ok_iff.1 hvalid).metrics henabled
  refine ⟨_, if_pos henabled, rfl, rfl, fun h => hport (congrArg Endpoint.port h), fun m => ?_⟩
  simp only [m.exposes_respond_iff]
  exact ⟨fun target h => h, fun target => m.status_respond_of_ne, Target.path_eq_self_iff hslash,
    Target.exists_path_eq_iff hslash⟩

/-- A path of several parts is served, and so is a query on it. -/
theorem serves_metrics_below :
    let c : Config := { metrics := { enabled := true, path := "/internal/metrics" } }
    ∃ place, c.metricsPlace = some place ∧ ∀ m : HealthService.Metrics,
      (m.respond place.path "/internal/metrics").Exposes m ∧
      (m.respond place.path "/internal/metrics?format=text").Exposes m ∧
      (m.respond place.path "/metrics").status = 404 := by
  intro c
  obtain ⟨place, hplace, hpath, -, -, hserves⟩ := @serves_metrics c (by decide) rfl
  refine ⟨place, hplace, fun m => ?_⟩
  obtain ⟨hshown, hunknown, hself, -⟩ := hserves m
  rw [hpath] at hshown hunknown hself ⊢
  exact ⟨hself.2 (by decide), hshown _ (by decide), hunknown _ (by decide)⟩

/-- **A path with a query is accepted and announced, but nobody is answered**: neither this path as a target
nor any other target shows the metrics. -/
theorem hides_metrics :
    let path := "/metrics?format=text"
    let c : Config := { metrics := { enabled := true, path := path } }
    c.validate = (.ok (), []) ∧
      c.metricsPlace = some ⟨⟨.v4 0 0 0 0, 9090⟩, path⟩ ∧
      (∀ s self check, s.refusal ⟨.v4 0 0 0 0, 9090⟩ = none → (c.bringUp s self check).1.head? =
        some ⟨.metricsListening "0.0.0.0:9090" path, []⟩) ∧
      Target.path path = "/metrics" ∧
      ∀ (m : HealthService.Metrics) target, (m.respond path target).status = 404 := by
  intro path c
  have hplace : c.metricsPlace = some ⟨⟨.v4 0 0 0 0, 9090⟩, path⟩ := rfl
  refine ⟨by decide, hplace, fun s self check hfree => ?_, by decide, fun m target => ?_⟩
  · have hprint : Endpoint.print ⟨.v4 0 0 0 0, 9090⟩ = "0.0.0.0:9090" := by decide
    simp only [bringUp, hplace, hfree]
    rw [List.head?_cons, hprint]
  · -- the path of a target is plain, and this one has a question mark
    refine m.status_respond_of_ne fun hpath => ?_
    have hplain : Target.Plain path := hpath ▸ Target.plain_path target
    exact absurd hplain (by decide)

end Config
end HealthService
