import HealthService.Log.Event
import HealthService.Time.Clock

/-!
# Shutting down

A server takes requests until it is told to stop. From then on it takes no more, but those that are
being answered may go on for the shutdown timeout. The server has stopped when the last of them has been
answered; if time is up before, it gives up.

A `ServerRun` is what goes on in a server, and `ServerRun.react` says what becomes of it by an
`Occurrence`. A run that has ended does not change any more.
-/

namespace HealthService

/-- The signals that tell a process to stop. -/
inductive StopSignal where
  | interrupt
  | terminate
  deriving DecidableEq, Inhabited, Repr

/-- The name of a signal. -/
def StopSignal.name : StopSignal → String
  | .interrupt => "SIGINT"
  | .terminate => "SIGTERM"

/-- Why a server did not stop as it should. -/
inductive RunError where
  | drain (timeout : Duration)
  | task (reason : String)
  deriving DecidableEq, Repr

/-- What went wrong, and then its cause if there is more to say. -/
def RunError.chain : RunError → List String
  | .drain timeout => ["graceful shutdown did not finish within " ++ timeout.describe]
  | .task reason => ["HTTP server error", reason]

/-- A request that is being answered. -/
structure Exchange where
  id : Nat
  /-- When it will have been answered, if ever. -/
  ends : Option Time
  deriving DecidableEq, Repr

/-- What a server is doing. -/
inductive Phase where
  | serving
  /-- It has been told to stop. -/
  | draining (deadline : Time)
  | stopped (time : Time)
  | failed (time : Time) (error : RunError)
  deriving DecidableEq, Repr

/-- What goes on in a server. -/
structure ServerRun where
  now : Time := 0
  phase : Phase := .serving
  inFlight : List Exchange := []
  /-- The requests that have been answered, and when. -/
  answered : List (Nat × Time) := []
  log : List Entry := []
  deriving DecidableEq, Repr

/-- What may happen to a server. -/
inductive Occurrence where
  /-- A request comes, and it would be answered after some time, if ever. -/
  | request (id : Nat) (needs : Option Duration)
  /-- The server is told to stop. -/
  | stop
  /-- Some time passes. -/
  | pass (d : Duration)
  /-- The server cannot go on. -/
  | breakdown (reason : String)
  deriving DecidableEq, Repr

namespace ServerRun

/-- Whether an exchange has come to its end by some time. -/
def endsBy (t : Time) (e : Exchange) : Bool := e.ends.any (· ≤ t)

/-- The exchanges that come to their end by some time, in the order in which they do. -/
def ending (r : ServerRun) (t : Time) : List (Nat × Time) :=
  ((r.inFlight.filter (endsBy t)).map fun e => (e.id, e.ends.getD t)).mergeSort
    fun a b => a.2 ≤ b.2

/-- Lets exchanges come to their ends by some time. -/
def complete (r : ServerRun) (t : Time) : ServerRun :=
  { r with
    now := t
    inFlight := r.inFlight.filter fun e => !endsBy t e
    answered := r.answered ++ r.ending t }

/-- When the last of some exchanges came to its end. -/
def lastEnd (r : ServerRun) (ended : List (Nat × Time)) : Time :=
  ended.foldl (fun t e => max t e.2) r.now

/-- The run of a server that has stopped in good order. -/
def stopAt (r : ServerRun) (t : Time) : ServerRun :=
  { r with phase := .stopped t, log := r.log ++ [⟨.serverStopped, []⟩] }

/-- Goes on to some time. -/
def advance (r : ServerRun) (timeout : Duration) (t : Time) : ServerRun :=
  match r.phase with
  | .serving => r.complete t
  | .draining deadline =>
    let s := r.complete (min t deadline)
    if s.inFlight = [] then { s.stopAt (r.lastEnd (r.ending (min t deadline))) with now := t }
    else if deadline ≤ t then { s with now := t, phase := .failed deadline (.drain timeout) }
    else s
  | _ => { r with now := t }

/-- One more request is being answered. -/
def begin (r : ServerRun) (id : Nat) (needs : Option Duration) : ServerRun :=
  { r with inFlight := r.inFlight ++ [⟨id, needs.map (r.now + ·)⟩] }

/-- The server has been told to stop. -/
def drain (r : ServerRun) (timeout : Duration) : ServerRun :=
  { r with
    phase := .draining (r.now.wakeUp (r.now.sleepUntil timeout))
    log := r.log ++ [⟨.serverStopping timeout, []⟩] }

/-- What becomes of a run by what happens. -/
def react (timeout : Duration) (r : ServerRun) : Occurrence → ServerRun
  | .pass d => r.advance timeout (r.now + d)
  | .request id needs =>
    match r.phase with
    | .serving => (r.begin id needs).advance timeout r.now
    | _ => r
  | .stop =>
    match r.phase with
    | .serving => (r.drain timeout).advance timeout r.now
    | _ => r
  | .breakdown reason =>
    match r.phase with
    | .serving | .draining _ => { r with phase := .failed r.now (.task reason) }
    | _ => r

/-- What becomes of a run by all that happens. -/
def after (timeout : Duration) (r : ServerRun) (os : List Occurrence) : ServerRun :=
  os.foldl (react timeout) r

/-- When and how a run ended, if it did. -/
def result? (r : ServerRun) : Option (Time × Except RunError Unit) :=
  match r.phase with
  | .serving | .draining _ => none
  | .stopped t => some (t, .ok ())
  | .failed t e => some (t, .error e)

end ServerRun

end HealthService
