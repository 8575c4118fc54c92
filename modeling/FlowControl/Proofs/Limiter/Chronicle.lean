import FlowControl.Proofs.Limiter.SweepTimes
import FlowControl.Scenario.LimitScene

/-!
# Visits to a registry

In a single thread limiters are looked up, and takes are made on those just looked up, while
time passes in between and during the takes.  What is noted of such a visit is when it began
and when it ended; this tells when the key of the visit was last accessed, and whether the
limiter that was there before had been removed.

A moment is any point of such a history: between two acts, at any instant of a take, and
before or after a sweep that comes at that instant.
-/

namespace FlowControl.Scenario

variable {α : Type} {period : Nat} {key : LimiterKey}

/-! ## Visits -/

/-- A lookup of a key, or a lookup and a take on the limiter it gives: how long the key's limiter
may be idle if it is made now, when the visit began, whether the sweep of that instant had been
let go on, and when the visit ended. -/
structure Visit where
  key : LimiterKey
  patience : Nat
  start : Nat
  swept : Bool
  finish : Nat

/-- How long the limiter of a key may be idle and when it was last accessed, as the visits tell,
the last of them first.  A limiter whose sweep is not ahead any more when a visit begins is made
anew by it. -/
def stayOf (period : Nat) : List Visit → LimiterKey → Option Stay
  | [], _ => none
  | v :: older, key =>
    if v.key = key then
      some (.renewed (stayOf period older key)
        (fun stay => decide (Ahead (stay.due period) v.start v.swept)) v.patience v.finish)
    else stayOf period older key

theorem stayOf_cons_self (period : Nat) (v : Visit) (older : List Visit) :
    stayOf period (v :: older) v.key =
      some (.renewed (stayOf period older v.key)
        (fun stay => decide (Ahead (stay.due period) v.start v.swept)) v.patience v.finish) := by
  rw [stayOf, if_pos rfl]

theorem stayOf_cons_of_ne (period : Nat) (v : Visit) (older : List Visit) (hne : key ≠ v.key) :
    stayOf period (v :: older) key = stayOf period older key := by
  rw [stayOf, if_neg hne.symm]

/-! ## Acts -/

/-- What one does in a single thread with a registry that sweeps: lookups, takes on limiters just
looked up, waiting, and letting others go on.  The rest of the world may change meanwhile, such
as the store and the time it takes to answer. -/
inductive Act (α : Type) where
  | lookup (name : String) (key : LimiterKey) (config : LimiterConfig)
  | take (name : String) (key : LimiterKey) (config : LimiterConfig) (n : UInt64)
  | sleep (millis : Nat)
  | letGo
  | elsewhere (change : LimitWorld α → LimitWorld α)
      (unseen : ∀ w, (change w).registry = w.registry)

/-- A scene, whether the sweep of its instant has been let go on, and the visits so far. -/
structure Chronicle (α : Type) where
  scene : LimitScene α
  swept : Bool
  visits : List Visit

namespace Chronicle

/-- A scene without visits. -/
def start (scene : LimitScene α) : Chronicle α := ⟨scene, false, []⟩

/-- Has the sweep of an instant been let go on, if only time has passed until then? -/
def sweptAt (c : Chronicle α) (now : Nat) : Bool := c.swept && now == c.scene.now

/-- A visit that begins now. -/
def visit (c : Chronicle α) (key : LimiterKey) (config : LimiterConfig) (finish : Nat) : Visit :=
  ⟨key, config.intervalMillis.toNat, c.scene.now, c.swept, finish⟩

/-- A scene after a visit that began now. -/
def visited (c : Chronicle α) (key : LimiterKey) (config : LimiterConfig) (scene : LimitScene α) :
    Chronicle α :=
  ⟨scene, c.sweptAt scene.now, c.visit key config scene.now :: c.visits⟩

/-- A limiter is looked up for a take: the take, and the timeline in which it begins. -/
def taking (c : Chronicle α) (name : String) (key : LimiterKey) (config : LimiterConfig)
    (n : UInt64) :
    Gate.Program α (Except LimitError Unit) × Timeline (Gate.interface α) (LimitWorld α) :=
  let (h, scene) := c.scene.getOrCreate name key config
  let (token, scene) := scene.freshToken
  (Gate.ofRegistry (h.take token n), scene.timeline)

/-- A scene after one act more. -/
def play (c : Chronicle α) : Act α → Chronicle α
  | .lookup name key config => c.visited key config (c.scene.getOrCreate name key config).2
  | .take name key config n =>
    let (h, scene) := c.scene.getOrCreate name key config
    c.visited key config (scene.take h n).2
  | .sleep millis =>
    let scene := c.scene.sleep millis
    { c with scene, swept := c.sweptAt scene.now }
  | .letGo => { c with scene := c.scene.background, swept := true }
  | .elsewhere change _ => { c with scene := c.scene.onWorld change }

/-- A scene after some acts. -/
def playAll (c : Chronicle α) (acts : List (Act α)) : Chronicle α := acts.foldl play c

/-- A scene whose sweeps were stopped. -/
def stopped (c : Chronicle α) : Chronicle α := { c with scene := c.scene.stopSweeps }

theorem sweptAt_now (c : Chronicle α) : c.sweptAt c.scene.now = c.swept := by
  simp [sweptAt]

/-- A take in a history ends as the take does that is begun there. -/
theorem timeline_play_take (c : Chronicle α) (name : String) (key : LimiterKey)
    (config : LimiterConfig) (n : UInt64) :
    (c.play (.take name key config n)).scene.timeline =
      ((c.taking name key config n).2.run c.scene.surroundings
        (c.taking name key config n).1).2 := rfl

/-- When a visit ended is all that changes of what it tells. -/
theorem stayOf_visit (c : Chronicle α) (key : LimiterKey) (config : LimiterConfig)
    (finish finish' : Nat) :
    stayOf period (c.visit key config finish :: c.visits) key =
      (stayOf period (c.visit key config finish' :: c.visits) key).map
        fun stay => ⟨stay.patience, finish⟩ := by
  have hself := stayOf_cons_self period (c.visit key config finish') c.visits
  rw [show stayOf period (c.visit key config finish' :: c.visits) key = _ from hself]
  exact stayOf_cons_self period (c.visit key config finish) c.visits

/-- A visit tells nothing of other keys. -/
theorem stayOf_visit_of_ne {other : LimiterKey} (c : Chronicle α) (config : LimiterConfig)
    (finish : Nat) (hne : other ≠ key) :
    stayOf period (c.visit key config finish :: c.visits) other =
      stayOf period c.visits other :=
  stayOf_cons_of_ne period (c.visit key config finish) c.visits hne

end Chronicle

/-! ## Moments -/

/-- A timeline at some moment, whether the sweep of its instant has been let go on, and the visits
so far; the limiter of a take that runs was looked up already. -/
structure Moment (α : Type) where
  timeline : Timeline (Gate.interface α) (LimitWorld α)
  swept : Bool
  visits : List Visit
  busy : Option LimiterKey

/-- Everything in the background goes on that is due at the moment. -/
def Moment.settled (S : Surroundings (Gate.interface α) (LimitWorld α)) (m : Moment α) : Moment α :=
  { m with timeline := m.timeline.settle S, swept := true }

/-- The moments that come in a history: between two acts, while a take runs, and when the sweep
of such an instant has been let go on. -/
inductive Chronicle.Reaches : Chronicle α → Moment α → Prop where
  | between (c : Chronicle α) : Reaches c ⟨c.scene.timeline, c.swept, c.visits, none⟩
  | during {c : Chronicle α} {name : String} {key : LimiterKey} {config : LimiterConfig}
      {n : UInt64} {met : Timeline (Gate.interface α) (LimitWorld α)}
      (hmeets : Timeline.Meets c.scene.surroundings (c.taking name key config n).1
        (c.taking name key config n).2 met) :
      Reaches c ⟨met, c.sweptAt met.now, c.visit key config c.scene.now :: c.visits, some key⟩
  | settled {c : Chronicle α} {m : Moment α} (hreaches : Reaches c m) :
      Reaches c (m.settled c.scene.surroundings)
  | later {c : Chronicle α} {m : Moment α} (act : Act α) (hreaches : Reaches (c.play act) m) :
      Reaches c m

end FlowControl.Scenario
