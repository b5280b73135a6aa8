import TcpVisr.Core

/-!
Connection identity, the observed lifecycle, and the engine's configuration.
-/

namespace TcpVisr

/-- The lifecycle point an instance has reached, as observed from the wire. -/
inductive ConnState
  | synSent | synReceived | established | finWait | closed | reset
  deriving DecidableEq

namespace ConnState

/-- Rank along the graceful path; `reset` is a terminal override outside it. -/
def rank : ConnState → ℕ
  | .synSent => 0
  | .synReceived => 1
  | .established => 2
  | .finWait => 3
  | .closed => 4
  | .reset => 5

/-- Advance to `next` only if that does not move backward. -/
def advanceTo (self next : ConnState) : ConnState :=
  if self.rank < next.rank then next else self

/-- `matches!(state, Closed | Reset)`. -/
def terminal : ConnState → Bool
  | .closed | .reset => true
  | _ => false

lemma rank_advanceTo (s n : ConnState) : (s.advanceTo n).rank = max s.rank n.rank := by
  unfold advanceTo
  split <;> omega

end ConnState

/-- The two endpoints of a connection in canonical order. -/
structure EndpointPair where
  low : Endpoint
  high : Endpoint
  deriving DecidableEq

/-- Orders the two endpoints so both wire directions map to the same pair. -/
def EndpointPair.new (a b : Endpoint) : EndpointPair := if a.le b then ⟨a, b⟩ else ⟨b, a⟩

lemma EndpointPair.new_comm (a b : Endpoint) : EndpointPair.new a b = EndpointPair.new b a := by
  unfold EndpointPair.new Endpoint.le
  rcases lt_trichotomy a.key b.key with h | h | h
  · simp [h.le, h.not_ge]
  · rw [Endpoint.key_inj h]
  · simp [h.le, h.not_ge]

lemma EndpointPair.new_cases (a b : Endpoint) :
    EndpointPair.new a b = ⟨a, b⟩ ∨ EndpointPair.new a b = ⟨b, a⟩ := by
  unfold EndpointPair.new
  split
  · exact Or.inl rfl
  · exact Or.inr rfl

/-- The two endpoints of a pair are the endpoints it was made from, one way or the other. -/
lemma EndpointPair.endpoints_of_new_eq {a b c d : Endpoint}
    (h : EndpointPair.new a b = EndpointPair.new c d) : a = c ∧ b = d ∨ a = d ∧ b = c := by
  rcases new_cases a b with h1 | h1 <;> rcases new_cases c d with h2 | h2 <;>
    rw [h1, h2, EndpointPair.mk.injEq] at h
  · exact Or.inl h
  · exact Or.inr h
  · exact Or.inr ⟨h.2, h.1⟩
  · exact Or.inl ⟨h.2, h.1⟩

/-- Instance-aware identity. The instance is a `u32`; a run is assumed to give one pair
fewer than `2 ^ 32` instances. -/
structure ConnId where
  pair : EndpointPair
  inst : ℕ
  deriving DecidableEq

/-- Direction relative to the chosen orientation. -/
inductive Direction
  | originToResponder | responderToOrigin
  deriving DecidableEq

namespace Direction

/-- `dir_opposite`. -/
def opposite : Direction → Direction
  | originToResponder => responderToOrigin
  | responderToOrigin => originToResponder

/-- `dir_sample`. -/
def sample : Direction → SampleDir
  | originToResponder => .originToResponder
  | responderToOrigin => .responderToOrigin

/-- What holds of a direction and of its opposite holds of both. -/
lemma forall_iff (e : Direction) {P : Direction → Prop} : (∀ d, P d) ↔ P e ∧ P e.opposite := by
  refine ⟨fun h => ⟨h e, h e.opposite⟩, fun ⟨he, ho⟩ d => ?_⟩
  cases e <;> cases d <;> assumption

/-- `for d in [OriginToResponder, ResponderToOrigin]`. -/
def both : List Direction := [originToResponder, responderToOrigin]

end Direction

namespace SampleDir

/-- `sdir_opposite`. -/
def opposite : SampleDir → SampleDir
  | originToResponder => responderToOrigin
  | responderToOrigin => originToResponder

/-- `sdir_index`: the slot of a per-direction array. -/
def index : SampleDir → Direction
  | originToResponder => .originToResponder
  | responderToOrigin => .responderToOrigin

end SampleDir

/-- A `[T; 2]` indexed by direction. -/
structure PerDir (α : Type) where
  o2r : α
  r2o : α
  deriving DecidableEq

namespace PerDir

variable {α β : Type}

def get (p : PerDir α) : Direction → α
  | .originToResponder => p.o2r
  | .responderToOrigin => p.r2o

def set (p : PerDir α) (d : Direction) (x : α) : PerDir α :=
  match d with
  | .originToResponder => { p with o2r := x }
  | .responderToOrigin => { p with r2o := x }

@[simp] lemma get_set_self (p : PerDir α) (d : Direction) (x : α) : (p.set d x).get d = x := by
  cases d <;> rfl

@[simp] lemma get_opposite_set (p : PerDir α) (d : Direction) (x : α) :
    (p.set d x).get d.opposite = p.get d.opposite := by
  cases d <;> rfl

@[simp] lemma get_set_opposite (p : PerDir α) (d : Direction) (x : α) :
    (p.set d.opposite x).get d = p.get d := by
  cases d <;> rfl

lemma get_set_of_ne (p : PerDir α) {d e : Direction} (h : d ≠ e) (x : α) :
    (p.set e x).get d = p.get d := by
  cases d <;> cases e <;> first | rfl | exact absurd rfl h

end PerDir

/-- A tracked instance, as reported. Byte and segment totals are `u64` counters. -/
structure Connection where
  id : ConnId
  state : ConnState
  origin : Endpoint
  responder : Endpoint
  originInferred : Bool
  openedAt : Nanos
  lastAt : Nanos
  bytesO2r : ℕ
  bytesR2o : ℕ
  segments : ℕ
  deriving DecidableEq

/-- How the tracker bounds retained samples. -/
inductive RetentionPolicy
  | failFast (maxSamples : ℕ)
  | evict (window : Nanos) (maxSamples : ℕ)
  deriving DecidableEq

namespace RetentionPolicy

/-- The sample ceiling, or the memory backstop. -/
def maxSamples : RetentionPolicy → ℕ
  | failFast m => m
  | evict _ m => m

/-- The eviction window, or `none` under fail-fast. -/
def window : RetentionPolicy → Option Nanos
  | failFast _ => none
  | evict w _ => some w

end RetentionPolicy

/-- Which instances buffer a metric series. -/
inductive SeriesCollection
  | none
  | all
  | only (target : ConnId)
  deriving DecidableEq

/-- Tracker and derivation knobs. -/
structure EngineConfig where
  deadAfter : Nanos := Nanos.sat 120000000000
  resetThreshold : BitVec 32 := 1#32 <<< 30
  seriesCollection : SeriesCollection := .none
  throughputWindow : Nanos := Nanos.sat 1000000000
  reorderWindow : Nanos := Nanos.sat 3000000
  retention : RetentionPolicy := .failFast 10000000
  collectStateTimeline : Bool := false
  collectSeqTimeline : Bool := false
  collectInflightTimeline : Bool := false
  collectRttTimeline : Bool := false
  collectThroughputTimeline : Bool := false
  deriving DecidableEq

/-- Whether the instance with `id` buffers a metric series. -/
def EngineConfig.shouldCollect (cfg : EngineConfig) (id : ConnId) : Bool :=
  match cfg.seriesCollection with
  | .none => false
  | .all => true
  | .only target => target = id

end TcpVisr
