import TcpVisr.Steps
import TcpVisr.States

/-!
The tracked connections after a step, as far as their end and their last activity go.

A segment leaves every connection it does not belong to alone; the one it joins may end, and
the one it opens may have ended already. A tick removes what is evictable.
-/

namespace TcpVisr.Census

open Slots Plan Passes Lifecycle Index Steps States

/-- `Q` holds of the end and the last activity of every connection a segment leaves behind:
of those it does not belong to, of the one it joins and of the one it opens. -/
structure AfterSegment (cfg : EngineConfig) (t : Tracker) (seg : Segment)
    (Q : Bool → Nanos → Prop) : Prop where
  apart : ∀ j c, t.conns[j]? = some c → t.joins cfg seg ≠ some j → Q c.state.terminal c.lastAt
  joined : ∀ j c, t.conns[j]? = some c → t.joins cfg seg = some j →
    Q (endsTerminal c seg) (max c.lastAt seg.ts)
  opened : t.joins cfg seg = none → Q (orient seg).2.2.2.terminal seg.ts

variable {cfg : EngineConfig} {t : Tracker} {seg : Segment} {Q : Bool → Nanos → Prop}

/-- The end and the last activity of a connection are part of its lifecycle. -/
lemma forall_life (t : Tracker) (Q : Bool → Nanos → Prop) :
    (∀ c ∈ t.conns, Q c.state.terminal c.lastAt) ↔
      ∀ d ∈ t.life.conns, Q d.state.terminal d.lastAt := by
  rw [Tracker.life, List.forall_mem_map]
  rfl

lemma forall_getElem?_life (t : Tracker) (j : ℕ) (P : ConnTrack → Prop) :
    (∀ d, t.life.conns[j]? = some d → P d) ↔ ∀ c, t.conns[j]? = some c → P (core c) := by
  simp [Tracker.life]

/-- A segment, from any state. -/
theorem forall_segment_iff :
    (∀ c ∈ (t.observe cfg (.segment seg)).conns, Q c.state.terminal c.lastAt) ↔
      AfterSegment cfg t seg Q := by
  rw [forall_life, life_observe]
  cases hj : t.joins cfg seg with
  | some i =>
      rw [Life.observe_join ((joins_life t seg).trans hj)]
      dsimp only
      rw [forall_mem_modify]
      simp only [forall_getElem?_life, accounted_lastAt, terminal_accounted]
      constructor
      · rintro ⟨hi, hrest⟩
        refine ⟨fun j c hc hne => hrest j c hc (by rintro rfl; exact hne hj),
          fun j c hc hji => ?_, fun h => absurd h (by simp [hj])⟩
        obtain rfl : i = j := Option.some.inj (hj.symm.trans hji)
        exact hi c hc
      · rintro ⟨hapart, hjoined, -⟩
        exact ⟨fun c hc => hjoined i c hc hj,
          fun j c hc hji => hapart j c hc (by simpa [hj] using Ne.symm hji)⟩
  | none =>
      rw [Life.observe_open ((joins_life t seg).trans hj)]
      simp only [List.forall_mem_append, List.forall_mem_singleton, Life.opened,
        state_freshTrack, lastAt_freshTrack]
      rw [← forall_life]
      constructor
      · rintro ⟨hold, hnew⟩
        exact ⟨fun j c hc _ => hold c (List.mem_of_getElem? hc),
          fun j c _ hji => absurd hji (by simp [hj]), fun _ => hnew⟩
      · rintro ⟨hapart, -, hopened⟩
        refine ⟨fun c hc => ?_, hopened hj⟩
        obtain ⟨j, hcj⟩ := List.mem_iff_getElem?.mp hc
        exact hapart j c hcj (by simp [hj])

/-- What a tick under eviction keeps: what was there and is not evictable. -/
lemma mem_life_tick {w : Nanos} (hw : cfg.retention.window = some w) (hi : Indexed t.life)
    {at_ : Nanos} {d : ConnTrack} :
    d ∈ (t.observe cfg (.tick at_)).life.conns ↔
      ∃ c ∈ t.conns,
        c.evictable cfg ((max t.now at_).ns - w.ns) (max t.now at_) = false ∧ core c = d := by
  rw [life_observe, Life.observe_tick_evict hw, evictDead_eq (hi.clock _)]
  constructor
  · intro hd
    obtain ⟨hd, he⟩ := List.mem_filter.mp hd
    obtain ⟨c, hc, rfl⟩ := List.mem_map.mp hd
    exact ⟨c, hc, (Bool.not_eq_true' _).mp he, rfl⟩
  · rintro ⟨c, hc, he, rfl⟩
    exact List.mem_filter.mpr ⟨List.mem_map_of_mem hc, (Bool.not_eq_true' _).mpr he⟩

/-- A tick under eviction, from any state. -/
theorem forall_tick_iff {w : Nanos} (hw : cfg.retention.window = some w) (hi : Indexed t.life)
    {at_ : Nanos} :
    (∀ c ∈ (t.observe cfg (.tick at_)).conns, Q c.state.terminal c.lastAt) ↔
      ∀ c ∈ t.conns, c.evictable cfg ((max t.now at_).ns - w.ns) (max t.now at_) = false →
        Q c.state.terminal c.lastAt := by
  rw [forall_life]
  simp only [mem_life_tick hw hi]
  constructor
  · exact fun h c hc he => h (core c) ⟨c, hc, he, rfl⟩
  · rintro h d ⟨c, hc, he, rfl⟩
    exact h c hc he

end TcpVisr.Census
