import TcpVisr.Kept

/-!
The segments attributed to each instance, as a ghost beside the tracker.

A ledger runs the tracker and notes, for every identity, the segments its instance has been
given: a segment that joins an instance is added to its entries, one that opens an instance
starts them anew. What relates a connection to its entries is established when the instance
is opened and has to be carried over each segment that joins it.
-/

namespace TcpVisr

/-- A tracker, and the segments attributed to each instance so far, in order. -/
structure Ledger where
  tracker : Tracker
  entries : ConnId → List Segment

namespace Ledger

open Lib.Runs Recording Slots Plan Passes Lifecycle Index Steps Kept

def new : Ledger := ⟨Tracker.new, fun _ => []⟩

variable (cfg : EngineConfig)

/-- The ledger after an item. -/
def observe (g : Ledger) (x : Item) : Ledger where
  tracker := g.tracker.observe cfg x
  entries :=
    match x with
    | .segment seg =>
      match target cfg g.tracker seg with
      | some c => Function.update g.entries c.id (g.entries c.id ++ [seg])
      | none => Function.update g.entries (g.tracker.nextId seg.pair) [seg]
    | .tick _ => g.entries

/-- The ledger after `items`. -/
def ledger (items : List Item) : Ledger := run (observe cfg) new items

/-- `R` relates every tracked connection to the segments attributed to it. -/
def Everywhere (R : ConnTrack → List Segment → Prop) (g : Ledger) : Prop :=
  ∀ c ∈ g.tracker.conns, R c (g.entries c.id)

/-- `R` relates the connection a segment goes to, once accounted, to its entries. -/
def Attributed (R : ConnTrack → List Segment → Prop) (g : Ledger) (seg : Segment) : Prop :=
  match target cfg g.tracker seg with
  | some c => R (accounted c seg) (g.entries c.id ++ [seg])
  | none => R (freshTrack (g.tracker.nextId seg.pair) seg) [seg]

/-- `R` sees the lifecycle part of a connection only. -/
def OnCore (R : ConnTrack → List Segment → Prop) : Prop := ∀ c l, R (core c) l ↔ R c l

variable {cfg} {R : ConnTrack → List Segment → Prop} {g : Ledger} {seg : Segment} {c : ConnTrack}

instance [∀ c l, Decidable (R c l)] (g : Ledger) : Decidable (Everywhere R g) :=
  inferInstanceAs (Decidable (∀ c ∈ g.tracker.conns, R c (g.entries c.id)))

lemma tracker_ledger (items : List Item) :
    (ledger cfg items).tracker = Tracker.track cfg items := by
  induction items using List.reverseRecOn with
  | nil => rfl
  | append_singleton p x ih =>
      rw [ledger, run_snoc, Tracker.track_snoc, ← ih]
      rfl

/-! ### One item -/

lemma entries_join (h : target cfg g.tracker seg = some c) :
    (observe cfg g (.segment seg)).entries =
      Function.update g.entries c.id (g.entries c.id ++ [seg]) := by
  simp only [observe, h]

lemma entries_open (h : target cfg g.tracker seg = none) :
    (observe cfg g (.segment seg)).entries =
      Function.update g.entries (g.tracker.nextId seg.pair) [seg] := by
  simp only [observe, h]

lemma attributed_join (h : target cfg g.tracker seg = some c) :
    Attributed cfg R g seg ↔ R (accounted c seg) (g.entries c.id ++ [seg]) := by
  simp only [Attributed, h]

lemma attributed_open (h : target cfg g.tracker seg = none) :
    Attributed cfg R g seg ↔ R (freshTrack (g.tracker.nextId seg.pair) seg) [seg] := by
  simp only [Attributed, h]

lemma everywhere_life (hR : OnCore R) (g : Ledger) :
    Everywhere R g ↔ ∀ d ∈ g.tracker.life.conns, R d (g.entries d.id) := by
  rw [Tracker.life, List.forall_mem_map]
  exact forall₂_congr fun c _ => (hR c _).symm

lemma life_ledger (g : Ledger) (x : Item) :
    (observe cfg g x).tracker.life = g.tracker.life.observe cfg x :=
  life_observe cfg g.tracker x

lemma joins_none_of_target (h : target cfg g.tracker seg = none) :
    g.tracker.joins cfg seg = none := by
  cases hj : g.tracker.joins cfg seg with
  | none => rfl
  | some i =>
      obtain ⟨c, hc⟩ := joins_conns hj
      rw [target_of_joins hj hc] at h
      exact absurd h (by simp)

lemma joins_of_target (h : target cfg g.tracker seg = some c) :
    ∃ i, g.tracker.joins cfg seg = some i ∧ g.tracker.conns[i]? = some c :=
  Option.bind_eq_some_iff.mp h

lemma mem_of_target (h : target cfg g.tracker seg = some c) : c ∈ g.tracker.conns := by
  obtain ⟨i, -, hc⟩ := joins_of_target h
  exact List.mem_of_getElem? hc

/-- A segment that joins an instance. -/
lemma everywhere_join_iff (hR : OnCore R) (hi : Indexed g.tracker.life) (h : Everywhere R g)
    (ht : target cfg g.tracker seg = some c) :
    Everywhere R (observe cfg g (.segment seg)) ↔
      R (accounted c seg) (g.entries c.id ++ [seg]) := by
  obtain ⟨i, hj, hc⟩ := joins_of_target ht
  have hlc : g.tracker.life.conns[i]? = some (core c) := by simp [Tracker.life, hc]
  rw [everywhere_life hR, life_ledger, Life.observe_join ((joins_life g.tracker seg).trans hj),
    entries_join ht, ← hR, core_accounted]
  constructor
  · intro hall
    have hmem : accounted (core c) seg ∈
        g.tracker.life.conns.modify i fun c => accounted c seg :=
      List.mem_of_getElem? (i := i) (by simp [hlc])
    have := hall _ hmem
    rwa [accounted_id, show (core c).id = c.id from rfl, Function.update_self] at this
  · intro hnew d hd
    rcases mem_modify hd with ⟨d₀, hd₀, rfl⟩ | ⟨j, hji, hdj⟩
    · obtain rfl := Option.some.inj (hlc.symm.trans hd₀)
      rw [accounted_id, show (core c).id = c.id from rfl, Function.update_self]
      exact hnew
    · obtain ⟨e, he, rfl⟩ : ∃ e, g.tracker.conns[j]? = some e ∧ core e = d := by
        simpa [Tracker.life] using hdj
      have hne : e.id ≠ c.id := fun heq => hji (id_inj hi he hc heq)
      rw [show (core e).id = e.id from rfl, Function.update_of_ne hne, hR]
      exact h e (List.mem_of_getElem? he)

/-- A segment that opens an instance. -/
lemma everywhere_open_iff (hR : OnCore R) (hi : Indexed g.tracker.life) (h : Everywhere R g)
    (ht : target cfg g.tracker seg = none) :
    Everywhere R (observe cfg g (.segment seg)) ↔
      R (freshTrack (g.tracker.nextId seg.pair) seg) [seg] := by
  have hj := joins_none_of_target ht
  have hopened : g.tracker.life.opened seg = freshTrack (g.tracker.nextId seg.pair) seg := rfl
  rw [everywhere_life hR, life_ledger, Life.observe_open ((joins_life g.tracker seg).trans hj),
    entries_open ht]
  simp only [List.forall_mem_append, List.forall_mem_singleton, hopened, id_freshTrack,
    Function.update_self, and_iff_right_iff_imp]
  intro _ d hd
  obtain ⟨e, he, rfl⟩ := List.mem_map.mp hd
  have hne := nextId_ne hi he seg.pair
  rw [show (core e).id = e.id from rfl, Function.update_of_ne (Ne.symm hne), hR]
  exact h e he

/-- A tick attributes nothing. -/
lemma everywhere_tick (hR : OnCore R) (hi : Indexed g.tracker.life) (h : Everywhere R g)
    (at_ : Nanos) : Everywhere R (observe cfg g (.tick at_)) := by
  rw [everywhere_life hR] at h ⊢
  rw [life_ledger]
  cases hw : cfg.retention.window with
  | none => rw [Life.observe_tick_failFast hw]; exact h
  | some w =>
      rw [Life.observe_tick_evict hw, evictDead_eq (hi.clock _)]
      exact fun d hd => h d (List.mem_of_mem_filter hd)

/-- **One segment.** Where `R` held, it holds again exactly if it does of the connection the
segment goes to. -/
theorem everywhere_segment_iff (hR : OnCore R) (hi : Indexed g.tracker.life)
    (h : Everywhere R g) :
    Everywhere R (observe cfg g (.segment seg)) ↔ Attributed cfg R g seg := by
  cases ht : target cfg g.tracker seg with
  | some c => rw [everywhere_join_iff hR hi h ht, attributed_join ht]
  | none => rw [everywhere_open_iff hR hi h ht, attributed_open ht]

/-! ### Runs -/

lemma indexed_ledger (cfg : EngineConfig) (items : List Item) :
    Indexed (ledger cfg items).tracker.life := by
  rw [tracker_ledger]
  exact indexed_track cfg items

/-- **The rule for entries.** What holds of a fresh instance and its one segment, and is carried
over each segment that joins, holds of every tracked connection of every run. -/
theorem everywhere_ledger (hR : OnCore R) (hfresh : ∀ id seg, R (freshTrack id seg) [seg])
    (hjoin : ∀ c l seg, R c l → R (accounted c seg) (l ++ [seg])) (items : List Item) :
    Everywhere R (ledger cfg items) := by
  induction items using List.reverseRecOn with
  | nil => simp [Everywhere, ledger, new, Tracker.new]
  | append_singleton p x ih =>
      have hi := indexed_ledger cfg p
      rw [ledger, run_snoc]
      cases x with
      | segment seg =>
          refine (everywhere_segment_iff hR hi ih).mpr ?_
          cases ht : target cfg (ledger cfg p).tracker seg with
          | some c => exact (attributed_join ht).mpr (hjoin c _ seg (ih c (mem_of_target ht)))
          | none => exact (attributed_open ht).mpr (hfresh _ seg)
      | tick at_ => exact everywhere_tick hR hi ih at_

/-- **Exactness for entries.** If, wherever `R` holds, a segment meets `G` exactly if `R` holds
of the connection it goes to, then `R` holds throughout a run exactly if all its segments
meet `G`. -/
theorem always_everywhere_iff (hR : OnCore R) {I : Ledger → Prop}
    (hI : ∀ p, I (ledger cfg p)) {G : Ledger → Item → Prop} (htick : ∀ g at_, G g (.tick at_))
    (hseg : ∀ g seg, I g → Everywhere R g → (Attributed cfg R g seg ↔ G g (.segment seg)))
    (items : List Item) :
    Always (observe cfg) new (Everywhere R) items ↔ Steps (observe cfg) new G items := by
  refine always_iff_steps (I := fun g => I g ∧ Indexed g.tracker.life)
    (fun p => ⟨hI p, indexed_ledger cfg p⟩) (by simp [Everywhere, new, Tracker.new]) ?_ items
  rintro g x ⟨hg, hi⟩ h
  cases x with
  | segment seg => rw [everywhere_segment_iff hR hi h, hseg g seg hg h]
  | tick at_ => exact iff_of_true (everywhere_tick hR hi h at_) (htick g at_)

end Ledger

end TcpVisr
