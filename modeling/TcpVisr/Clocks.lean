import TcpVisr.Capture
import TcpVisr.Translation

/-!
The first clock of a live session.

A session that is silent at first times out before its first packet comes, and the host clock it
reads then is the baseline of all its times; a file starts from its first packet. What the
capture loop makes of the same packets then lies later by the time between the two, and is
otherwise the same: the connections, the names, and the skips.
-/

namespace TcpVisr

open Lib.Runs Later Recording

def Connection.later (k : ℕ) (c : Connection) : Connection :=
  { c with openedAt := c.openedAt.later k, lastAt := c.lastAt.later k }

def NameObservation.later (k : ℕ) (obs : NameObservation) : NameObservation :=
  { obs with ts := obs.ts.later k }

def NameTable.later (k : ℕ) (t : NameTable) : NameTable :=
  { t with byIp := t.byIp.map fun e => (e.1, e.2.1.later k, e.2.2) }

lemma Nanos.later_zero (a : Nanos) : a.later 0 = a :=
  Nanos.ext (min_eq_left a.le_max)

/-- A difference moved is the difference from an earlier time, also at the end of the range. -/
lemma Nanos.sat_sub_later {a b k : ℕ} (h : b + k ≤ a) :
    (Nanos.sat (a - (b + k))).later k = Nanos.sat (a - b) := by
  ext
  change min (min (a - (b + k)) u64Max + k) u64Max = min (a - b) u64Max
  omega

/-! ### Names -/

namespace NameTable

variable {t : NameTable} {obs : NameObservation} {b k : ℕ}

lemma get_later (t : NameTable) (ip : IpAddr) :
    (t.later k).get ip = (t.get ip).map fun e => (e.1.later k, e.2) := by
  unfold get
  change ((t.byIp.map _).find? _).map _ = _
  rw [List.find?_map, Option.map_map, Option.map_map]
  rfl

/-- The names themselves do not move. -/
lemma resolve_later (t : NameTable) (ip : IpAddr) : (t.later k).resolve ip = t.resolve ip := by
  unfold resolve
  rw [get_later, Option.map_map]
  rfl

lemma observe_later (hb : b + k ≤ u64Max) (ht : ∀ e ∈ t.byIp, e.2.1.ns ≤ b) (ho : obs.ts.ns ≤ b) :
    (t.later k).observe (obs.later k) = (t.observe obs).later k := by
  have hlen : (t.later k).byIp.length = t.byIp.length := List.length_map _
  have hsame : (t.later k).get (obs.later k).ip = (t.get obs.ip).map fun e => (e.1.later k, e.2) :=
    get_later t obs.ip
  unfold observe
  rw [hsame, hlen]
  cases hget : t.get obs.ip with
  | none =>
      simp only [Option.map_none]
      split
      · rfl
      · simp [later, NameObservation.later]
  | some slot =>
      have hslot : slot.1.ns ≤ b := by
        obtain ⟨e, he, rfl⟩ := Option.map_eq_some_iff.mp hget
        exact ht e (List.mem_of_find?_eq_some he)
      have hle : (slot.1.later k).ns ≤ (obs.later k).ts.ns ↔ slot.1.ns ≤ obs.ts.ns := by
        change _ ≤ (obs.ts.later k).ns ↔ _
        rw [ns_later hb hslot, ns_later hb ho]
        omega
      simp only [Option.map_some, hle]
      split
      · simp only [later, List.map_map, Function.comp_def]
        congr 1
        refine List.map_congr_left fun e _ => ?_
        change (if e.1 = obs.ip then _ else _) = _
        by_cases hip : e.1 = obs.ip
        · rw [if_pos hip, if_pos hip]
          rfl
        · rw [if_neg hip, if_neg hip]
      · rfl

lemma until_observe (ht : ∀ e ∈ t.byIp, e.2.1.ns ≤ b) (ho : obs.ts.ns ≤ b) :
    ∀ e ∈ (t.observe obs).byIp, e.2.1.ns ≤ b := by
  unfold observe
  split
  · split
    · intro e he
      obtain ⟨e', he', rfl⟩ := List.mem_map.mp he
      split
      · exact ho
      · exact ht e' he'
    · exact ht
  · split
    · exact ht
    · intro e he
      rcases List.mem_append.mp he with he | he
      · exact ht e he
      · rw [List.mem_singleton.mp he]
        exact ho

/-- Names observed later make the same table, later. -/
lemma foldl_later (hb : b + k ≤ u64Max) {names : List NameObservation}
    (h : ∀ obs ∈ names, obs.ts.ns ≤ b) :
    (names.map (NameObservation.later k)).foldl observe {} = (names.foldl observe {}).later k ∧
      ∀ e ∈ (names.foldl observe {}).byIp, e.2.1.ns ≤ b := by
  induction names using List.reverseRecOn with
  | nil => exact ⟨rfl, by simp⟩
  | append_singleton names obs ih =>
      have ho : obs.ts.ns ≤ b := h obs (by simp)
      obtain ⟨hsame, hle⟩ := ih fun o ho => h o (List.mem_append_left _ ho)
      rw [List.map_append, List.map_singleton, List.foldl_append, List.foldl_append, hsame]
      exact ⟨observe_later hb hle ho, until_observe hle ho⟩

end NameTable

/-! ### Connections -/

/-- The connections that a tracker without a window makes of later segments. -/
lemma views_later {cfg : EngineConfig} {b k : ℕ} (hb : b + k ≤ u64Max) {items : List Item}
    (h : ∀ x ∈ items, x.ts.ns ≤ b) :
    (Tracker.track cfg (items.map (Item.later k))).conns.map ConnTrack.view =
      ((Tracker.track cfg items).conns.map ConnTrack.view).map (Connection.later k) := by
  obtain ⟨n, hn⟩ := Translation.moved_track cfg hb h
  rw [hn.track, List.map_map]
  change ((Tracker.track cfg items).conns.map (ConnTrack.later k)).map ConnTrack.view = _
  rw [List.map_map]
  rfl

namespace LiveCapture

variable {build : Build} {lib : Etherparse} {cap : LiveCapture} {p : Libpcap.Packet} {b k : ℕ}
  {t t' u' : Libpcap.Taking}

/-! ### The loop from an earlier clock -/

/-- `t` has taken what `t'` has, from a baseline `k` earlier, and all of it is in the range of the
clock. -/
structure Behind (b k : ℕ) (t t' : Libpcap.Taking) : Prop where
  items : t.items = t'.items.map (Item.later k)
  names : t.names = t'.names.map (NameObservation.later k)
  skipped : t.skipped = t'.skipped
  early : t.baseline = some b
  late : t'.baseline = some (b + k)
  itemsFit : ∀ x ∈ t'.items, x.ts.ns + k ≤ u64Max
  namesFit : ∀ obs ∈ t'.names, obs.ts.ns + k ≤ u64Max

/-- One packet, stamped after the later baseline. -/
lemma Behind.take (lib : Etherparse) (h : Behind b k t t') {absNs : ℕ}
    (hns : cap.absNs build p = some absNs) (hlate : b + k ≤ absNs) (hfit : absNs ≤ u64Max)
    (hu' : LiveCapture.take build lib cap t' p = some u') :
    ∃ u, LiveCapture.take build lib cap t p = some u ∧ Behind b k u u' := by
  obtain ⟨hitems, hnames, hskipped, hearly, hbase, hif, hnf⟩ := h
  have hts : t.relativeTs absNs = (t'.relativeTs absNs).later k := by
    unfold Libpcap.Taking.relativeTs
    rw [hearly, hbase, Option.getD_some, Option.getD_some, Nanos.sat_sub_later hlate]
  have hroom : (t'.relativeTs absNs).ns + k ≤ u64Max := by
    unfold Libpcap.Taking.relativeTs
    rw [hbase, Option.getD_some]
    change min (absNs - (b + k)) u64Max + k ≤ u64Max
    omega
  unfold LiveCapture.take at hu' ⊢
  rw [hns, Option.bind_eq_bind, Option.bind_some] at hu' ⊢
  simp only [hearly, hbase, Option.getD_some] at hu' ⊢
  obtain rfl := Option.some.inj hu'
  refine ⟨_, rfl, ?_⟩
  have hstamp := decodeFrame_stamp lib cap.link (t.relativeTs absNs) (t'.relativeTs absNs) p.data
    p.len
  have hown := decodeFrame_stamp lib cap.link (t'.relativeTs absNs) (t'.relativeTs absNs) p.data
    p.len
  rw [hstamp]
  generalize decodeFrame lib cap.link (t'.relativeTs absNs) p.data p.len = o at hown ⊢
  cases o with
  | decoded seg =>
      have hseg : seg.ts = t'.relativeTs absNs :=
        congrArg Segment.ts (DecodeOutcome.decoded.inj hown)
      refine ⟨?_, hnames, hskipped, rfl, rfl, ?_, hnf⟩
      · rw [hitems, hts, ← hseg, List.map_append]
        rfl
      · intro x hx
        rcases List.mem_append.mp hx with hx | hx
        · exact hif x hx
        · rw [List.mem_singleton.mp hx]
          change seg.ts.ns + k ≤ u64Max
          rw [hseg]
          exact hroom
  | names obs =>
      have hobs : ∀ o ∈ obs, o.ts = t'.relativeTs absNs := by
        intro o ho
        rw [DecodeOutcome.names.inj hown] at ho
        obtain ⟨o', -, rfl⟩ := List.mem_map.mp ho
        rfl
      refine ⟨hitems, ?_, hskipped, rfl, rfl, hif, ?_⟩
      · rw [hnames, List.map_append, hts]
        refine congrArg _ (List.map_congr_left fun o ho => ?_)
        rw [← hobs o ho]
        rfl
      · intro o ho
        rcases List.mem_append.mp ho with ho | ho
        · exact hnf o ho
        · rw [hobs o ho]
          exact hroom
  | skipped reason =>
      exact ⟨hitems, hnames, congrArg (SkipCounts.record · reason) hskipped, rfl, rfl, hif, hnf⟩

/-- The stamps of `packets` can be computed, fit the range of the clock, and none of them is
before `first`. -/
def StampedFrom (build : Build) (cap : LiveCapture) (first : ℕ) (packets : List Libpcap.Packet) :
    Prop :=
  ∀ q ∈ packets, ∃ absNs, cap.absNs build q = some absNs ∧ first ≤ absNs ∧ absNs ≤ u64Max

lemma Behind.foldlM (lib : Etherparse) (h : Behind b k t t') {packets : List Libpcap.Packet}
    (hp : StampedFrom build cap (b + k) packets)
    (hu' : packets.foldlM (LiveCapture.take build lib cap) t' = some u') :
    ∃ u, packets.foldlM (LiveCapture.take build lib cap) t = some u ∧ Behind b k u u' := by
  induction packets generalizing t t' with
  | nil =>
      obtain rfl := Option.some.inj hu'
      exact ⟨t, rfl, h⟩
  | cons q qs ih =>
      obtain ⟨absNs, hns, hlate, hfit⟩ := hp q List.mem_cons_self
      rw [List.foldlM_cons] at hu'
      obtain ⟨v', hv', hrest⟩ := Option.bind_eq_some_iff.mp hu'
      obtain ⟨v, hv, hbehind⟩ := h.take lib hns hlate hfit hv'
      obtain ⟨u, hu, hend⟩ := ih hbehind (fun r hr => hp r (List.mem_cons_of_mem _ hr)) hrest
      refine ⟨u, ?_, hend⟩
      rw [List.foldlM_cons, hv]
      exact hu

/-- What the loop has taken after timeouts alone: the baseline. -/
lemma going_timeouts (build : Build) (lib : Etherparse) (cap : LiveCapture) {s : Captured}
    (h : Going s) (lead : List (Option ℕ)) :
    Going (run (Captured.next build lib cap) s (lead.map Read.timeoutExpired)) ∧
      (run (Captured.next build lib cap) s (lead.map Read.timeoutExpired)).taking = s.taking := by
  induction lead generalizing s with
  | nil => exact ⟨h, rfl⟩
  | cons since lead ih =>
      obtain ⟨hgo, hsame⟩ := h.timeout build lib cap since
      rw [List.map_cons, run_cons, ← hsame]
      exact ih hgo

/-- From the first look at the clock to the stamp of the first packet; nothing, if the packet
comes first. -/
def lag (build : Build) (cap : LiveCapture) (p : Libpcap.Packet) : List (Option ℕ) → ℕ
  | [] => 0
  | since :: _ => (cap.absNs build p).getD 0 - wallNowNs since

/-- Unless a packet comes first, the first packet is stamped no earlier than the first look at
the clock, and no packet is stamped before it. -/
def InClockOrder (build : Build) (cap : LiveCapture) (lead : List (Option ℕ)) (p : Libpcap.Packet)
    (packets : List Libpcap.Packet) : Prop :=
  ∀ since ∈ lead.head?, ∀ first ∈ cap.absNs build p, wallNowNs since ≤ first ∧
    ∀ q ∈ packets, ∀ absNs ∈ cap.absNs build q, first ≤ absNs

instance (build : Build) (cap : LiveCapture) (lead : List (Option ℕ)) (p : Libpcap.Packet)
    (packets : List Libpcap.Packet) : Decidable (InClockOrder build cap lead p packets) :=
  inferInstanceAs (Decidable (∀ since ∈ lead.head?, _))

/-- **A session that timed out first** has taken what it would have taken from its first packet
on, later by its lag. -/
theorem runLoop_later (lib : Etherparse) {lead : List (Option ℕ)} {rest : List Read}
    (hreads : ∀ r ∈ rest, r ≠ .failed)
    (hstamp : StampedFrom build cap 0 (p :: rest.filterMap Read.packet?))
    (hclock : InClockOrder build cap lead p (rest.filterMap Read.packet?)) :
    let late := runLoop build lib cap (.packet p :: rest)
    let all := runLoop build lib cap (lead.map Read.timeoutExpired ++ .packet p :: rest)
    lag build cap p lead ≤ u64Max ∧
      all.taking.items = late.taking.items.map (Item.later (lag build cap p lead)) ∧
      all.taking.names = late.taking.names.map (NameObservation.later (lag build cap p lead)) ∧
      all.taking.skipped = late.taking.skipped ∧
      (∀ x ∈ late.taking.items, x.ts.ns + lag build cap p lead ≤ u64Max) ∧
      ∀ obs ∈ late.taking.names, obs.ts.ns + lag build cap p lead ≤ u64Max := by
  intro late all
  obtain ⟨first, hfirst, -, hfit⟩ := hstamp p List.mem_cons_self
  have hsensible : Sensible build cap (.packet p :: rest) := by
    rintro r hr
    rcases List.mem_cons.mp hr with rfl | hr
    · refine ⟨by simp, ?_⟩
      rintro q ⟨rfl⟩
      rw [hfirst]
      rfl
    · refine ⟨hreads r hr, fun q hq => ?_⟩
      obtain ⟨absNs, hns, -⟩ := hstamp q
        (List.mem_cons_of_mem _ (List.mem_filterMap.mpr ⟨r, hr, hq⟩))
      rw [hns]
      rfl
  obtain ⟨-, hlate⟩ := runLoop_takes lib hsensible
  cases lead with
  | nil =>
      have hlag : lag build cap p [] = 0 := rfl
      have hitem : ∀ x : Item, x.later 0 = x := fun x => by
        cases x <;> simp [Item.later, Segment.later, Nanos.later_zero]
      have hname : ∀ obs : NameObservation, obs.later 0 = obs := fun obs => by
        simp [NameObservation.later, Nanos.later_zero]
      rw [hlag]
      simp only [Nat.add_zero]
      refine ⟨Nat.zero_le _, ?_, ?_, rfl, fun x _ => x.ts.le_max, fun obs _ => obs.ts.le_max⟩
      · exact (List.map_id'' hitem late.taking.items).symm
      · exact (List.map_id'' hname late.taking.names).symm
  | cons since lead =>
      obtain ⟨hge, hall⟩ := hclock since rfl first hfirst
      have hlag : lag build cap p (since :: lead) = first - wallNowNs since := by
        rw [lag, hfirst, Option.getD_some]
      have hsum : wallNowNs since + (first - wallNowNs since) = first := by omega
      have hgo : Going { loop := { baseline := some (wallNowNs since) } } := ⟨rfl, rfl⟩
      obtain ⟨hgo', hsame⟩ := going_timeouts build lib cap hgo (since :: lead)
      have hrun : all = run (Captured.next build lib cap)
          (run (Captured.next build lib cap) { loop := { baseline := some (wallNowNs since) } }
            ((since :: lead).map Read.timeoutExpired)) (.packet p :: rest) := by
        have hs : stampOf build cap (.timeoutExpired since) = some (wallNowNs since) := rfl
        rw [← run_append, List.map_cons, List.cons_append, run_cons, ← next_first hs]
        exact run_cons ..
      obtain ⟨-, htaken⟩ := hgo'.run lib hsensible
      rw [← hrun, hsame] at htaken
      have hbehind : Behind (wallNowNs since) (first - wallNowNs since)
          { baseline := some (wallNowNs since) } { baseline := some first } :=
        ⟨rfl, rfl, rfl, rfl, by rw [hsum], by simp, by simp⟩
      have hfrom : StampedFrom build cap (wallNowNs since + (first - wallNowNs since))
          (p :: rest.filterMap Read.packet?) := by
        rw [hsum]
        intro q hq
        obtain ⟨absNs, hns, -, hle⟩ := hstamp q hq
        refine ⟨absNs, hns, ?_, hle⟩
        rcases List.mem_cons.mp hq with rfl | hq
        · exact (Option.some.inj (hfirst.symm.trans hns)).le
        · exact hall q hq absNs hns
      have hpackets : (Read.packet p :: rest).filterMap Read.packet? =
          p :: rest.filterMap Read.packet? := rfl
      rw [hpackets, List.foldlM_cons, take_first hfirst, ← List.foldlM_cons] at hlate
      rw [hpackets] at htaken
      obtain ⟨u, hu, h⟩ := hbehind.foldlM lib hfrom hlate
      obtain rfl : u = all.taking := Option.some.inj (hu.symm.trans htaken)
      rw [hlag]
      exact ⟨by omega, h.items, h.names, h.skipped, h.itemsFit, h.namesFit⟩

end LiveCapture

end TcpVisr
