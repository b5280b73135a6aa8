import TcpVisr.Replay
import TcpVisr.Slicing

/-!
Which scale a packet's timestamp is read with.

An enhanced packet names an interface of its section, and its ticks are that interface's.
The faucet keeps one scale, that of the interface described last, so the times it hands out
are right exactly when the distance from the first packet comes out the same either way.
-/

namespace TcpVisr

open Lib.Runs

/-- What the blocks so far say about time: the nanoseconds a tick of each interface of the
section and of the interface described last, and the first packet's value by its own
interface and by the one described last. -/
structure Clock where
  interfaces : List ℕ := []
  latest : ℕ := MICRO_TICK_NS
  first : Option (ℕ × ℕ) := none

namespace Clock

/-- Nanoseconds a tick of the interface that `ifId` names. -/
def own (c : Clock) (ifId : BitVec 32) : ℕ := c.interfaces.getD ifId.toNat 0

def read (c : Clock) : Block → Clock
  | .sectionHeader => { c with interfaces := [] }
  | .interfaceDescription _ tsResolution =>
    let scale := (tsResolution.bind nanosPerTick).getD 0
    { c with interfaces := c.interfaces ++ [scale], latest := scale }
  | .enhancedPacket ifId tsHigh tsLow _ _ =>
    let ticks := ticksOf tsHigh tsLow
    { c with first := some (c.first.getD (satMul ticks (c.own ifId), satMul ticks c.latest)) }
  | _ => c

lemma first_read (c : Clock) (ifId tsHigh tsLow origlen : BitVec 32) (data : Frame) :
    (c.read (.enhancedPacket ifId tsHigh tsLow origlen data)).first =
      some (c.first.getD (satMul (ticksOf tsHigh tsLow) (c.own ifId),
        satMul (ticksOf tsHigh tsLow) c.latest)) := rfl

/-- The distance from the first packet, both scaled by their own interfaces. -/
def ownTs (c : Clock) (ifId : BitVec 32) (ticks : ℕ) : Nanos :=
  let value := satMul ticks (c.own ifId)
  Nanos.sat (value - (c.first.map Prod.fst).getD value)

/-- The distance from the first packet, each scaled by the interface described last before
it. -/
def latestTs (c : Clock) (ticks : ℕ) : Nanos :=
  let value := satMul ticks c.latest
  Nanos.sat (value - (c.first.map Prod.snd).getD value)

end Clock

/-- The blocks of a pcapng file of link type `link`: every interface has that link type and a
resolution that `Nanos` represents, and every enhanced packet names an interface of its
section. -/
def Regular (link : LinkType) (c : Clock) : Block → Prop
  | .legacyHeader _ _ | .legacy _ _ _ _ => False
  | .interfaceDescription linktype tsResolution =>
    dltToLink linktype = .ok link ∧ (tsResolution.bind nanosPerTick).isSome = true
  | .enhancedPacket ifId _ _ _ _ => ifId.toNat < c.interfaces.length
  | .sectionHeader | .simplePacket _ _ | .other => True

instance decidableRegular (link : LinkType) (c : Clock) : ∀ b, Decidable (Regular link c b)
  | .legacyHeader _ _ | .legacy _ _ _ _ => inferInstanceAs (Decidable False)
  | .interfaceDescription _ _ => inferInstanceAs (Decidable (_ ∧ _))
  | .enhancedPacket _ _ _ _ _ => inferInstanceAs (Decidable (_ < _))
  | .sectionHeader | .simplePacket _ _ | .other => inferInstanceAs (Decidable True)

/-- The frame decodes to an item or to names. -/
def Observed (lib : Etherparse) (link : LinkType) (data : Frame) (origlen : BitVec 32) : Prop :=
  ∀ reason, decodeFrame lib link (Nanos.sat 0) data origlen ≠ .skipped reason

/-- The times of what a block handed to the sinks. -/
def Yield.times (y : Yield) : List Nanos := y.items.map Item.ts ++ y.names.map NameObservation.ts

/-- The times of what the sinks received between two points of a reading. -/
def newTimes (r r' : Reading) : List Nanos :=
  (r'.items.drop r.items.length).map Item.ts ++
    (r'.names.drop r.names.length).map NameObservation.ts

/-- An enhanced packet's observations carry the time its own interface gives it. -/
def OwnScaled (c : Clock) (times : List Nanos) : Block → Prop
  | .enhancedPacket ifId tsHigh tsLow _ _ => ∀ t ∈ times, t = c.ownTs ifId (ticksOf tsHigh tsLow)
  | _ => True

/-- An enhanced packet that yields anything is as far from the first packet by the interfaces
described last as by the packets' own. -/
def Agrees (lib : Etherparse) (link : LinkType) (c : Clock) : Block → Prop
  | .enhancedPacket ifId tsHigh tsLow origlen data =>
    Observed lib link data origlen →
      c.latestTs (ticksOf tsHigh tsLow) = c.ownTs ifId (ticksOf tsHigh tsLow)
  | _ => True

/-! ### One packet -/

variable {lib : Etherparse} {path : String} {link : LinkType}

/-- A packet of a known link type is processed, its value sets the baseline if it is the
first, and all it yields carries its distance from the baseline. -/
lemma processPacket_time (lib : Etherparse) (path : String) {s : State} (absNs : ℕ)
    (origlen : BitVec 32) (data : Frame) (hlink : s.linkType = some link) :
    ∃ s' y, processPacket lib path s absNs origlen data = .ok (s', y) ∧
      s'.linkType = s.linkType ∧ s'.nanosPerTick = s.nanosPerTick ∧
      s'.baseline = some (baselineOf s absNs) ∧
      ∀ t, (∀ t' ∈ y.times, t' = t) ↔
        (Observed lib link data origlen → relativeTs s absNs = t) := by
  have hstamp := decodeFrame_stamp lib link (relativeTs s absNs) (Nanos.sat 0) data origlen
  unfold processPacket Observed
  simp only [hlink, hstamp]
  cases hd : decodeFrame lib link (Nanos.sat 0) data origlen with
  | decoded seg =>
      refine ⟨_, _, rfl, hlink.symm ▸ rfl, rfl, rfl, fun t => ?_⟩
      simp [Yield.times, Item.ts]
  | names obs =>
      refine ⟨_, _, rfl, hlink.symm ▸ rfl, rfl, rfl, fun t => ?_⟩
      have hne := names_ne_nil hd
      obtain ⟨o, ho⟩ := List.exists_mem_of_ne_nil obs hne
      simp only [Yield.times]
      constructor
      · intro h _
        exact h _ (by simpa using ⟨o, ho⟩)
      · intro h t' ht'
        obtain ⟨o', -, rfl⟩ := by simpa using ht'
        exact h (by simp)
  | skipped reason =>
      refine ⟨_, _, rfl, hlink.symm ▸ rfl, rfl, rfl, fun t => ?_⟩
      simp [Yield.times]

/-! ### Whole files -/

/-- The faucet's clock is the one that ignores the interface a packet names. -/
structure Tracks (link : LinkType) (c : Clock) (r : Reading) : Prop where
  reading : r.failed = none
  scale : r.state.nanosPerTick = c.latest
  linkType : r.state.linkType = none ∨ r.state.linkType = some link
  described : c.interfaces ≠ [] → r.state.linkType = some link
  baseline : r.state.baseline = c.first.map Prod.snd

/-- The distance the faucet computes is the one by the interface described last. -/
lemma Tracks.relativeTs {c : Clock} {r : Reading} (h : Tracks link c r) (ticks : ℕ) :
    relativeTs r.state (satMul ticks r.state.nanosPerTick) = c.latestTs ticks := by
  unfold TcpVisr.relativeTs baselineOf Clock.latestTs
  rw [h.scale, h.baseline]

lemma Reading.next_of_ok {r : Reading} {b : Block} {s : State} {y : Yield}
    (hr : r.failed = none) (h : handleBlock lib path r.state b = .ok (s, y)) :
    r.next lib path b =
      { r with state := s, items := r.items ++ y.items, names := r.names ++ y.names } := by
  unfold Reading.next
  rw [hr, h]

lemma newTimes_next {r : Reading} {b : Block} {s : State} {y : Yield} (hr : r.failed = none)
    (h : handleBlock lib path r.state b = .ok (s, y)) :
    newTimes r (r.next lib path b) = y.times := by
  rw [Reading.next_of_ok hr h]
  simp only [newTimes, List.drop_left, Yield.times]

/-- The step of an interface description of the file's link type. -/
lemma describeInterface_regular (path : String) {s : State} {linktype : BitVec 32}
    {tsResolution : Option ℕ}
    (hlink : s.linkType = none ∨ s.linkType = some link)
    (hok : dltToLink linktype = .ok link)
    (hres : (tsResolution.bind nanosPerTick).isSome = true) :
    describeInterface path s linktype tsResolution =
      .ok ({ s with linkType := some link
                    nanosPerTick := (tsResolution.bind nanosPerTick).getD 0 }, {}) := by
  obtain ⟨npt, hnpt⟩ := Option.isSome_iff_exists.mp hres
  obtain ⟨ticksPerSec, rfl, hticks⟩ := Option.bind_eq_some_iff.mp hnpt
  unfold describeInterface
  rw [hok]
  simp only
  rw [if_neg (by rcases hlink with h | h <;> simp [h]), hnpt]
  simp only [hticks, Option.getD_some]

/-- The faucet keeps track on every block of such a file. -/
lemma tracks_next {c : Clock} {r : Reading} {b : Block} (h : Tracks link c r)
    (hb : Regular link c b) : Tracks link (c.read b) (r.next lib path b) := by
  cases b with
  | legacyHeader network magicNumber => exact hb.elim
  | legacy tsSec tsUsec origlen data => exact hb.elim
  | sectionHeader =>
      rw [Reading.next_of_ok (s := r.state) (y := {}) h.reading rfl]
      exact ⟨h.reading, h.scale, h.linkType, fun hne => absurd rfl hne, h.baseline⟩
  | simplePacket origlen data =>
      rw [Reading.next_of_ok (s := r.state) (y := {}) h.reading rfl]
      exact ⟨h.reading, h.scale, h.linkType, h.described, h.baseline⟩
  | other =>
      rw [Reading.next_of_ok (s := r.state) (y := {}) h.reading rfl]
      exact ⟨h.reading, h.scale, h.linkType, h.described, h.baseline⟩
  | interfaceDescription linktype tsResolution =>
      have hstep : handleBlock lib path r.state (.interfaceDescription linktype tsResolution) = _ :=
        describeInterface_regular path h.linkType hb.1 hb.2
      rw [Reading.next_of_ok h.reading hstep]
      exact ⟨h.reading, rfl, .inr rfl, fun _ => rfl, h.baseline⟩
  | enhancedPacket ifId tsHigh tsLow origlen data =>
      have hlink := h.described (List.ne_nil_of_length_pos (Nat.zero_lt_of_lt hb))
      obtain ⟨s', y, hok, hl, hn, hbase, -⟩ := processPacket_time lib path
        (satMul (ticksOf tsHigh tsLow) r.state.nanosPerTick) origlen data hlink
      change handleBlock lib path r.state (.enhancedPacket ifId tsHigh tsLow origlen data) = _
        at hok
      rw [Reading.next_of_ok h.reading hok]
      refine ⟨h.reading, hn.trans h.scale, .inr (hl.trans hlink), fun _ => hl.trans hlink, ?_⟩
      rw [Clock.first_read, Option.map_some, ← Option.getD_map Prod.snd]
      exact hbase.trans (by rw [baselineOf, h.baseline, h.scale])

lemma tracks_run (lib : Etherparse) (path : String) {blocks : List Block}
    (h : Steps Clock.read {} (Regular link) blocks) :
    Tracks link (run Clock.read {} blocks) (readBlocks lib path blocks) := by
  apply sim_of_steps (R := Tracks link) (G := Regular link) (H := fun _ _ => True)
  · exact ⟨rfl, rfl, .inl rfl, fun hne => absurd rfl hne, rfl⟩
  · intro c r b hcr hb _
    exact tracks_next hcr hb
  · exact h
  · exact fun _ _ _ => trivial

/-- One block of such a file: what it yields is scaled by its own interface exactly when the
two clocks agree on it. -/
lemma ownScaled_iff {c : Clock} {r : Reading} {b : Block} (h : Tracks link c r)
    (hb : Regular link c b) :
    OwnScaled c (newTimes r (r.next lib path b)) b ↔ Agrees lib link c b := by
  cases b with
  | enhancedPacket ifId tsHigh tsLow origlen data =>
      have hlink := h.described (List.ne_nil_of_length_pos (Nat.zero_lt_of_lt hb))
      obtain ⟨s', y, hok, -, -, -, htimes⟩ := processPacket_time lib path
        (satMul (ticksOf tsHigh tsLow) r.state.nanosPerTick) origlen data hlink
      change handleBlock lib path r.state (.enhancedPacket ifId tsHigh tsLow origlen data) = _
        at hok
      rw [newTimes_next h.reading hok]
      simp only [OwnScaled, Agrees]
      rw [htimes, h.relativeTs]
  | _ => exact Iff.rfl

/-- An enhanced packet names an interface of the scale described last. -/
def NamesLatest (c : Clock) : Block → Prop
  | .enhancedPacket ifId _ _ _ _ => c.own ifId = c.latest
  | _ => True

instance decidableNamesLatest (c : Clock) : ∀ b, Decidable (NamesLatest c b)
  | .enhancedPacket _ _ _ _ _ => inferInstanceAs (Decidable (_ = _))
  | .legacyHeader _ _ | .legacy _ _ _ _ | .sectionHeader | .interfaceDescription _ _
  | .simplePacket _ _ | .other => inferInstanceAs (Decidable True)

lemma first_agrees {blocks : List Block} (h : Steps Clock.read {} NamesLatest blocks) :
    ∀ f, (run Clock.read {} blocks).first = some f → f.1 = f.2 := by
  apply inv_of_steps (P := fun c : Clock => ∀ f, c.first = some f → f.1 = f.2) _ _ h
  · intro f hf
    simp at hf
  · intro c b hc hb f hf
    cases b with
    | enhancedPacket ifId tsHigh tsLow origlen data =>
        rw [Clock.first_read] at hf
        obtain rfl := Option.some.inj hf
        cases hfirst : c.first with
        | none =>
            rw [Option.getD_none]
            exact congrArg (satMul (ticksOf tsHigh tsLow)) hb
        | some f => exact hc f hfirst
    | _ => exact hc f hf

/-- In a file of one scale, or one that describes an interface before each packet that
changes it, the two clocks agree. -/
lemma agrees_of_namesLatest (lib : Etherparse) (link : LinkType) {blocks : List Block}
    (h : Steps Clock.read {} NamesLatest blocks) :
    Steps Clock.read {} (Agrees lib link) blocks := by
  intro p b hp
  have hfirst := first_agrees (h.initial ((List.prefix_append p [b]).trans hp))
  have hb := h p b hp
  cases b with
  | enhancedPacket ifId tsHigh tsLow origlen data =>
      intro _
      simp only [Clock.latestTs, Clock.ownTs]
      rw [show (run Clock.read {} p).own ifId = (run Clock.read {} p).latest from hb]
      cases hf : (run Clock.read {} p).first with
      | none => rfl
      | some f =>
          simp only [Option.map_some, Option.getD_some]
          rw [hfirst f hf]
  | _ => trivial

/-- **Scales, exactly.** A pcapng file of one link type is read without an error, and every
enhanced packet's observations carry the time that its own interface gives them, if and only
if for every enhanced packet that yields any, the distance from the first packet is the same
by the interfaces described last. So it is where each packet names an interface of the scale
described last. -/
theorem ownScaled_run_iff (lib : Etherparse) (path : String) (link : LinkType)
    (blocks : List Block) (h : Steps Clock.read {} (Regular link) blocks) :
    (readBlocks lib path blocks).failed = none ∧
    ((∀ p b, p ++ [b] <+: blocks →
        OwnScaled (run Clock.read {} p)
          (newTimes (readBlocks lib path p) (readBlocks lib path (p ++ [b]))) b) ↔
      Steps Clock.read {} (Agrees lib link) blocks) ∧
    (Steps Clock.read {} NamesLatest blocks → ∀ p b, p ++ [b] <+: blocks →
      OwnScaled (run Clock.read {} p)
        (newTimes (readBlocks lib path p) (readBlocks lib path (p ++ [b]))) b) := by
  suffices hiff : _ by
    exact ⟨(tracks_run lib path h).reading, hiff,
      fun hlatest => hiff.mpr (agrees_of_namesLatest lib link hlatest)⟩
  refine forall_congr' fun p => forall_congr' fun b => ?_
  apply imp_congr_right
  intro hp
  have htr := tracks_run lib path
    (h.initial ((List.prefix_append p [b]).trans hp))
  have hsnoc : readBlocks lib path (p ++ [b]) = (readBlocks lib path p).next lib path b :=
    run_snoc _ _ p b
  rw [hsnoc]
  exact ownScaled_iff htr (h p b hp)

/-- A microsecond interface and a nanosecond one, each described right before its packet. -/
def interleavedBlocks : List Block :=
  [.sectionHeader, .interfaceDescription 101#32 (some 1000000),
    .enhancedPacket 0#32 0#32 1#32 40#32 synPacket,
    .interfaceDescription 101#32 (some 1000000000),
    .enhancedPacket 1#32 0#32 2000#32 40#32 synPacket]

theorem ownScaled_run_iff_interleaved :
    (readBlocks headerSlicer "a.pcapng" interleavedBlocks).failed = none ∧
    ((∀ p b, p ++ [b] <+: interleavedBlocks →
        OwnScaled (run Clock.read {} p)
          (newTimes (readBlocks headerSlicer "a.pcapng" p)
            (readBlocks headerSlicer "a.pcapng" (p ++ [b]))) b) ↔
      Steps Clock.read {} (Agrees headerSlicer .rawIp) interleavedBlocks) ∧
    ∀ p b, p ++ [b] <+: interleavedBlocks →
      OwnScaled (run Clock.read {} p)
        (newTimes (readBlocks headerSlicer "a.pcapng" p)
          (readBlocks headerSlicer "a.pcapng" (p ++ [b]))) b := by
  obtain ⟨hread, hiff, hlatest⟩ :=
    ownScaled_run_iff headerSlicer "a.pcapng" .rawIp interleavedBlocks (by decide +kernel)
  exact ⟨hread, hiff, hlatest (by decide +kernel)⟩

/-- Both interfaces described first, then two packets of the microsecond one. -/
def mergedBlocks : List Block :=
  [.sectionHeader, .interfaceDescription 101#32 (some 1000000),
    .interfaceDescription 101#32 (some 1000000000),
    .enhancedPacket 0#32 0#32 1#32 40#32 synPacket,
    .enhancedPacket 0#32 0#32 2#32 40#32 synPacket]

/-- The second packet, a microsecond after the first, is put one nanosecond after it. -/
theorem merged_misscaled :
    ¬ ∀ (lib : Etherparse) (path : String) (link : LinkType) (blocks : List Block),
      Steps Clock.read {} (Regular link) blocks →
      ∀ p b, p ++ [b] <+: blocks →
        OwnScaled (run Clock.read {} p)
          (newTimes (readBlocks lib path p) (readBlocks lib path (p ++ [b]))) b := by
  intro h
  have hlast := h headerSlicer "m.pcapng" .rawIp mergedBlocks (by decide +kernel)
    (mergedBlocks.take 4) (.enhancedPacket 0#32 0#32 2#32 40#32 synPacket) (by decide +kernel)
    (Nanos.sat 1) (by decide +kernel)
  revert hlast
  decide +kernel

end TcpVisr
