import TcpVisr.Replay
import TcpVisr.Slicing

/-!
What becomes of each packet that a capture file carries: an item, name observations, or one
skip count.

That holds of legacy records and enhanced packets. A simple packet leaves no trace.
-/

namespace TcpVisr

open Lib.Runs

namespace Block

/-- The block kinds that carry a packet. -/
def carriesPacket : Block → Bool
  | legacy _ _ _ _ | enhancedPacket _ _ _ _ _ | simplePacket _ _ => true
  | _ => false

def isSimple : Block → Bool
  | simplePacket _ _ => true
  | _ => false

lemma carriesPacket_of_isSimple {b : Block} (h : b.isSimple = true) : b.carriesPacket = true := by
  cases b <;> first | rfl | simp [isSimple] at h

end Block

/-! ### One packet -/

/-- A packet was accounted for once between two points of a reading: one item more, or a
non-empty list of names more, or one more on one of the skip counters. -/
def Accounted (r r' : Reading) : Prop :=
  (∃ item, r'.items = r.items ++ [item] ∧ r'.names = r.names ∧
    r'.state.skipped = r.state.skipped) ∨
  (∃ obs, obs ≠ [] ∧ r'.items = r.items ∧ r'.names = r.names ++ obs ∧
    r'.state.skipped = r.state.skipped) ∨
  (∃ reason, r'.items = r.items ∧ r'.names = r.names ∧
    r'.state.skipped = r.state.skipped.record reason)

/-- What stays the same is not accounted for. -/
lemma not_accounted_self (r : Reading) : ¬ Accounted r r := by
  rintro (⟨item, h, -⟩ | ⟨obs, hne, -, h, -⟩ | ⟨reason, -, -, h⟩)
  · have := congrArg List.length h
    simp at this
  · exact hne (List.self_eq_append_right.mp h)
  · have := congrArg SkipCounts.total h
    rw [SkipCounts.total_record] at this
    omega

variable {lib : Etherparse} {path : String}

/-- A legacy record or an enhanced packet is processed. -/
lemma handleBlock_packet {s s' : State} {y : Yield} {b : Block} (hb : b.carriesPacket = true)
    (hs : b.isSimple = false) (h : handleBlock lib path s b = .ok (s', y)) :
    (∃ seg, y = { items := [.segment seg] } ∧ s'.skipped = s.skipped) ∨
    (∃ obs, obs ≠ [] ∧ y = { names := obs } ∧ s'.skipped = s.skipped) ∨
    (∃ reason, y = {} ∧ s'.skipped = s.skipped.record reason) := by
  cases b with
  | legacy tsSec tsUsec origlen data => exact processPacket_ok h
  | enhancedPacket ifId tsHigh tsLow origlen data => exact processPacket_ok h
  | simplePacket origlen data => simp [Block.isSimple] at hs
  | _ => simp [Block.carriesPacket] at hb

/-- Every other block, a simple packet among them, yields and counts nothing. -/
lemma handleBlock_quiet {s s' : State} {y : Yield} {b : Block}
    (hb : b.carriesPacket = false ∨ b.isSimple = true)
    (h : handleBlock lib path s b = .ok (s', y)) : y = {} ∧ s'.skipped = s.skipped := by
  cases b with
  | legacyHeader network magicNumber =>
      simp only [handleBlock] at h
      split at h
      · simp at h
      · obtain ⟨rfl, rfl⟩ := Prod.mk.inj (Except.ok.inj h)
        exact ⟨rfl, rfl⟩
  | interfaceDescription linktype tsResolution =>
      obtain ⟨link, npt, -, -, rfl, rfl⟩ := describeInterface_ok h
      exact ⟨rfl, rfl⟩
  | legacy tsSec tsUsec origlen data => simp [Block.carriesPacket, Block.isSimple] at hb
  | enhancedPacket ifId tsHigh tsLow origlen data =>
      simp [Block.carriesPacket, Block.isSimple] at hb
  | _ =>
      obtain ⟨rfl, rfl⟩ := Prod.mk.inj (Except.ok.inj h)
      exact ⟨rfl, rfl⟩

/-- **Accounted once.** -/
lemma accounted_next {r : Reading} {b : Block} (hok : (r.next lib path b).failed = none)
    (hb : b.carriesPacket = true) (hs : b.isSimple = false) :
    Accounted r (r.next lib path b) := by
  obtain ⟨-, s, y, hy, hnext⟩ := Reading.of_next hok
  rw [hnext]
  rcases handleBlock_packet hb hs hy with ⟨seg, rfl, hsk⟩ | ⟨obs, hne, rfl, hsk⟩ |
    ⟨reason, rfl, hsk⟩
  · exact .inl ⟨.segment seg, rfl, List.append_nil _, hsk⟩
  · exact .inr (.inl ⟨obs, hne, List.append_nil _, rfl, hsk⟩)
  · exact .inr (.inr ⟨reason, List.append_nil _, List.append_nil _, hsk⟩)

/-- A simple packet is not. -/
lemma not_accounted_next {r : Reading} {b : Block} (hok : (r.next lib path b).failed = none)
    (hs : b.isSimple = true) : ¬ Accounted r (r.next lib path b) := by
  obtain ⟨hr, s, y, hy, hnext⟩ := Reading.of_next hok
  cases b with
  | simplePacket origlen data =>
      obtain ⟨rfl, rfl⟩ := Prod.mk.inj (Except.ok.inj hy)
      simp only [List.append_nil] at hnext
      rw [hnext]
      exact not_accounted_self r
  | _ => simp [Block.isSimple] at hs

/-! ### The books -/

/-- The block makes the faucet hand over names. -/
def YieldsNames (lib : Etherparse) (path : String) (r : Reading) (b : Block) : Prop :=
  r.names.length < (r.next lib path b).names.length

instance (r : Reading) (b : Block) : Decidable (YieldsNames lib path r b) :=
  inferInstanceAs (Decidable (_ < _))

/-- The packets of `blocks` that yield names. -/
def nameYielding (lib : Etherparse) (path : String) (blocks : List Block) : ℕ :=
  tally (Reading.next lib path) (YieldsNames lib path) {} blocks

/-- A packet accounted for once adds one to the books. -/
lemma Accounted.books {r r' : Reading} (h : Accounted r r') :
    r'.items.length + (if r.names.length < r'.names.length then 1 else 0)
        + r'.state.skipped.total
      = r.items.length + r.state.skipped.total + 1 := by
  rcases h with ⟨item, hi, hn, hs⟩ | ⟨obs, hne, hi, hn, hs⟩ | ⟨reason, hi, hn, hs⟩
  · rw [hi, hn, hs, if_neg (lt_irrefl _), List.length_append, List.length_singleton]
    omega
  · have hpos := List.length_pos_of_ne_nil hne
    have hlt : r.names.length < r'.names.length := by
      rw [hn, List.length_append]
      omega
    rw [hi, hs, if_pos hlt]
    omega
  · rw [hi, hn, hs, if_neg (lt_irrefl _), SkipCounts.total_record]
    omega

/-- A block that carries no packet leaves the books alone. -/
lemma books_quiet {r : Reading} {b : Block} (hok : (r.next lib path b).failed = none)
    (hb : b.carriesPacket = false ∨ b.isSimple = true) :
    (r.next lib path b).items = r.items ∧ (r.next lib path b).names = r.names ∧
      (r.next lib path b).state.skipped = r.state.skipped := by
  obtain ⟨-, s, y, hy, hnext⟩ := Reading.of_next hok
  obtain ⟨rfl, hsk⟩ := handleBlock_quiet hb hy
  rw [hnext]
  exact ⟨List.append_nil _, List.append_nil _, hsk⟩

/-- The books of a reading without an error: the packets that are not simple ones. -/
lemma books_run {blocks : List Block} (hok : (readBlocks lib path blocks).failed = none) :
    blocks.countP (fun b => b.carriesPacket && !b.isSimple)
      = (readBlocks lib path blocks).items.length + nameYielding lib path blocks
        + (readBlocks lib path blocks).state.skipped.total := by
  induction blocks using List.reverseRecOn with
  | nil => rfl
  | append_singleton p b ih =>
      have hrun : readBlocks lib path (p ++ [b]) = (readBlocks lib path p).next lib path b :=
        run_snoc _ _ p b
      rw [hrun] at hok ⊢
      have ih' := ih (Reading.of_next hok).1
      rw [List.countP_append, ih', nameYielding, nameYielding, tally_snoc, List.countP_singleton]
      change _ = _ + (_ + if (readBlocks lib path p).names.length
        < ((readBlocks lib path p).next lib path b).names.length then 1 else 0) + _
      by_cases hb : b.carriesPacket = true ∧ b.isSimple = false
      · have hone := (accounted_next hok hb.1 hb.2).books
        rw [if_pos (by rw [hb.1, hb.2]; rfl)]
        omega
      · have hquiet : b.carriesPacket = false ∨ b.isSimple = true := by
          rcases hc : b.carriesPacket <;> rcases hs : b.isSimple <;> simp_all
        obtain ⟨hi, hn, hs⟩ := books_quiet hok hquiet
        rw [hi, hn, hs, if_neg (lt_irrefl _), if_neg (by
          rcases hquiet with h | h <;> rw [h] <;> simp)]
        omega

/-- **Accounting, exactly.** When a file parses, every packet it carries is accounted for
once and the books balance, if and only if none of them is a simple packet. -/
theorem accounted_iff (lib : Etherparse) (path : String) (c : Container) (r : Reading)
    (link : LinkType) (skipped : SkipCounts)
    (h : parseFileVisitNamed lib path (.ok (.ok c)) = (r, .ok (link, skipped))) :
    ((∀ p b, p ++ [b] <+: c.blocks → b.carriesPacket = true →
        Accounted (readBlocks lib path p) (readBlocks lib path (p ++ [b]))) ∧
      c.blocks.countP Block.carriesPacket
        = r.items.length + nameYielding lib path c.blocks + skipped.total) ↔
    ∀ b ∈ c.blocks, b.isSimple = false := by
  obtain ⟨rfl, hok, rfl⟩ := of_parse_ok h
  have hall := always_not_failed hok
  have hsnoc : ∀ p b, readBlocks lib path (p ++ [b]) = (readBlocks lib path p).next lib path b :=
    fun p b => run_snoc _ _ p b
  constructor
  · rintro ⟨hacc, -⟩ b hb
    by_contra hs
    rw [Bool.not_eq_false] at hs
    obtain ⟨p, q, hpq⟩ := List.append_of_mem hb
    have hp : p ++ [b] <+: c.blocks := ⟨q, by rw [hpq]; simp⟩
    have hone := hacc p b hp (Block.carriesPacket_of_isSimple hs)
    have hnext := hall (p ++ [b]) hp
    rw [run_snoc] at hnext
    rw [hsnoc] at hone
    exact not_accounted_next hnext hs hone
  · intro hnone
    refine ⟨fun p b hp hb => ?_, ?_⟩
    · have hnext := hall (p ++ [b]) hp
      rw [run_snoc] at hnext
      rw [hsnoc]
      exact accounted_next hnext hb (hnone b (hp.subset (by simp)))
    · rw [← books_run hok]
      apply List.countP_congr
      intro b hb
      rw [hnone b hb]
      simp

/-- A raw-IP capture of one SYN. -/
def synFile : Container where
  blocks := [.sectionHeader, .interfaceDescription 101#32 (some 1000000),
    .enhancedPacket 0#32 0#32 1#32 40#32 synPacket]

theorem accounted_iff_syn :
    ((∀ p b, p ++ [b] <+: synFile.blocks → b.carriesPacket = true →
        Accounted (readBlocks headerSlicer "syn.pcapng" p)
          (readBlocks headerSlicer "syn.pcapng" (p ++ [b]))) ∧
      synFile.blocks.countP Block.carriesPacket
        = (readBlocks headerSlicer "syn.pcapng" synFile.blocks).items.length
          + nameYielding headerSlicer "syn.pcapng" synFile.blocks + ({} : SkipCounts).total) ↔
    ∀ b ∈ synFile.blocks, b.isSimple = false :=
  accounted_iff headerSlicer "syn.pcapng" synFile
    (readBlocks headerSlicer "syn.pcapng" synFile.blocks) .rawIp {} (by decide +kernel)

/-- The same packet in a simple packet block. -/
def simpleFile : Container where
  blocks := [.sectionHeader, .interfaceDescription 101#32 (some 1000000),
    .simplePacket 40#32 synPacket]

/-- The file parses, its one packet is no item, no name and no skip. -/
theorem simple_packet_lost :
    ¬ ∀ (lib : Etherparse) (path : String) (c : Container) (r : Reading) (link : LinkType)
      (skipped : SkipCounts),
      parseFileVisitNamed lib path (.ok (.ok c)) = (r, .ok (link, skipped)) →
      (∀ p b, p ++ [b] <+: c.blocks → b.carriesPacket = true →
        Accounted (readBlocks lib path p) (readBlocks lib path (p ++ [b]))) ∧
      c.blocks.countP Block.carriesPacket
        = r.items.length + nameYielding lib path c.blocks + skipped.total := by
  intro h
  have hbooks := (h headerSlicer "simple.pcapng" simpleFile
    (readBlocks headerSlicer "simple.pcapng" simpleFile.blocks) .rawIp {} (by decide +kernel)).2
  revert hbooks
  decide +kernel

end TcpVisr
