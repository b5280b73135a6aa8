import TcpVisr.Decode
import TcpVisr.Lib.Runs

/-!
The replay faucet: container blocks, as `pcap-parser` yields them, to items, name
observations and skip counts.
-/

namespace TcpVisr

/-- A container block, by what the faucet reads of it. `tsResolution` is the interface's
ticks per second, when its option can be read. -/
inductive Block
  | legacyHeader (network magicNumber : BitVec 32)
  | legacy (tsSec tsUsec origlen : BitVec 32) (data : Frame)
  | sectionHeader
  | interfaceDescription (linktype : BitVec 32) (tsResolution : Option ℕ)
  | enhancedPacket (ifId tsHigh tsLow origlen : BitVec 32) (data : Frame)
  | simplePacket (origlen : BitVec 32) (data : Frame)
  | other
  deriving DecidableEq

/-! ### Skip counts -/

/-- Counts of packets skipped during a parse. -/
@[ext] structure SkipCounts where
  nonTcp : ℕ := 0
  malformed : ℕ := 0
  unsupportedLinkType : ℕ := 0
  ipv6Fragment : ℕ := 0
  unsupportedExtChain : ℕ := 0
  truncated : ℕ := 0
  deriving DecidableEq

namespace SkipCounts

/-- Increments the counter for `reason`. -/
def record (c : SkipCounts) : SkipReason → SkipCounts
  | .nonTcp => { c with nonTcp := c.nonTcp + 1 }
  | .malformed => { c with malformed := c.malformed + 1 }
  | .unsupportedLinkType => { c with unsupportedLinkType := c.unsupportedLinkType + 1 }
  | .ipv6Fragment => { c with ipv6Fragment := c.ipv6Fragment + 1 }
  | .unsupportedExtChain => { c with unsupportedExtChain := c.unsupportedExtChain + 1 }
  | .truncated => { c with truncated := c.truncated + 1 }

/-- Total number of skipped packets. -/
def total (c : SkipCounts) : ℕ :=
  c.nonTcp + c.malformed + c.unsupportedLinkType + c.ipv6Fragment + c.unsupportedExtChain
    + c.truncated

@[simp] lemma total_record (c : SkipCounts) (reason : SkipReason) :
    (c.record reason).total = c.total + 1 := by
  cases reason <;> simp only [record, total] <;> omega

end SkipCounts

/-! ### Errors -/

/-- Whole-file failures. -/
inductive IngestError
  | opening (path source : String)
  | container (path detail : String)
  | unknownLinkType (dlt : ℕ)
  | mixedLinkTypes
  deriving DecidableEq

/-- The message of an error. -/
def IngestError.message : IngestError → String
  | .opening path source =>
    s!"opening capture {path}: {source} (check the path and read permissions)"
  | .container path detail => s!"parsing capture container {path}: {detail}"
  | .unknownLinkType dlt =>
    s!"unsupported link type {dlt} (M1 supports Ethernet, SLL, SLL2, raw IP, null)"
  | .mixedLinkTypes =>
    "capture mixes link types across interfaces; M1 supports a single link type"

/-! ### The faucet -/

def MICRO_TICK_NS : ℕ := 1000
def NANO_MAGIC : BitVec 32 := 0xa1b23c4d#32
def NS_PER_SEC : ℕ := 1000000000

/-- `a.saturating_mul(b)`. -/
def satMul (a b : ℕ) : ℕ := min (a * b) u64Max

/-- `a.saturating_add(b)`. -/
def satAdd (a b : ℕ) : ℕ := min (a + b) u64Max

structure State where
  linkType : Option LinkType := none
  baseline : Option ℕ := none
  nanosPerTick : ℕ := MICRO_TICK_NS
  skipped : SkipCounts := {}
  deriving DecidableEq

/-- What one block hands to the two sinks. -/
structure Yield where
  items : List Item := []
  names : List NameObservation := []
  deriving DecidableEq

/-- Nanoseconds per timestamp tick, if `Nanos` can represent them. -/
def nanosPerTick (ticksPerSec : ℕ) : Option ℕ :=
  if ticksPerSec = 0 ∨ NS_PER_SEC % ticksPerSec ≠ 0 then none
  else some (NS_PER_SEC / ticksPerSec)

/-- The link type of a data-link number, an `i32` in the container. -/
def dltToLink (dlt : BitVec 32) : Except IngestError LinkType :=
  if 0 ≤ dlt.toInt ∧ dlt.toInt < 2 ^ 16 then
    match LinkType.fromDlt dlt.toInt.toNat with
    | some link => .ok link
    | none => .error (.unknownLinkType dlt.toInt.toNat)
  else .error (.unknownLinkType (2 ^ 16 - 1))

/-- The first packet's value is the baseline of all. -/
def baselineOf (s : State) (absNs : ℕ) : ℕ := s.baseline.getD absNs

/-- `absNs` after the baseline. -/
def relativeTs (s : State) (absNs : ℕ) : Nanos := Nanos.sat (absNs - baselineOf s absNs)

def processPacket (lib : Etherparse) (path : String) (s : State) (absNs : ℕ)
    (origlen : BitVec 32) (data : Frame) : Except IngestError (State × Yield) :=
  let ts := relativeTs s absNs
  let s := { s with baseline := some (baselineOf s absNs) }
  match s.linkType with
  | none => .error (.container path "packet before any interface description")
  | some link =>
    match decodeFrame lib link ts data origlen with
    | .decoded seg => .ok (s, { items := [.segment seg] })
    | .names obs => .ok (s, { names := obs })
    | .skipped reason => .ok ({ s with skipped := s.skipped.record reason }, {})

/-- The 64-bit tick count of an enhanced packet. -/
def ticksOf (tsHigh tsLow : BitVec 32) : ℕ := tsHigh.toNat * 2 ^ 32 + tsLow.toNat

/-- An interface description. The resolution is looked at after the link type. -/
def describeInterface (path : String) (s : State) (linktype : BitVec 32)
    (tsResolution : Option ℕ) : Except IngestError (State × Yield) :=
  match dltToLink linktype with
  | .error e => .error e
  | .ok link =>
    if s.linkType ≠ none ∧ s.linkType ≠ some link then .error .mixedLinkTypes
    else
      match tsResolution with
      | none => .error (.container path "unreadable interface timestamp resolution")
      | some ticksPerSec =>
        match nanosPerTick ticksPerSec with
        | none =>
          .error (.container path
            (s!"unsupported timestamp resolution ({ticksPerSec} ticks/s); " ++
              "M1 supports nanosecond or coarser"))
        | some npt => .ok ({ s with linkType := some link, nanosPerTick := npt }, {})

def handleBlock (lib : Etherparse) (path : String) (s : State) :
    Block → Except IngestError (State × Yield)
  | .legacyHeader network magicNumber =>
    match dltToLink network with
    | .error e => .error e
    | .ok link =>
      .ok ({ s with
        linkType := some link
        nanosPerTick := if magicNumber = NANO_MAGIC then 1 else MICRO_TICK_NS }, {})
  | .legacy tsSec tsUsec origlen data =>
    let absNs := satAdd (satMul tsSec.toNat NS_PER_SEC) (satMul tsUsec.toNat s.nanosPerTick)
    processPacket lib path s absNs origlen data
  | .interfaceDescription linktype tsResolution =>
    describeInterface path s linktype tsResolution
  | .enhancedPacket _ tsHigh tsLow origlen data =>
    processPacket lib path s (satMul (ticksOf tsHigh tsLow) s.nanosPerTick) origlen data
  -- section headers and all other blocks, simple packets among them
  | .sectionHeader | .simplePacket _ _ | .other => .ok (s, {})

/-! ### The reading loop -/

/-- The faucet between two blocks: its state, what the sinks received, and the error that
ended the reading. -/
structure Reading where
  state : State := {}
  items : List Item := []
  names : List NameObservation := []
  failed : Option IngestError := none
  deriving DecidableEq

/-- One block of the loop; nothing is read after an error. -/
def Reading.next (lib : Etherparse) (path : String) (r : Reading) (b : Block) : Reading :=
  match r.failed with
  | some _ => r
  | none =>
    match handleBlock lib path r.state b with
    | .error e => { r with failed := some e }
    | .ok (s, y) =>
      { r with state := s, items := r.items ++ y.items, names := r.names ++ y.names }

/-- The loop over the blocks of a file. -/
def readBlocks (lib : Etherparse) (path : String) (blocks : List Block) : Reading :=
  Lib.Runs.run (Reading.next lib path) {} blocks

/-- What `pcap-parser` makes of an open file: the blocks it yields, and the error that ends
them unless it is the end of the file. Refills between two blocks do not show. -/
structure Container where
  blocks : List Block
  failure : Option String := none

/-- Streams a capture into the two sinks, which received what the `Reading` holds. -/
def parseFileVisitNamed (lib : Etherparse) (path : String)
    (file : Except String (Except String Container)) :
    Reading × Except IngestError (LinkType × SkipCounts) :=
  match file with
  | .error source => ({}, .error (.opening path source))
  | .ok (.error detail) => ({}, .error (.container path detail))
  | .ok (.ok container) =>
    let r := readBlocks lib path container.blocks
    match r.failed, container.failure, r.state.linkType with
    | some e, _, _ => (r, .error e)
    | none, some detail, _ => (r, .error (.container path detail))
    | none, none, none => (r, .error (.container path "no interface or packets in capture"))
    | none, none, some link => (r, .ok (link, r.state.skipped))

structure ReplayParse where
  items : List Item
  skipped : SkipCounts
  linkType : LinkType
  names : List NameObservation

/-- Collects an entire capture. -/
def parseFile (lib : Etherparse) (path : String)
    (file : Except String (Except String Container)) : Except IngestError ReplayParse :=
  match parseFileVisitNamed lib path file with
  | (_, .error e) => .error e
  | (r, .ok (link, skipped)) => .ok ⟨r.items, skipped, link, r.names⟩

/-! ### What one block does -/

section Spec

variable {lib : Etherparse} {path : String}

/-- Reading on without an error comes from reading so far without one. -/
lemma Reading.of_next {r : Reading} {b : Block} (h : (r.next lib path b).failed = none) :
    r.failed = none ∧ ∃ s y, handleBlock lib path r.state b = .ok (s, y) ∧
      r.next lib path b =
        { r with state := s, items := r.items ++ y.items, names := r.names ++ y.names } := by
  unfold Reading.next at h ⊢
  split at h
  · next e he => simp [he] at h
  · next hr =>
      refine ⟨hr, ?_⟩
      split at h
      · simp at h
      · next s y hok => exact ⟨s, y, hok, by rw [hr]⟩

/-- A file that was read to its end without an error was so after every block. -/
lemma always_not_failed {blocks : List Block} (h : (readBlocks lib path blocks).failed = none) :
    Lib.Runs.Always (Reading.next lib path) {} (fun r => r.failed = none) blocks :=
  Lib.Runs.always_of_last (P := fun r : Reading => r.failed = none)
    (fun _ _ h => (Reading.of_next h).1) h

/-- What success of the whole says. -/
lemma of_parse_ok {c : Container} {r : Reading} {link : LinkType} {skipped : SkipCounts}
    (h : parseFileVisitNamed lib path (.ok (.ok c)) = (r, .ok (link, skipped))) :
    r = readBlocks lib path c.blocks ∧ r.failed = none ∧ skipped = r.state.skipped := by
  unfold parseFileVisitNamed at h
  simp only at h
  split at h
  · simp at h
  · simp at h
  · simp at h
  · next link' hf _ _ =>
      obtain ⟨rfl, hlink⟩ := Prod.mk.inj h
      obtain ⟨-, rfl⟩ := Prod.mk.inj (Except.ok.inj hlink)
      exact ⟨rfl, hf, rfl⟩

/-- What a packet's processing comes to when it does not fail. -/
lemma processPacket_ok {s s' : State} {y : Yield} {absNs : ℕ} {origlen : BitVec 32}
    {data : Frame} (h : processPacket lib path s absNs origlen data = .ok (s', y)) :
    (∃ seg, y = { items := [.segment seg] } ∧ s'.skipped = s.skipped) ∨
    (∃ obs, obs ≠ [] ∧ y = { names := obs } ∧ s'.skipped = s.skipped) ∨
    (∃ reason, y = {} ∧ s'.skipped = s.skipped.record reason) := by
  unfold processPacket at h
  simp only at h
  split at h
  · simp at h
  · split at h
    · next seg _ =>
        obtain ⟨rfl, rfl⟩ := Prod.mk.inj (Except.ok.inj h)
        exact .inl ⟨seg, rfl, rfl⟩
    · next obs hobs =>
        obtain ⟨rfl, rfl⟩ := Prod.mk.inj (Except.ok.inj h)
        exact .inr (.inl ⟨obs, names_ne_nil hobs, rfl, rfl⟩)
    · next reason _ =>
        obtain ⟨rfl, rfl⟩ := Prod.mk.inj (Except.ok.inj h)
        exact .inr (.inr ⟨reason, rfl, rfl⟩)

/-- An interface description touches the link type and the scale only. -/
lemma describeInterface_ok {s s' : State} {y : Yield} {linktype : BitVec 32}
    {tsResolution : Option ℕ} (h : describeInterface path s linktype tsResolution = .ok (s', y)) :
    ∃ link npt, dltToLink linktype = .ok link ∧ tsResolution.bind nanosPerTick = some npt ∧
      y = {} ∧ s' = { s with linkType := some link, nanosPerTick := npt } := by
  unfold describeInterface at h
  split at h
  · simp at h
  · next link hlink =>
      split_ifs at h
      split at h
      · simp at h
      · next ticksPerSec =>
          split at h
          · simp at h
          · next npt hnpt =>
              obtain ⟨rfl, rfl⟩ := Prod.mk.inj (Except.ok.inj h)
              exact ⟨link, npt, hlink, hnpt, rfl, rfl⟩

end Spec

end TcpVisr
