import TcpVisr.Capture
import TcpVisr.Controls
import TcpVisr.Frames
import TcpVisr.Lib.Channel

/-!
Live capture: the capture thread, the UI thread, and what passes between them.

The capture thread looks at the stop flag, waits for its handle to return, and sends what the
read comes to without waiting; what finds the channel full is dropped and counted. The UI
thread polls for a key, then drains the channel into the tracker, loads the two counters and
retargets the app to a snapshot. A run is any order in which the steps of the two can come,
with any values the loads can return.
-/

namespace TcpVisr

open Lib.Runs Lib.Channel

/-- The counters the capture thread adds to and the UI thread loads. -/
inductive Counter
  | dropped | skips
  deriving DecidableEq

/-- The bound of the channel. -/
def channelBound : ℕ := 65536

/-- Five seconds. -/
def LIVE_GRACE : ℕ := 5 * NS_PER_SEC

/-- The advisory of a capture that has produced no packets past the grace window. -/
def graceHint (firstPacketSeen : Bool) (elapsed : ℕ) : Option String :=
  if firstPacketSeen || elapsed < LIVE_GRACE then none
  else some "no packets yet — check privileges, interface, or filter"

/-- The configuration of live capture. -/
def liveEngineConfig (retentionSecs : ℕ) : EngineConfig where
  collectStateTimeline := true
  collectSeqTimeline := true
  collectInflightTimeline := true
  collectRttTimeline := true
  collectThroughputTimeline := true
  seriesCollection := .all
  retention := .evict (Nanos.sat (retentionSecs * NS_PER_SEC)) 2000000

def App.setTitle (app : App) (title : String) : App := { app with title }

/-- What a live session is started with. -/
structure Session where
  build : Build
  lib : Etherparse
  lower : String → String
  capture : LiveCapture
  iface : String
  retentionSecs : ℕ

/-- Where the UI thread stands: before it polls, while it drains, and before it loads either
counter. -/
inductive Phase
  | poll | drain | count
  | status (dropped : ℕ)
  deriving DecidableEq

/-- The two threads. The capture thread is `waiting` while it is inside `next_packet`; `pending`
are the events of its last read that are yet to be sent; it has `halted` once it saw the flag.
`reads` is a ghost. -/
structure Pipeline where
  loop : LiveCapture.Loop := {}
  waiting : Bool := false
  pending : List LiveCapture.LiveEvent := []
  halted : Bool := false
  link : Link LiveCapture.LiveEvent Counter := {}
  stop : Bool := false
  phase : Phase := .poll
  firstPacket : Bool := false
  live : Live
  reads : List Read := []

/-- A step of either thread. -/
inductive Action
  -- the capture thread: a look at the flag that finds it unset and the call of `next_packet`,
  -- what that returns, one `on_event`, and a look that finds the flag set
  | wait
  | read (r : Read)
  | send
  | halt
  -- the UI thread: a poll, or an I/O error of it; one `try_recv`, the last one; the two loads
  | key (key : KeyEvent)
  | idle
  | fail
  | recv
  | drained
  | loadDropped (n : ℕ)
  | loadSkips (n elapsed : ℕ)
  deriving DecidableEq

namespace Session

variable (ses : Session)

def config : EngineConfig := liveEngineConfig ses.retentionSecs

def baseTitle : String := "tcp-visr — live " ++ ses.iface

def title (firstPacketSeen : Bool) (elapsed : ℕ) : String :=
  match graceHint firstPacketSeen elapsed with
  | some hint => ses.baseTitle ++ "  [" ++ hint ++ "]"
  | none => ses.baseTitle

/-- What the capture loop makes of its reads. -/
def captured (reads : List Read) : LiveCapture.Captured :=
  LiveCapture.runLoop ses.build ses.lib ses.capture reads

end Session

namespace Pipeline

/-- The value of a `u64` counter that has been added to `n` times. -/
def word (n : ℕ) : ℕ := n % 2 ^ 64

/-- The `LiveStatus` of the two counters as loaded. -/
def statusOf (dropped skips : ℕ) : LiveStatus where
  dropped := word dropped
  approximate := 0 < word dropped
  skipped := word skips

section Step

variable (ses : Session)

def start : Pipeline where
  live := Live.new ses.lower {} ses.baseTitle

/-- The rest of a pass of the capture loop, once `next_packet` has returned. -/
def readOne (s : Pipeline) (r : Read) : Pipeline :=
  let (loop, events) := LiveCapture.pass ses.build ses.lib ses.capture s.loop r
  { s with
    loop
    waiting := false
    pending := events
    link := if loop.diagnosticSkips = s.loop.diagnosticSkips then s.link else s.link.bump .skips
    reads := s.reads ++ [r] }

/-- `try_send_or_count` of the next event. -/
def sendOne (s : Pipeline) : Pipeline :=
  match s.pending with
  | [] => s
  | ev :: pending => { s with pending, link := s.link.offer channelBound .dropped ev }

/-- A key press; `q` leaves the loop, whose guard then stops the capture thread. -/
def pressKey (s : Pipeline) (key : KeyEvent) : Pipeline :=
  let (app, outcome) := handleKey ses.lower s.live.app key
  { s with
    live := { s.live with app }
    stop := outcome = .quit
    phase := .drain }

/-- An event received. -/
def fold (s : Pipeline) : LiveCapture.LiveEvent → Pipeline
  | .item x =>
    { s with
      firstPacket := s.firstPacket || (LiveCapture.LiveEvent.item x).segment?.isSome
      live := s.live.step ses.lower ses.config (.item x) }
  | .name obs => { s with live := s.live.step ses.lower ses.config (.name obs) }

/-- One `try_recv`. -/
def recvOne (s : Pipeline) : Pipeline :=
  match s.link.queue with
  | [] => s
  | m :: _ => { s.fold ses m.body with link := s.link.take }

/-- The rest of `next_frame`, once both counters are loaded. -/
def showFrame (s : Pipeline) (dropped skips elapsed : ℕ) : Pipeline :=
  let t := s.live.tracker
  let live := s.live.step ses.lower ses.config
    (.frame (t.retentionHorizon ses.config) t.now (statusOf dropped skips))
  { s with
    live := { live with app := live.app.setTitle (ses.title s.firstPacket elapsed) }
    phase := .poll }

def step (s : Pipeline) : Action → Pipeline
  | .wait => { s with waiting := true }
  | .read r => s.readOne ses r
  | .send => s.sendOne
  | .halt => { s with halted := true }
  | .key key => s.pressKey ses key
  | .idle => { s with phase := .drain }
  | .fail => { s with stop := true }
  | .recv => s.recvOne ses
  | .drained => { s with phase := .count }
  | .loadDropped n => { s with link := s.link.load .dropped n, phase := .status n }
  | .loadSkips n elapsed =>
    match s.phase with
    | .status dropped => { s with link := s.link.load .skips n }.showFrame ses dropped n elapsed
    | _ => s

end Step

/-- The capture thread stands at the head of its loop. -/
def AtHead (s : Pipeline) : Prop :=
  s.loop.running = true ∧ s.halted = false ∧ s.waiting = false ∧ s.pending = []

instance (s : Pipeline) : Decidable s.AtHead := inferInstanceAs (Decidable (_ ∧ _ ∧ _ ∧ _))

/-- When a step can come. The capture thread may see `stop` late, never early; and it sees it
only between two reads. -/
def Enabled (s : Pipeline) : Action → Prop
  | .wait => s.AtHead
  | .read _ => s.waiting = true
  | .send => s.pending ≠ []
  | .halt => s.stop = true ∧ s.AtHead
  | .key _ | .idle | .fail => s.stop = false ∧ s.phase = .poll
  | .recv => s.stop = false ∧ s.phase = .drain ∧ s.link.queue ≠ []
  | .drained => s.stop = false ∧ s.phase = .drain ∧ s.link.queue = []
  | .loadDropped n => s.stop = false ∧ s.phase = .count ∧ s.link.Loads .dropped n
  | .loadSkips n _ =>
    s.stop = false ∧ (∃ dropped, s.phase = .status dropped) ∧ s.link.Loads .skips n

/-- The runs of a session. -/
abbrev Runs (ses : Session) (acts : List Action) : Prop :=
  Steps (step ses) (start ses) Enabled acts

/-- The state a run ends in. -/
abbrev after (ses : Session) (acts : List Action) : Pipeline := run (step ses) (start ses) acts

instance (s : Pipeline) : ∀ a, Decidable (Enabled s a)
  | .wait => inferInstanceAs (Decidable s.AtHead)
  | .read _ => inferInstanceAs (Decidable (_ = _))
  | .send => inferInstanceAs (Decidable (_ ≠ _))
  | .halt => inferInstanceAs (Decidable (_ ∧ _))
  | .key _ | .idle | .fail => inferInstanceAs (Decidable (_ ∧ _))
  | .recv => decidable_of_iff (s.stop = false ∧ s.phase = .drain ∧ s.link.queue.isEmpty = false)
      (by simp [Enabled])
  | .drained => decidable_of_iff (s.stop = false ∧ s.phase = .drain ∧ s.link.queue.isEmpty = true)
      (by simp [Enabled])
  | .loadDropped _ => inferInstanceAs (Decidable (_ ∧ _ ∧ _))
  | .loadSkips _ _ =>
    have : Decidable (∃ dropped, s.phase = .status dropped) :=
      match s.phase with
      | .status n => isTrue ⟨n, rfl⟩
      | .poll | .drain | .count => isFalse (by simp)
    inferInstanceAs (Decidable (_ ∧ _ ∧ _))

/-! ### The invariant -/

/-- Stamps published when the offers were `l`: the skips of reads that `l` comes from. -/
def Published (ses : Session) (reads : List Read) (l : List LiveCapture.LiveEvent)
    (stamp : Counter → ℕ) : Prop :=
  ∃ r, r <+: reads ∧ l <+: (ses.captured r).events ∧
    stamp .skips = (ses.captured r).loop.diagnosticSkips

/-- What holds of the two threads in every interleaving. -/
structure Good (ses : Session) (s : Pipeline) : Prop where
  loop : s.loop = (ses.captured s.reads).loop
  waits : s.waiting = true → s.loop.running = true ∧ s.pending = []
  events : s.link.offered ++ s.pending = (ses.captured s.reads).events
  skips : s.link.counts .skips = s.loop.diagnosticSkips
  link : Sound channelBound (Published ses s.reads) .dropped s.link
  tracker : s.live.tracker =
    Tracker.track ses.config (s.link.received.filterMap LiveCapture.LiveEvent.item?)
  firstPacket : s.firstPacket = s.link.received.any fun ev => ev.segment?.isSome
  loaded : ∀ n, s.phase = .status n → s.link.seen .dropped = n

section Steps

variable {ses : Session} {s : Pipeline}

lemma Published.mono {reads : List Read} (r : Read) {l : List LiveCapture.LiveEvent}
    {stamp : Counter → ℕ} (h : Published ses reads l stamp) :
    Published ses (reads ++ [r]) l stamp := by
  obtain ⟨r', hr, hrest⟩ := h
  exact ⟨r', hr.trans (List.prefix_append _ _), hrest⟩

lemma captured_snoc (reads : List Read) (r : Read)
    (h : (ses.captured reads).loop.running = true) :
    ses.captured (reads ++ [r]) =
      ⟨(LiveCapture.pass ses.build ses.lib ses.capture (ses.captured reads).loop r).1,
        (ses.captured reads).events ++
          (LiveCapture.pass ses.build ses.lib ses.capture (ses.captured reads).loop r).2⟩ := by
  have hsnoc : ses.captured (reads ++ [r]) =
      (ses.captured reads).next ses.build ses.lib ses.capture r := run_snoc _ _ reads r
  rw [hsnoc, LiveCapture.next_of_running h]

/-- A pass diagnoses one skip or none. -/
lemma diagnosticSkips_pass (ses : Session) (t : LiveCapture.Loop) (r : Read) :
    (LiveCapture.pass ses.build ses.lib ses.capture t r).1.diagnosticSkips = t.diagnosticSkips ∨
      (LiveCapture.pass ses.build ses.lib ses.capture t r).1.diagnosticSkips =
        t.diagnosticSkips + 1 := by
  cases r with
  | packet p =>
      cases hns : ses.capture.absNs ses.build p with
      | none =>
          rw [LiveCapture.pass_panics hns]
          exact .inl rfl
      | some absNs =>
          rw [LiveCapture.pass_packet hns, LiveCapture.arrive]
          cases decodeFrame ses.lib ses.capture.link (normalizeTs absNs t.baseline).1 p.data
            p.len with
          | decoded seg => exact .inl rfl
          | names obs => exact .inl rfl
          | skipped reason =>
              simp only [LiveCapture.dispatch]
              cases LiveCapture.diagnostic reason with
              | false => exact .inl rfl
              | true => exact .inr rfl
  | timeoutExpired sinceEpoch => exact .inl rfl
  | failed => exact .inl rfl

lemma good_start (ses : Session) : Good ses (start ses) :=
  ⟨rfl, by simp [start], rfl, rfl, .new, rfl, rfl, by simp [start]⟩

lemma good_readOne (h : Good ses s) (hrun : s.loop.running = true) (hpend : s.pending = [])
    (r : Read) : Good ses (s.readOne ses r) := by
  have hcap := captured_snoc s.reads r (h.loop ▸ hrun)
  rw [← h.loop, ← h.events, hpend, List.append_nil] at hcap
  have hlink := h.link.mono fun _ _ => Published.mono r
  unfold readOne
  dsimp only
  rcases diagnosticSkips_pass ses s.loop r with hsame | hmore
  · rw [if_pos hsame]
    exact ⟨by rw [hcap], by simp, by rw [hcap], h.skips.trans hsame.symm, hlink, h.tracker,
      h.firstPacket, h.loaded⟩
  · rw [if_neg (by omega)]
    refine ⟨by rw [hcap], by simp, by rw [hcap]; rfl, ?_, hlink.bump (by decide), h.tracker,
      h.firstPacket, h.loaded⟩
    rw [hmore, ← h.skips]
    exact Link.counts_bump_self _ _

lemma good_sendOne (h : Good ses s) : Good ses s.sendOne := by
  unfold sendOne
  split
  · exact h
  · next ev pending hpend =>
      have hev := h.events
      rw [hpend] at hev
      have hpub : Published ses s.reads (s.link.offered ++ [ev]) s.link.counts := by
        refine ⟨s.reads, List.prefix_rfl, ⟨pending, ?_⟩, h.skips.trans (by rw [h.loop])⟩
        rw [List.append_assoc]
        exact hev
      have hlink := h.link.offer hpub
      have hreceived : (s.link.offer channelBound .dropped ev).received = s.link.received := by
        rw [Link.received, Link.taken_offer]
        rfl
      refine ⟨h.loop, fun hw => ?_, ?_, ?_, h.link.offer hpub, ?_, ?_, fun n hn => ?_⟩
      · exact absurd (hpend.symm.trans (h.waits hw).2) (by simp)
      · rw [Link.offered_offer, List.append_assoc]
        exact hev
      · rw [Link.counts_offer (by simp)]
        exact h.skips
      · exact h.tracker.trans (by rw [hreceived])
      · exact h.firstPacket.trans (by rw [hreceived])
      · rw [Link.seen_offer]
        exact h.loaded n hn

lemma good_pressKey (h : Good ses s) (key : KeyEvent) : Good ses (s.pressKey ses key) :=
  ⟨h.loop, h.waits, h.events, h.skips, h.link, h.tracker, h.firstPacket, by simp [pressKey]⟩

lemma good_recvOne (h : Good ses s) (hphase : s.phase = .drain) : Good ses (s.recvOne ses) := by
  unfold recvOne
  split
  · exact h
  · next m queue hq =>
      have hreceived := Link.received_take hq
      have hcounts := Link.counts_take s.link
      have hoffered := Link.offered_take s.link
      cases hm : m.body with
      | item x =>
          refine ⟨h.loop, h.waits, ?_, ?_, h.link.take, ?_, ?_, fun n hn => ?_⟩
          · exact hoffered ▸ h.events
          · exact hcounts ▸ h.skips
          · change s.live.tracker.observe ses.config x = _
            rw [hreceived, hm, List.filterMap_append, h.tracker]
            exact (Tracker.track_snoc _ _ _).symm
          · change (s.firstPacket || _) = _
            rw [hreceived, hm, List.any_append, h.firstPacket]
            simp
          · exact absurd (hphase.symm.trans hn) (by simp)
      | name obs =>
          refine ⟨h.loop, h.waits, ?_, ?_, h.link.take, ?_, ?_, fun n hn => ?_⟩
          · exact hoffered ▸ h.events
          · exact hcounts ▸ h.skips
          · change s.live.tracker = _
            rw [hreceived, hm, List.filterMap_append, h.tracker]
            exact congrArg _ (List.append_nil _).symm
          · change s.firstPacket = _
            rw [hreceived, hm, List.any_append, h.firstPacket]
            exact (Bool.or_false _).symm
          · exact absurd (hphase.symm.trans hn) (by simp)

lemma good_load (h : Good ses s) {i : Counter} {n : ℕ} (hn : s.link.Loads i n)
    (hi : ∀ n, s.phase = .status n → i ≠ .dropped) :
    Good ses { s with link := s.link.load i n } := by
  refine ⟨h.loop, h.waits, h.events, h.skips, h.link.load hn, h.tracker, h.firstPacket,
    fun m hm => ?_⟩
  rw [Link.seen_load_of_ne (hi m hm).symm]
  exact h.loaded m hm

/-- Every step of either thread keeps the invariant. -/
lemma good_step (h : Good ses s) (a : Action) (ha : s.Enabled a) : Good ses (s.step ses a) := by
  cases a with
  | wait =>
      exact ⟨h.loop, fun _ => ⟨ha.1, ha.2.2.2⟩, h.events, h.skips, h.link, h.tracker,
        h.firstPacket, h.loaded⟩
  | read r =>
      obtain ⟨hrun, hpend⟩ := h.waits ha
      exact good_readOne h hrun hpend r
  | send => exact good_sendOne h
  | halt =>
      exact ⟨h.loop, h.waits, h.events, h.skips, h.link, h.tracker, h.firstPacket, h.loaded⟩
  | key key => exact good_pressKey h key
  | idle =>
      exact ⟨h.loop, h.waits, h.events, h.skips, h.link, h.tracker, h.firstPacket,
        by simp [step]⟩
  | fail =>
      exact ⟨h.loop, h.waits, h.events, h.skips, h.link, h.tracker, h.firstPacket, h.loaded⟩
  | recv => exact good_recvOne h ha.2.1
  | drained =>
      exact ⟨h.loop, h.waits, h.events, h.skips, h.link, h.tracker, h.firstPacket,
        by simp [step]⟩
  | loadDropped n =>
      refine ⟨h.loop, h.waits, h.events, h.skips, h.link.load ha.2.2, h.tracker, h.firstPacket,
        fun m hm => ?_⟩
      obtain rfl : n = m := by simpa [step] using hm
      exact Link.seen_load_self _ _ _
  | loadSkips n elapsed =>
      obtain ⟨-, ⟨dropped, hphase⟩, hload⟩ := ha
      have hg := good_load h hload fun _ _ => by simp
      simp only [step, hphase]
      exact ⟨hg.loop, hg.waits, hg.events, hg.skips, hg.link, hg.tracker, hg.firstPacket,
        by simp [showFrame]⟩

lemma good_after {acts : List Action} (h : Runs ses acts) : Good ses (after ses acts) :=
  inv_of_steps (good_start ses) (fun _ a hs ha => good_step hs a ha) h

/-! ### What a frame says -/

/-- What the frame in `s`, made `elapsed` after the start, says of the capture behind it.

The tracker has folded the events received. They are among the first events captured, which
are at most as many more as the header says were dropped; and the reads those events came
from made no more skips than the header says. Neither number is ahead of what has happened. -/
structure Honest (ses : Session) (elapsed : ℕ) (s : Pipeline) : Prop where
  timeline : s.live.app.timeline = (Tracker.track ses.config
    (s.link.received.filterMap LiveCapture.LiveEvent.item?)).snapshot
  account : ∃ p r, r <+: s.reads ∧ p <+: s.link.offered ∧ p <+: (ses.captured r).events ∧
    s.link.received.Sublist p ∧
    p.length ≤ s.link.received.length + s.live.app.liveStatus.dropped ∧
    (ses.captured r).loop.diagnosticSkips ≤ s.live.app.liveStatus.skipped
  dropped_le : s.live.app.liveStatus.dropped ≤ s.link.counts .dropped
  skipped_le : s.live.app.liveStatus.skipped ≤ s.loop.diagnosticSkips
  exact : s.live.app.liveStatus.approximate = false →
    s.link.received <+: (ses.captured s.reads).events
  title : s.live.app.title =
    ses.title (s.link.received.any fun ev => ev.segment?.isSome) elapsed

lemma word_of_lt {n : ℕ} (h : n < 2 ^ 64) : word n = n := Nat.mod_eq_of_lt h

/-- A pass makes at most one skip. -/
lemma diagnosticSkips_le (ses : Session) (reads : List Read) :
    (ses.captured reads).loop.diagnosticSkips ≤ reads.length := by
  induction reads using List.reverseRecOn with
  | nil => exact le_rfl
  | append_singleton p r ih =>
      rw [List.length_append, List.length_singleton]
      cases hrun : (ses.captured p).loop.running with
      | true =>
          rw [captured_snoc p r hrun]
          rcases diagnosticSkips_pass ses (ses.captured p).loop r with h | h
          · exact h.le.trans (ih.trans (Nat.le_succ _))
          · exact h.le.trans (Nat.succ_le_succ ih)
      | false =>
          have hsnoc : ses.captured (p ++ [r]) = ses.captured p :=
            (run_snoc _ _ p r).trans (LiveCapture.next_of_ended hrun)
          rw [hsnoc]
          exact ih.trans (Nat.le_succ _)

lemma counts_lt {n : ℕ} (h : Good ses s) (ho : s.link.offered.length < n)
    (hr : s.reads.length < n) : s.link.counts .dropped < n ∧ s.link.counts .skips < n := by
  have hbal := h.link.balance
  have hle := diagnosticSkips_le ses s.reads
  rw [← h.loop, ← h.skips] at hle
  omega

/-- A run that ends with both counters loaded ends with a frame. -/
lemma after_loadSkips {acts : List Action} {dropped : ℕ}
    (hphase : (after ses acts).phase = .status dropped) (n elapsed : ℕ) :
    after ses (acts ++ [.loadSkips n elapsed]) =
      { after ses acts with link := (after ses acts).link.load .skips n }.showFrame ses dropped n
        elapsed := by
  refine (run_snoc _ _ acts _).trans ?_
  simp only [step, hphase]

/-- The app a frame leaves. -/
lemma given_showFrame (ses : Session) (s : Pipeline) (dropped skips elapsed : ℕ) :
    (s.showFrame ses dropped skips elapsed).live.app.timeline = s.live.tracker.snapshot ∧
      (s.showFrame ses dropped skips elapsed).live.app.liveStatus = statusOf dropped skips ∧
      (s.showFrame ses dropped skips elapsed).live.app.title =
        ses.title s.firstPacket elapsed := by
  have hgiven := App.given_retarget ses.lower s.live.app s.live.tracker.snapshot
    (s.live.tracker.retentionHorizon ses.config) s.live.tracker.now (statusOf dropped skips)
  exact ⟨congrArg Given.timeline hgiven, congrArg Given.liveStatus hgiven, rfl⟩

/-- What was received, against the counts that were loaded. -/
lemma Good.account (hg : Good ses s) {dropped n : ℕ} (hseen : s.link.seen .dropped = dropped)
    (hload : s.link.Loads .skips n) :
    ∃ p r, r <+: s.reads ∧ p <+: s.link.offered ∧ p <+: (ses.captured r).events ∧
      s.link.received.Sublist p ∧ p.length ≤ s.link.received.length + dropped ∧
      (ses.captured r).loop.diagnosticSkips ≤ n := by
  obtain ⟨p, hp, hsub, hlen, hpub⟩ := hg.link.accounted hseen.le
  rcases hpub with rfl | ⟨stamp, hstamp, r, hrp, hpr, hskips⟩
  · exact ⟨[], [], List.nil_prefix, List.nil_prefix, List.nil_prefix, hsub, Nat.zero_le _,
      Nat.zero_le _⟩
  · refine ⟨p, r, hrp, hp, hpr, hsub, ?_, ?_⟩
    · have hlen' : s.link.received.length = s.link.taken.length := List.length_map _
      rw [hlen']
      exact hlen
    · exact hskips ▸ (hstamp .skips).trans hload.1

/-- **Frames are honest.** Whatever the order in which the two threads ran, and whatever the
loads returned, a frame shows the tracker of the events received, and its header accounts for
what is missing from them. A frame that is not marked approximate is missing nothing: it shows
an initial part of all that was captured. -/
theorem honest_frame (ses : Session) {acts : List Action} {n elapsed : ℕ}
    (h : Runs ses (acts ++ [.loadSkips n elapsed]))
    (ho : (after ses acts).link.offered.length < 2 ^ 64)
    (hr : (after ses acts).reads.length < 2 ^ 64) :
    Honest ses elapsed (after ses (acts ++ [.loadSkips n elapsed])) := by
  obtain ⟨hacts, -, ⟨dropped, hphase⟩, hload⟩ := steps_snoc.mp h
  have hg := good_after hacts
  rw [after_loadSkips hphase n elapsed]
  change (after ses acts).link.Loads .skips n at hload
  change (after ses acts).phase = .status dropped at hphase
  generalize after ses acts = s at hg ho hr hphase hload
  obtain ⟨hdl, hsl⟩ := counts_lt hg ho hr
  have hseen : s.link.seen .dropped = dropped := hg.loaded dropped hphase
  have hdle : dropped ≤ s.link.counts .dropped := hseen ▸ hg.link.seen_le .dropped
  have hd : word dropped = dropped := word_of_lt (hdle.trans_lt hdl)
  have hn : word n = n := word_of_lt (hload.2.trans_lt hsl)
  obtain ⟨htl, hst, hti⟩ := given_showFrame ses
    { s with link := s.link.load .skips n } dropped n elapsed
  refine ⟨?_, ?_, ?_, ?_, fun happrox => ?_, ?_⟩
  · rw [htl, hg.tracker]
    rfl
  · rw [hst]
    simp only [statusOf, hd, hn]
    exact hg.account hseen hload
  · rw [hst]
    simp only [statusOf, hd]
    exact hdle
  · rw [hst]
    simp only [statusOf, hn]
    exact hload.2.trans hg.skips.le
  · rw [hst] at happrox
    simp only [statusOf, hd, decide_eq_false_iff_not, not_lt, Nat.le_zero] at happrox
    have hpre := hg.link.exact_of_seen_zero (hseen.trans happrox)
    exact hpre.trans (hg.events ▸ List.prefix_append _ _)
  · rw [hti, hg.firstPacket]
    rfl

/-- A session on raw IP with a minute's retention. -/
def rawSession : Session where
  build := .debug
  lib := headerSlicer
  lower := String.toLower
  capture := ⟨.rawIp, false⟩
  iface := "eth0"
  retentionSecs := 60

/-- A first frame, of one packet. The skip that comes after it is counted, but the load of the
count comes too early to see it. -/
def firstFrame : List Action :=
  [.wait, .read (.packet ⟨0, 0, 40#32, synPacket⟩), .send, .wait,
    .read (.packet ⟨0, 1, 1#32, [0x45]⟩), .idle, .recv, .drained, .loadDropped 0, .loadSkips 0 1]

/-- A second frame, up to its last load. A tick has come too late for it, and the capture thread
waits for the next read. -/
def secondFrame : List Action :=
  [.wait, .read (.packet ⟨0, 5, 40#32, synPacket⟩), .send, .key ⟨.char ' ', false⟩, .recv,
    .drained, .wait, .read (.timeoutExpired (some 7000)), .send, .wait, .loadDropped 0]

theorem honest_frame_second :
    let s := after rawSession (firstFrame ++ secondFrame ++ [.loadSkips 1 2])
    Honest rawSession 2 s ∧ s.link.received.length = 2 ∧ s.link.queue.length = 1 ∧
      s.live.app.liveStatus.skipped = 1 :=
  ⟨honest_frame rawSession (by decide +kernel) (by decide +kernel) (by decide +kernel),
    by decide +kernel, by decide +kernel, by decide +kernel⟩

/-! ### The two threads together -/

/-- **Refinement.** In every interleaving the capture thread has handed over, but for the
events still pending, what the capture loop by itself makes of the same reads; what the UI
thread has folded and what is under way are some of it, in order; as many events as the
counter says are missing; and the channel never holds more than its bound. -/
theorem refines_loop (ses : Session) {acts : List Action} (h : Runs ses acts) :
    let s := after ses acts
    s.loop = (ses.captured s.reads).loop ∧
      s.link.offered ++ s.pending = (ses.captured s.reads).events ∧
      (s.link.received ++ s.link.queue.map Msg.body).Sublist s.link.offered ∧
      s.link.received.length + s.link.queue.length + s.link.counts .dropped =
        s.link.offered.length ∧
      s.link.queue.length ≤ channelBound ∧
      s.live.tracker = Tracker.track ses.config
        (s.link.received.filterMap LiveCapture.LiveEvent.item?) := by
  have hg := good_after h
  refine ⟨hg.loop, hg.events, ?_, ?_, hg.link.room, hg.tracker⟩
  · have hsub := hg.link.transcript.sublist
    rwa [Link.through, List.map_append] at hsub
  · rw [Link.received, List.length_map]
    exact hg.link.balance

theorem refines_loop_second :
    let s := after rawSession (firstFrame ++ secondFrame)
    s.loop = (rawSession.captured s.reads).loop ∧
      s.link.offered ++ s.pending = (rawSession.captured s.reads).events ∧
      (s.link.received ++ s.link.queue.map Msg.body).Sublist s.link.offered ∧
      s.link.received.length + s.link.queue.length + s.link.counts .dropped =
        s.link.offered.length ∧
      s.link.queue.length ≤ channelBound ∧
      s.live.tracker = Tracker.track rawSession.config
        (s.link.received.filterMap LiveCapture.LiveEvent.item?) :=
  refines_loop rawSession (by decide +kernel)

/-- What the header shows was loaded from the counters at some time. -/
def Loaded (d k : ℕ) (s : Pipeline) : Prop :=
  ∃ d' k', s.live.app.liveStatus = statusOf d' k' ∧ d ≤ d' ∧ k ≤ k' ∧
    d' ≤ s.link.seen .dropped ∧ k' ≤ s.link.seen .skips

lemma seen_take_le (l : Link LiveCapture.LiveEvent Counter) (i : Counter) :
    l.seen i ≤ l.take.seen i := by
  unfold Link.take
  split
  · exact le_rfl
  · exact le_max_left _ _

lemma Loaded.seen {d k : ℕ} {s s' : Pipeline} (h : Loaded d k s)
    (hst : s'.live.app.liveStatus = s.live.app.liveStatus)
    (hseen : ∀ i, s.link.seen i ≤ s'.link.seen i) : Loaded d k s' := by
  obtain ⟨d', k', h1, h2, h3, h4, h5⟩ := h
  exact ⟨d', k', hst.trans h1, h2, h3, h4.trans (hseen _), h5.trans (hseen _)⟩

/-- A load sees no less than was seen before. -/
lemma seen_le_load {l : Link LiveCapture.LiveEvent Counter} {i : Counter} {n : ℕ}
    (hn : l.Loads i n) (j : Counter) : l.seen j ≤ (l.load i n).seen j := by
  by_cases hj : j = i
  · subst hj
    rw [Link.seen_load_self]
    exact hn.1
  · rw [Link.seen_load_of_ne hj]

lemma seen_readOne (s : Pipeline) (r : Read) : (s.readOne ses r).link.seen = s.link.seen := by
  unfold readOne
  dsimp only
  split_ifs <;> rfl

lemma loaded_step {d k : ℕ} (hg : Good ses s) (h : Loaded d k s) (a : Action)
    (ha : s.Enabled a) : Loaded d k (s.step ses a) := by
  cases a with
  | wait => exact h.seen rfl fun i => le_rfl
  | read r =>
      refine h.seen rfl fun i => ?_
      change _ ≤ (s.readOne ses r).link.seen i
      rw [seen_readOne]
  | send =>
      change Loaded d k s.sendOne
      unfold sendOne
      split
      · exact h
      · exact h.seen rfl fun i => by rw [Link.seen_offer]
  | halt => exact h.seen rfl fun i => le_rfl
  | key key =>
      refine h.seen ?_ fun i => le_rfl
      exact congrArg Given.liveStatus (App.given_key ses.lower s.live.app key)
  | idle => exact h.seen rfl fun i => le_rfl
  | fail => exact h.seen rfl fun i => le_rfl
  | recv =>
      change Loaded d k (s.recvOne ses)
      unfold recvOne
      split
      · exact h
      · next m queue hq =>
          refine h.seen ?_ (seen_take_le s.link)
          cases hm : m.body <;> rfl
  | drained => exact h.seen rfl fun i => le_rfl
  | loadDropped n => exact h.seen rfl (seen_le_load ha.2.2)
  | loadSkips n elapsed =>
      obtain ⟨-, ⟨dropped, hphase⟩, hload⟩ := ha
      obtain ⟨d', k', h1, h2, h3, h4, h5⟩ := h
      have hst := (given_showFrame ses { s with link := s.link.load .skips n } dropped n
        elapsed).2.1
      have hseen : s.link.seen .dropped = dropped := hg.loaded dropped hphase
      simp only [step, hphase]
      refine ⟨dropped, n, hst, h2.trans (hseen ▸ h4), h3.trans (h5.trans hload.1), ?_, ?_⟩
      · change dropped ≤ (s.link.load .skips n).seen .dropped
        rw [Link.seen_load_of_ne (by simp), hseen]
      · change n ≤ (s.link.load .skips n).seen .skips
        rw [Link.seen_load_self]

/-- **The header never takes anything back.** As a session goes on, neither number of the
header goes down, and a frame marked approximate is never followed by one that is not. -/
theorem header_monotone (ses : Session) {acts more : List Action}
    (h : Runs ses (acts ++ more))
    (ho : (after ses (acts ++ more)).link.offered.length < 2 ^ 64)
    (hr : (after ses (acts ++ more)).reads.length < 2 ^ 64) :
    let before := (after ses acts).live.app.liveStatus
    let later := (after ses (acts ++ more)).live.app.liveStatus
    before.dropped ≤ later.dropped ∧ before.skipped ≤ later.skipped ∧
      (before.approximate = true → later.approximate = true) := by
  intro before later
  have hg := good_after h
  obtain ⟨hacts, hmore⟩ := steps_append.mp h
  have hstart : Loaded 0 0 (start ses) := ⟨0, 0, rfl, le_rfl, le_rfl, le_rfl, le_rfl⟩
  have hrule : ∀ {d k : ℕ} {s : Pipeline} {acts : List Action}, Good ses s → Loaded d k s →
      Steps (step ses) s Enabled acts → Loaded d k (run (step ses) s acts) := by
    intro d k s acts hs hl hsteps
    exact (inv_of_steps (P := fun s => Good ses s ∧ Loaded d k s) ⟨hs, hl⟩
      (fun s a hi ha => ⟨good_step hi.1 a ha, loaded_step hi.1 hi.2 a ha⟩) hsteps).2
  obtain ⟨d, k, hst, -, -, hd, hk⟩ := hrule (good_start ses) hstart hacts
  obtain ⟨d', k', hst', hdd, hkk, hd', hk'⟩ :=
    hrule (good_after hacts) ⟨d, k, hst, le_rfl, le_rfl, hd, hk⟩ hmore
  rw [← run_append] at hst' hd' hk'
  obtain ⟨hdl, hsl⟩ := counts_lt hg ho hr
  have hb' : d' < 2 ^ 64 := (hd'.trans (hg.link.seen_le .dropped)).trans_lt hdl
  have hk'' : k' < 2 ^ 64 := (hk'.trans (hg.link.seen_le .skips)).trans_lt hsl
  have hbefore : before = statusOf d k := hst
  have hlater : later = statusOf d' k' := hst'
  rw [hbefore, hlater]
  simp only [statusOf, word_of_lt hb', word_of_lt hk'', word_of_lt (hdd.trans_lt hb'),
    word_of_lt (hkk.trans_lt hk''), decide_eq_true_eq]
  exact ⟨hdd, hkk, fun hpos => hpos.trans_le hdd⟩

theorem header_monotone_second :
    let before := (after rawSession firstFrame).live.app.liveStatus
    let later := (after rawSession
      (firstFrame ++ (secondFrame ++ [.loadSkips 1 2]))).live.app.liveStatus
    (before.dropped ≤ later.dropped ∧ before.skipped ≤ later.skipped ∧
      (before.approximate = true → later.approximate = true)) ∧
      before.skipped = 0 ∧ later.skipped = 1 :=
  ⟨header_monotone rawSession (by decide +kernel) (by decide +kernel) (by decide +kernel),
    by decide +kernel, by decide +kernel⟩

end Steps

end Pipeline

end TcpVisr
